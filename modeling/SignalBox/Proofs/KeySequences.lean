import SignalBox.Proofs.EntryReadings
import SignalBox.Proofs.KeyPresses

/-!
# What a sequence of keys is read as

The console takes one key at a time and judges what has been typed after each. Here the keys are cut
into entries first (`Entries`), each of which is then read for itself (`ReadAll`). The main
statement is `commands_pressAll_iff`: the commands that a fresh console gives for a sequence of keys
are those that its entries are read as, and no others. Which keys end an entry (`endKeys`), discard
it or have no effect (`isKey`) is said here one by one.

* **The state of the console** is what has been typed of the entry at hand, as far as it fits
  (`typing`). That keys are dropped when the entry is full does not show until the entry ends, and
  then it is discarded as a whole, so the state need not say how many keys were dropped.
* **An entry ends** with the first terminator that is not its first key, since no other key is
  judged to complete one (`press_of_unfinished`, `press_of_finished`).
-/

namespace SignalBox

open Decimal

/-! ### Entries of a sequence of keys -/

/-- The keys that end an entry. -/
def endKeys : List Char := ['+', '-', '#', '*', '/']

/-- Whether a key belongs to the grammar in which a dot parts signals: it is a letter, a digit or a
dot, it ends an entry, or it discards one. -/
def isKey (c : Char) : Bool :=
  c.isAlphanum || c = '.' || c ∈ endKeys || c = '<'

/-- Keys that have begun an entry and not ended it. -/
structure Unfinished (typed : List Char) : Prop where
  head_ne : typed.head? ≠ some '#'
  notMem_clearKey : '<' ∉ typed
  notMem_endKeys : ∀ c ∈ typed.tail, c ∉ endKeys

/-- Keys that are an entry from its beginning to its end. -/
inductive Finished : List Char → Prop
  | intro {typed : List Char} {last : Char} (h : Unfinished typed) (hne : typed ≠ [])
      (hlast : last ∈ endKeys) : Finished (typed ++ [last])

/-- The finished entries of a sequence of keys, one after another. -/
inductive Entries : List Char → List (List Char) → Prop
  /-- The last entry is not finished. -/
  | unfinished {typed : List Char} (h : Unfinished typed) : Entries typed []
  /-- A `#` does not begin an entry. -/
  | hash {keys : List Char} {entries : List (List Char)} (h : Entries keys entries) :
      Entries ('#' :: keys) entries
  /-- What has been typed is discarded. -/
  | discarded {typed keys : List Char} {entries : List (List Char)} (ht : Unfinished typed)
      (h : Entries keys entries) : Entries (typed ++ '<' :: keys) entries
  /-- An end key that is not the first key ends an entry. -/
  | finished {entry keys : List Char} {entries : List (List Char)} (he : Finished entry)
      (h : Entries keys entries) : Entries (entry ++ keys) (entry :: entries)

/-- The commands that entries are read as. One that is too long, or has no reading, gives nothing.
-/
inductive ReadAll : List (List Char) → List Command → Prop
  | nil : ReadAll [] []
  | command {entry : List Char} {entries : List (List Char)} {command : Command}
      {commands : List Command} (hlength : entry.length ≤ 32) (hreads : ReadsAs entry command)
      (h : ReadAll entries commands) : ReadAll (entry :: entries) (command :: commands)
  | nothing {entry : List Char} {entries : List (List Char)} {commands : List Command}
      (hnone : 32 < entry.length ∨ ∀ command, ¬ ReadsAs entry command)
      (h : ReadAll entries commands) : ReadAll (entry :: entries) commands

section

variable {typed more keys : List Char} {c key last : Char}

/-- **The end keys** are those that the console takes to end an entry. -/
theorem mem_endKeys_iff : c ∈ endKeys ↔ isTerminator c = true := by
  rw [isTerminator_iff]
  simp [endKeys]

theorem notMem_endKeys_iff : c ∉ endKeys ↔ isTerminator c = false := by
  rw [mem_endKeys_iff, Bool.not_eq_true]

namespace Unfinished

theorem nil : Unfinished [] :=
  ⟨by simp, by simp, by simp⟩

theorem isTerminator (h : Unfinished typed) (hc : c ∈ typed.tail) :
    SignalBox.isTerminator c = false :=
  notMem_endKeys_iff.1 (h.notMem_endKeys c hc)

theorem ne_clearKey (h : Unfinished typed) (hc : c ∈ typed) : c ≠ clearKey := by
  rintro rfl
  exact h.notMem_clearKey hc

/-- What has neither a terminator nor the key that discards it. -/
theorem of_forall (h : ∀ c ∈ typed, SignalBox.isTerminator c = false) (hclear : clearKey ∉ typed) :
    Unfinished typed := by
  refine ⟨fun hhead ↦ ?_, hclear, fun c hc ↦ notMem_endKeys_iff.2 (h c (List.mem_of_mem_tail hc))⟩
  exact absurd (h '#' (List.mem_of_head? hhead)) (by decide)

/-- What has been typed before is not finished either. -/
theorem of_append (h : Unfinished (typed ++ more)) : Unfinished typed := by
  refine ⟨fun hhead ↦ h.head_ne ?_, fun hc ↦ h.notMem_clearKey (List.mem_append_left _ hc),
    fun c hc ↦ h.notMem_endKeys c ?_⟩
  · rw [List.head?_append, hhead, Option.some_or]
  · cases typed with
    | nil => cases hc
    | cons first typed => exact List.mem_append_left _ hc

/-- A further key that does not end the entry. -/
theorem concat (h : Unfinished typed) (hhash : typed = [] → key ≠ '#') (hclear : key ≠ clearKey)
    (hend : typed ≠ [] → SignalBox.isTerminator key = false) : Unfinished (typed ++ [key]) := by
  cases typed with
  | nil => exact ⟨by simpa using hhash rfl, by simpa [clearKey] using hclear.symm, by simp⟩
  | cons first typed =>
    refine ⟨h.head_ne, ?_, fun c hc ↦ ?_⟩
    · rw [List.mem_append, List.mem_singleton, not_or]
      exact ⟨h.notMem_clearKey, hclear.symm⟩
    · rcases List.mem_append.1 hc with hc | hc
      · exact h.notMem_endKeys c hc
      · rw [List.mem_singleton.1 hc, notMem_endKeys_iff]
        exact hend (by simp)

end Unfinished

instance decidableUnfinished (typed : List Char) : Decidable (Unfinished typed) :=
  decidable_of_iff (typed.head? ≠ some '#' ∧ '<' ∉ typed ∧
      (typed.tail.all fun c ↦ c ∉ endKeys) = true)
    ⟨fun ⟨hhead, hclear, hall⟩ ↦ ⟨hhead, hclear, by simpa using hall⟩,
      fun h ↦ ⟨h.head_ne, h.notMem_clearKey, by simpa using h.notMem_endKeys⟩⟩

/-- **Every sequence of keys** can be cut into entries. -/
theorem exists_entries (keys : List Char) : ∃ entries, Entries keys entries := by
  suffices h : ∀ typed, Unfinished typed → ∃ entries, Entries (typed ++ keys) entries from
    h [] .nil
  induction keys with
  | nil => exact fun typed ht ↦ ⟨[], by rw [List.append_nil]; exact .unfinished ht⟩
  | cons key keys ih =>
    intro typed ht
    obtain ⟨entries, hentries⟩ := ih [] .nil
    by_cases hclear : key = clearKey
    · exact ⟨entries, hclear ▸ .discarded ht hentries⟩
    · by_cases hhash : typed = [] ∧ key = '#'
      · obtain ⟨rfl, rfl⟩ := hhash
        exact ⟨entries, .hash hentries⟩
      · rw [List.append_cons]
        by_cases hend : typed ≠ [] ∧ isTerminator key = true
        · exact ⟨_, .finished (.intro ht hend.1 (mem_endKeys_iff.2 hend.2)) hentries⟩
        · exact ih _ (ht.concat (fun h hk ↦ hhash ⟨h, hk⟩) hclear
            fun h ↦ Bool.eq_false_iff.2 fun hk ↦ hend ⟨h, hk⟩)

theorem finished_of_mem_entries {entry : List Char} {entries : List (List Char)}
    (h : Entries keys entries) (hentry : entry ∈ entries) : Finished entry := by
  induction h with
  | unfinished => cases hentry
  | hash _ ih => exact ih hentry
  | discarded _ _ ih => exact ih hentry
  | finished he _ ih =>
    rcases List.mem_cons.1 hentry with rfl | hentry
    · exact he
    · exact ih hentry

end

/-! ### The console -/

namespace Interpreter

variable {i : Interpreter} {typed more keys entry : List Char} {key last : Char}

/-- What a finished entry gives: nothing if it is too long. -/
def command? (entry : List Char) : Option Command :=
  if entry.length ≤ maxEntry then
    match Grammar.standard.classify entry with
    | .waiting => none
    | .complete command => command
  else none

/-- **What an entry gives** is what it is read as. -/
theorem command?_eq_some_iff {command : Command} (h : Finished entry) :
    command? entry = some command ↔ entry.length ≤ 32 ∧ ReadsAs entry command := by
  obtain ⟨h, hne, hlast⟩ := h
  rw [command?, ← Grammar.classify_eq_complete_iff hne (mem_endKeys_iff.1 hlast),
    Option.ite_none_right_eq_some]
  refine and_congr_right fun _ ↦ ?_
  split <;> simp_all

/-- A console on which some keys of an entry have been typed, as far as they fit. -/
def typing (typed : List Char) : Interpreter :=
  ⟨.standard, typed.take maxEntry⟩

/-! ### One key -/

/-- **The keys that belong to the grammar** are those that the console accepts, and the one that
discards the entry. -/
theorem isKey_iff : isKey key = true ↔ Grammar.standard.accepts key = true ∨ key = clearKey := by
  simp only [isKey, mem_endKeys_iff, Bool.decide_eq_true, Bool.or_eq_true (_ || _) (decide _)]
  exact or_congr_right decide_eq_true_iff

/-- Each key of a grammar takes one byte if its divider does. -/
theorem utf8Size_of_accepts {g : Grammar} (hdivider : g.divider.utf8Size = 1)
    (h : g.accepts key = true) : key.utf8Size = 1 := by
  rw [Grammar.accepts, Bool.or_eq_true, Bool.or_eq_true, Char.isAlphanum, Bool.or_eq_true,
    isAlpha_iff, isDigit_iff, decide_eq_true_eq, isTerminator_iff] at h
  by_cases hkey : key = g.divider
  · rw [hkey, hdivider]
  · have hcode : key.toNat ≤ 127 := by
      rcases h with ((h | h) | h) | rfl | rfl | rfl | rfl | rfl
      · omega
      · omega
      · exact absurd h hkey
      all_goals decide
    rw [Char.utf8Size_eq_one_iff, UInt32.le_iff_toNat_le, Char.toNat_val]
    exact hcode

theorem size_eq_length (h : ∀ c ∈ typed, Grammar.standard.accepts c = true) :
    Text.size typed = typed.length := by
  induction typed with
  | nil => rfl
  | cons c typed ih =>
    rw [Text.size, utf8Size_of_accepts rfl (h c List.mem_cons_self),
      ih fun c hc ↦ h c (List.mem_cons_of_mem _ hc), List.length_cons, Nat.add_comm]

theorem size_typing (h : ∀ c ∈ typed, Grammar.standard.accepts c = true) :
    Text.size (typing typed).entry = min maxEntry typed.length := by
  rw [typing, size_eq_length fun c hc ↦ h c (List.mem_of_mem_take hc), List.length_take]

/-- Nothing is made of an entry that is not finished. -/
theorem classify_of_unfinished {g : Grammar} (h : Unfinished typed) :
    g.classify typed = .waiting := by
  have hcontrol {c d : Char} (hd : isTerminator d = true) : ¬ typed = [c, d] := by
    rintro rfl
    exact Bool.false_ne_true ((h.isTerminator (List.mem_singleton_self d)).symm.trans hd)
  rw [Grammar.classify.eq_def, if_neg (hcontrol rfl), if_neg (hcontrol rfl), if_neg (hcontrol rfl)]
  cases typed with
  | nil => rfl
  | cons first rest =>
    rcases List.eq_nil_or_concat rest with rfl | ⟨rest, last, rfl⟩
    · have hfirst : first ≠ '#' := fun hf ↦ h.head_ne (congrArg some hf)
      simp [hfirst]
    · have hlast : isTerminator last = false := h.isTerminator (by simp)
      simp [List.getLast?_cons, hlast]

theorem press_hash : (typing []).press '#' = (typing [], none) := rfl

/-- **A key that does not end the entry** is kept as far as it fits, and gives nothing. -/
theorem press_of_unfinished (hkeys : ∀ c ∈ typed ++ [key], Grammar.standard.accepts c = true)
    (h : Unfinished (typed ++ [key])) :
    (typing typed).press key = (typing (typed ++ [key]), none) := by
  have hkey : Grammar.standard.accepts key = true := hkeys key (by simp)
  have hclear : key ≠ clearKey := h.ne_clearKey (by simp)
  have hsize := size_typing fun c hc ↦ hkeys c (List.mem_append_left _ hc)
  have hwidth := utf8Size_of_accepts rfl hkey
  rcases drops_or_fits (typing typed) hclear hkey with hdrops | hfits
  · have hfull := hdrops.noRoom
    have hlong : maxEntry ≤ typed.length := by omega
    -- the key is no terminator because it is not the first one
    have hend : isTerminator key = false := by
      refine h.isTerminator ?_
      cases typed with
      | nil => exact absurd hlong (by decide)
      | cons first typed => simp
    rw [press_of_drops hdrops, hend, typing, typing, List.take_append_of_le_length hlong]
    rfl
  · have hroom := hfits.room
    have hlength : (typed ++ [key]).length ≤ maxEntry := by
      rw [List.length_append, List.length_singleton]
      omega
    have hentry : (typing typed).entry = typed := List.take_of_length_le (by omega)
    rw [press_of_waiting hfits (classify_of_unfinished (hentry.symm ▸ h)), hentry, typing, typing,
      List.take_of_length_le hlength]

/-- **A key that ends the entry** gives what the entry gives. -/
theorem press_of_finished (hkeys : ∀ c ∈ typed, Grammar.standard.accepts c = true)
    (hne : typed ≠ []) (hlast : isTerminator last = true) :
    (typing typed).press last = (typing [], command? (typed ++ [last])) := by
  have hkey : Grammar.standard.accepts last = true := accepts_of_isTerminator hlast
  have hclear : last ≠ clearKey := by
    rintro rfl
    cases hlast
  have hsize := size_typing hkeys
  have hwidth := utf8Size_of_accepts rfl hkey
  have hlength : (typed ++ [last]).length = typed.length + 1 := by simp
  rcases drops_or_fits (typing typed) hclear hkey with hdrops | hfits
  · have hfull := hdrops.noRoom
    rw [press_of_drops hdrops, if_pos hlast, command?, if_neg (by omega)]
    rfl
  · have hroom := hfits.room
    have hentry : (typing typed).entry = typed := List.take_of_length_le (by omega)
    obtain ⟨command, hjudged⟩ := Grammar.standard.exists_classify_concat hne hlast
    rw [command?, if_pos (by omega), hjudged]
    exact press_of_complete hfits (hentry.symm ▸ hjudged)

/-! ### Sequences of keys -/

/-- Keys that do not belong to the grammar have no effect. -/
theorem pressAll_filter_isKey (hi : i.grammar = .standard) :
    i.pressAll (keys.filter isKey) = i.pressAll keys := by
  induction keys generalizing i with
  | nil => rfl
  | cons key keys ih =>
    cases hkey : isKey key with
    | true =>
      rw [List.filter_cons_of_pos hkey, pressAll_cons, pressAll_cons,
        ih ((i.grammar_press key).trans hi)]
    | false =>
      have hclear : key ≠ clearKey := by
        rintro rfl
        cases hkey
      have haccepts : i.grammar.accepts key = false := Bool.eq_false_iff.2 fun h ↦
        Bool.false_ne_true (hkey.symm.trans (isKey_iff.2 (.inl (hi ▸ h))))
      rw [List.filter_cons_of_neg (by simp [hkey]), ih hi, pressAll_cons,
        press_of_not_accepts hclear haccepts]
      rfl

theorem pressAll_of_unfinished
    (hkeys : ∀ c ∈ typed ++ more, Grammar.standard.accepts c = true)
    (h : Unfinished (typed ++ more)) :
    (typing typed).pressAll more = (typing (typed ++ more), []) := by
  induction more generalizing typed with
  | nil => rw [List.append_nil]; rfl
  | cons key more ih =>
    rw [List.append_cons] at hkeys h ⊢
    rw [pressAll_cons,
      press_of_unfinished (fun c hc ↦ hkeys c (List.mem_append_left _ hc)) h.of_append, ih hkeys h]
    rfl

/-- **The entries of a sequence of keys** give its commands. -/
theorem pressAll_of_entries {entries : List (List Char)} (hkeys : ∀ c ∈ keys, isKey c = true)
    (h : Entries keys entries) :
    ((typing []).pressAll keys).2 = entries.filterMap command? := by
  -- keys of an entry are accepted, because the one that discards an entry is not among them
  have haccepts {typed : List Char} (ht : Unfinished typed) (hkeys : ∀ c ∈ typed, isKey c = true) :
      ∀ c ∈ typed, Grammar.standard.accepts c = true := fun c hc ↦
    (isKey_iff.1 (hkeys c hc)).resolve_right (ht.ne_clearKey hc)
  have htyping {typed : List Char} (ht : Unfinished typed) (hkeys : ∀ c ∈ typed, isKey c = true) :
      (typing []).pressAll typed = (typing typed, []) :=
    @pressAll_of_unfinished [] typed (haccepts ht hkeys) ht
  induction h with
  | unfinished ht => rw [htyping ht hkeys]; rfl
  | hash _ ih =>
    rw [pressAll_cons, press_hash]
    exact ih fun c hc ↦ hkeys c (List.mem_cons_of_mem _ hc)
  | discarded ht _ ih =>
    rw [pressAll_append, htyping ht fun c hc ↦ hkeys c (List.mem_append_left _ hc), pressAll_cons,
      show '<' = clearKey from rfl, press_clearKey]
    exact ih fun c hc ↦ hkeys c (List.mem_append_right _ (List.mem_cons_of_mem _ hc))
  | finished he _ ih =>
    obtain @⟨typed, last, ht, hne, hlast⟩ := he
    have htyped : ∀ c ∈ typed, isKey c = true := fun c hc ↦ hkeys c (by simp [hc])
    rw [List.append_assoc, pressAll_append, htyping ht htyped, List.singleton_append, pressAll_cons,
      List.nil_append, press_of_finished (haccepts ht htyped) hne (mem_endKeys_iff.1 hlast),
      List.filterMap_cons,
      ih fun c hc ↦ hkeys c (List.mem_append_right _ hc)]
    cases command? (typed ++ [last]) <;> rfl

theorem readAll_iff {entries : List (List Char)} {commands : List Command}
    (h : ∀ entry ∈ entries, Finished entry) :
    ReadAll entries commands ↔ entries.filterMap command? = commands := by
  induction entries generalizing commands with
  | nil =>
    rw [List.filterMap_nil]
    refine ⟨fun hread ↦ ?_, ?_⟩
    · cases hread
      rfl
    · rintro rfl
      exact .nil
  | cons entry entries ih =>
    have hentry {command : Command} := @command?_eq_some_iff entry command
      (h entry List.mem_cons_self)
    have ih {commands : List Command} := @ih commands
      fun entry hentry ↦ h entry (List.mem_cons_of_mem _ hentry)
    constructor
    · rintro (_ | ⟨hlength, hreads, hrest⟩ | ⟨hnone, hrest⟩)
      · rw [List.filterMap_cons_some (hentry.2 ⟨hlength, hreads⟩), ih.1 hrest]
      · have hcommand : command? entry = none := by
          refine Option.eq_none_iff_forall_ne_some.2 fun command hsome ↦ ?_
          obtain ⟨hlength, hreads⟩ := hentry.1 hsome
          exact hnone.elim (fun hlong ↦ by omega) fun hnot ↦ hnot command hreads
        rw [List.filterMap_cons_none hcommand, ih.1 hrest]
    · rintro rfl
      cases hcommand : command? entry with
      | none =>
        rw [List.filterMap_cons_none hcommand]
        refine .nothing ?_ (ih.2 rfl)
        rw [or_iff_not_imp_left, Nat.not_lt]
        exact fun hlength command hreads ↦
          Option.some_ne_none command ((hentry.2 ⟨hlength, hreads⟩).symm.trans hcommand)
      | some command =>
        obtain ⟨hlength, hreads⟩ := hentry.1 hcommand
        rw [List.filterMap_cons_some hcommand]
        exact .command hlength hreads (ih.2 rfl)

/-- **What is typed** at a fresh console, key by key, gives the commands that its entries are read
as, in order, and nothing else. -/
theorem commands_pressAll_iff (keys : List Char) (commands : List Command) :
    ((ofGrammar .standard).pressAll keys).2 = commands ↔
      ∃ entries, Entries (keys.filter isKey) entries ∧ ReadAll entries commands := by
  -- whichever way the keys are cut, what its entries give is what the console gives
  have hgives {entries : List (List Char)} (hentries : Entries (keys.filter isKey) entries) :
      ReadAll entries commands ↔ ((ofGrammar .standard).pressAll keys).2 = commands := by
    have hpressed := pressAll_of_entries (fun c hc ↦ (List.mem_filter.1 hc).2) hentries
    rw [pressAll_filter_isKey rfl] at hpressed
    rw [readAll_iff fun entry hentry ↦ finished_of_mem_entries hentries hentry, ← hpressed]
    rfl
  constructor
  · intro hcommands
    obtain ⟨entries, hentries⟩ := exists_entries (keys.filter isKey)
    exact ⟨entries, hentries, (hgives hentries).2 hcommands⟩
  · rintro ⟨entries, hentries, hread⟩
    exact (hgives hentries).1 hread

/-- A `#` that begins no entry, a number that is discarded, a point off the route, and a route with
a blank between its keys. -/
theorem commands_pressAll_iff_of_two_entries :
    let keys := "#12<x27A+6 4.72#".toList
    let entries := ["x27A+".toList, "64.72#".toList]
    let commands : List Command :=
      [.point ((PointCommand.flank 27 .straight).withSubPoint 'a'), .route (.plain 64 72 .setMain)]
    Entries (keys.filter isKey) entries ∧ ReadAll entries commands ∧
      ((ofGrammar .standard).pressAll keys).2 = commands := by
  intro keys entries commands
  have hkeys : keys.filter isKey =
      '#' :: ("12".toList ++ '<' :: ("x27A+".toList ++ ("64.72#".toList ++ []))) := by
    decide +kernel
  have hpoint : Finished ("x27A".toList ++ ['+']) := .intro (by decide) (by decide) (by decide)
  have hroute : Finished ("64.72".toList ++ ['#']) := .intro (by decide) (by decide) (by decide)
  have hentries : Entries (keys.filter isKey) entries := by
    rw [hkeys]
    exact .hash (.discarded (by decide) (.finished hpoint (.finished hroute (.unfinished .nil))))
  have hdigits : ∀ field ∈ [['6', '4'], ['7', '2']], ∀ c ∈ field, c.isDigit = true := by
    have hall : ([['6', '4'], ['7', '2']].all (·.all Char.isDigit)) = true := by decide
    simpa only [List.all_eq_true] using hall
  have hread : ReadAll entries commands := by
    refine .command (by decide) ?_ (.command (by decide) ?_ .nil)
    · exact @ReadsAs.point ['x'] ['2', '7'] (some 'A') '+' .straight (.inr (.inl rfl))
        ⟨by decide, List.all_eq_true.1 (by decide)⟩ (by simp) .straight
    · exact @ReadsAs.chain ['6', '4'] ['7', '2'] [] '#' .setMain hdigits (by simp) .setMain
  exact ⟨hentries, hread, (commands_pressAll_iff keys commands).2 ⟨entries, hentries, hread⟩⟩

end Interpreter

end SignalBox
