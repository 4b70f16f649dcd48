import SignalBox.Proofs.KeySequences

/-!
# What an entry holds between two keys

A console may part signals with any character, even with a terminator or with one of several bytes,
and the divider may be replaced while an entry is being typed. The main statement is `press_exact`:
whatever the grammar and the keys so far, an entry stays within its room and holds no terminator
behind its first character. A terminator with anything in front of it leaves the console empty, and
so does every key that gives a command.

* **An entry waits** exactly as long as it is not finished (`classify_eq_waiting_iff`). This does
  not depend on the grammar, so the invariant (`Orderly`) survives a change of the divider.
* **A terminator** behind other keys always ends the entry (`ends_of_isTerminator`), with what the
  entry is judged to be if there is room for the terminator, and with nothing otherwise.
-/

namespace SignalBox

/-- An entry that is not finished waits for more keys, and no other does. -/
theorem Grammar.classify_eq_waiting_iff {g : Grammar} {typed : List Char} {key : Char}
    (h : Unfinished typed) (hclear : key ≠ clearKey) :
    g.classify (typed ++ [key]) = .waiting ↔ Unfinished (typed ++ [key]) := by
  refine ⟨fun hwaits ↦ h.concat ?_ hclear fun hne ↦ Bool.eq_false_iff.2 fun hend ↦ ?_,
    Interpreter.classify_of_unfinished⟩
  · rintro rfl rfl
    cases hwaits
  · obtain ⟨command, hcomplete⟩ := exists_classify_concat g hne hend
    rw [hcomplete] at hwaits
    cases hwaits

namespace Interpreter

variable {i j : Interpreter} {key : Char} {command : Option Command}

/-! ### The invariant -/

/-- What holds of a console between two keys. -/
structure Orderly (i : Interpreter) : Prop where
  size_le : Text.size i.entry ≤ maxEntry
  unfinished : Unfinished i.entry

namespace Orderly

theorem of_entry_eq_nil (h : i.entry = []) : i.Orderly := by
  constructor
  · rw [h]
    exact Nat.zero_le _
  · rw [h]
    exact .nil

/-- **The invariant** is kept by each key. -/
theorem of_takes (h : i.Orderly) (ht : i.Takes key j command) : j.Orderly := by
  cases ht with
  | cleared | discarded | completed => exact of_entry_eq_nil rfl
  | ignored | dropped => exact h
  | kept hfits hwaits =>
    refine ⟨?_, (Grammar.classify_eq_waiting_iff h.unfinished hfits.ne_clearKey).1 hwaits⟩
    rw [Text.size_append]
    exact hfits.room

end Orderly

/-- The states that a console can come to. -/
inductive Reached : Interpreter → Prop
  | start (g : Grammar) : Reached (ofGrammar g)
  | withDivider {i : Interpreter} (h : Reached i) (divider : Char) : Reached (i.withDivider divider)
  | clear {i : Interpreter} (h : Reached i) : Reached i.clear
  | press {i : Interpreter} (h : Reached i) (key : Char) : Reached (i.press key).1

theorem Reached.pressAll (h : Reached i) (keys : List Char) : Reached (i.pressAll keys).1 := by
  induction keys generalizing i with
  | nil => exact h
  | cons key keys ih => exact ih (h.press key)

theorem Reached.orderly (h : Reached i) : i.Orderly := by
  induction h with
  | start | clear => exact .of_entry_eq_nil rfl
  | withDivider _ _ ih => exact ⟨ih.size_le, ih.unfinished⟩
  | press _ key ih => exact ih.of_takes (takes_press _ key)

/-! ### Room for keys, and ends of entries -/

/-- **Keys that do not end the entry** are appended to it as long as they fit. -/
theorem pressAll_of_fits {more : List Char} (hkeys : ∀ c ∈ more, i.grammar.accepts c = true)
    (hroom : Text.size (i.entry ++ more) ≤ maxEntry) (h : Unfinished (i.entry ++ more)) :
    i.pressAll more = ({ i with entry := i.entry ++ more }, []) := by
  induction more generalizing i with
  | nil => rw [List.append_nil]; rfl
  | cons key more ih =>
    rw [List.append_cons] at hroom h
    have hclear : key ≠ clearKey := h.ne_clearKey (by simp)
    have hfits : i.Fits key := by
      refine ⟨hclear, hkeys key List.mem_cons_self, ?_⟩
      rw [Text.size_append, Text.size_append] at hroom
      exact Nat.le_trans (Nat.le_add_right _ _) hroom
    have hrest := @ih { i with entry := i.entry ++ [key] }
      (fun c hc ↦ hkeys c (List.mem_cons_of_mem _ hc)) hroom h
    rw [pressAll_cons, press_of_waiting hfits (classify_of_unfinished h.of_append), hrest,
      List.append_assoc, List.singleton_append]
    rfl

/-- **A terminator** behind other characters leaves nothing of the entry. It gives what the entry
with it is judged to be, if there is room for it, and nothing otherwise. -/
theorem ends_of_isTerminator (ht : i.Takes key j command) (hend : isTerminator key = true)
    (hne : i.entry ≠ []) : j = i.clear ∧ ∀ given, command = some given ↔
      Text.size i.entry + key.utf8Size ≤ maxEntry ∧
        i.grammar.classify (i.entry ++ [key]) = .complete (some given) := by
  cases ht with
  | cleared hkey =>
    cases hkey
    cases hend
  | ignored _ haccepts =>
    rw [accepts_of_isTerminator hend] at haccepts
    cases haccepts
  | dropped _ hnot => exact absurd (hnot.symm.trans hend) Bool.false_ne_true
  | discarded hdrops =>
    exact ⟨rfl, fun given ↦ ⟨nofun, fun h ↦ absurd hdrops.noRoom (Nat.not_lt.2 h.1)⟩⟩
  | kept _ hwaits =>
    obtain ⟨given, hcomplete⟩ := Grammar.exists_classify_concat i.grammar hne hend
    rw [hcomplete] at hwaits
    cases hwaits
  | completed hfits hcomplete =>
    refine ⟨rfl, fun given ↦ ?_⟩
    rw [hcomplete, Grammar.Verdict.complete.injEq, and_iff_right hfits.room]

/-- **An entry that fits** and ends with a terminator gives what it is judged to be, and the console
is then as it was before. -/
theorem pressAll_of_classify {g : Grammar} {typed : List Char} {last : Char}
    (hkeys : ∀ c ∈ typed, g.accepts c = true) (h : Unfinished typed)
    (hlast : isTerminator last = true) (hroom : Text.size (typed ++ [last]) ≤ maxEntry)
    (hjudged : g.classify (typed ++ [last]) = .complete command) :
    (ofGrammar g).pressAll (typed ++ [last]) = (ofGrammar g, command.toList) := by
  rw [Text.size_append] at hroom
  have htyped : (ofGrammar g).pressAll typed = (⟨g, typed⟩, []) :=
    pressAll_of_fits hkeys (Nat.le_trans (Nat.le_add_right _ _) hroom) h
  have hfits : Fits ⟨g, typed⟩ last := by
    refine ⟨?_, accepts_of_isTerminator hlast, hroom⟩
    rintro rfl
    cases hlast
  rw [pressAll_append, htyped, pressAll_cons, press_of_complete hfits hjudged, List.nil_append]
  exact congrArg _ (List.append_nil _)

theorem entry_eq_nil_of_command (ht : i.Takes key j command) (hcommand : command ≠ none) :
    j.entry = [] := by
  cases ht with
  | completed => rfl
  | cleared | ignored | dropped | discarded | kept => exact absurd rfl hcommand

/-- **After each key**, an entry has at most 32 bytes, no terminator behind its first character and
no `#` as its first. A terminator behind other characters leaves nothing of the entry, and neither
does a key that gives a command. -/
theorem press_exact (h : Reached i) (key : Char) :
    Text.size (i.press key).1.entry ≤ 32 ∧
      (∀ c ∈ (i.press key).1.entry.tail, isTerminator c = false) ∧
      (i.press key).1.entry.head? ≠ some '#' ∧
      (isTerminator key = true → i.entry ≠ [] → (i.press key).1.entry = []) ∧
      ((i.press key).2 ≠ none → (i.press key).1.entry = []) := by
  have horderly := (h.press key).orderly
  exact ⟨horderly.size_le, fun _ ↦ horderly.unfinished.isTerminator, horderly.unfinished.head_ne,
    fun hend hne ↦ congrArg entry (ends_of_isTerminator (takes_press i key) hend hne).1,
    entry_eq_nil_of_command (takes_press i key)⟩

/-- A console on which a number has been typed before `#` was made the divider. -/
def hashDivided : Interpreter := ((ofGrammar .standard).pressAll ['1', '7', '2']).1.withDivider '#'

/-- With a terminator for the divider, it still ends the entry. -/
theorem press_exact_of_hashDivided :
    Reached hashDivided ∧ hashDivided.entry = ['1', '7', '2'] ∧
      hashDivided.grammar.divider = '#' ∧
      (hashDivided.press '#').2 = some (.route (.plain 0 172 .setMain)) ∧
      (hashDivided.press '#').1.entry = [] := by
  have hreached : Reached hashDivided := ((Reached.start .standard).pressAll _).withDivider '#'
  obtain ⟨-, -, -, hends, -⟩ := press_exact hreached '#'
  exact ⟨hreached, by decide +kernel, rfl, by decide +kernel, hends rfl (by decide +kernel)⟩

end Interpreter

end SignalBox
