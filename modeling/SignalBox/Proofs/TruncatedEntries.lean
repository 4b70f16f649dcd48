import SignalBox.Proofs.EntryStates

/-!
# Entries that have lost a key

A key that does not fit into an entry is dropped, and the entry is then not what has been typed. It
is meant to be discarded when a terminator ends it. The main statement (`discardsTruncated_iff`)
says for which grammars it is: exactly for those whose divider takes one byte.

* **A narrow divider** is dropped only if the entry is full. Then no other key fits either, so the
  entry stays full until it is discarded (`entry_eq_nil_or_eq_of_full`).
* **A wide divider** is dropped while there may be room for narrower keys. These are appended to
  what stood in front of it, and the terminator ends an entry that nobody has typed.
-/

namespace SignalBox.Interpreter

variable {i j : Interpreter} {g : Grammar} {key last : Char} {keys : List Char}
  {command : Option Command}

/-- Some key has been dropped for want of room, and the entry has not been empty since. -/
def LacksKeys (i : Interpreter) (keys : List Char) : Prop :=
  ∃ before key after, keys = before ++ key :: after ∧ (i.pressAll before).1.Drops key ∧
    ∀ front, front <+: after → (i.pressAll (before ++ key :: front)).1.entry ≠ []

/-- A terminator behind an entry that lacks a key gives nothing, and leaves nothing behind. -/
def DiscardsTruncated (g : Grammar) : Prop :=
  ∀ keys last, (ofGrammar g).LacksKeys keys → isTerminator last = true →
    ((ofGrammar g).pressAll keys).1.press last = (ofGrammar g, none)

theorem LacksKeys.entry_ne_nil (h : i.LacksKeys keys) : (i.pressAll keys).1.entry ≠ [] := by
  obtain ⟨before, key, after, rfl, -, hne⟩ := h
  exact hne after (List.prefix_refl after)

theorem utf8Size_of_isTerminator (h : isTerminator key = true) : key.utf8Size = 1 := by
  rcases isTerminator_iff.1 h with rfl | rfl | rfl | rfl | rfl <;> rfl

/-! ### Narrow dividers -/

/-- **A full entry** stays as it is until it is discarded. -/
theorem entry_eq_nil_or_eq_of_full (hfull : Text.size i.entry = maxEntry)
    (ht : i.Takes key j command) : j.entry = [] ∨ j = i := by
  have hnoRoom (hfits : i.Fits key) : False := by
    have hroom := hfits.room
    have hpos := key.utf8Size_pos
    omega
  cases ht with
  | cleared | discarded => exact .inl rfl
  | ignored | dropped => exact .inr rfl
  | kept hfits | completed hfits => exact (hnoRoom hfits).elim

theorem size_press_of_full (hfull : Text.size i.entry = maxEntry)
    (hne : (i.press key).1.entry ≠ []) : Text.size (i.press key).1.entry = maxEntry := by
  rcases entry_eq_nil_or_eq_of_full hfull (takes_press i key) with hnil | hsame
  · exact absurd hnil hne
  · rw [hsame, hfull]

/-- Where the divider takes one byte, an entry that lacks a key is full. -/
theorem size_eq_of_lacksKeys (hdivider : g.divider.utf8Size = 1)
    (h : (ofGrammar g).LacksKeys keys) :
    Text.size ((ofGrammar g).pressAll keys).1.entry = maxEntry := by
  obtain ⟨before, key, after, rfl, hdrops, hne⟩ := h
  have hgrammar : ((ofGrammar g).pressAll before).1.grammar = g := grammar_pressAll _ before
  -- induction on what has been typed since the key was dropped, from its end
  induction after using List.reverseRecOn with
  | nil =>
    have hne := hne [] List.nil_prefix
    rw [pressAll_concat] at hne ⊢
    refine size_press_of_full ?_ hne
    have hle := ((Reached.start g).pressAll before).orderly.size_le
    have hkey := utf8Size_of_accepts hdivider (hgrammar ▸ hdrops.accepts)
    have hnoRoom := hdrops.noRoom
    omega
  | append_singleton after next ih =>
    have hsize := ih fun front hfront ↦ hne front (hfront.trans (List.prefix_append after [next]))
    have hne := hne (after ++ [next]) (List.prefix_refl _)
    rw [← List.cons_append, ← List.append_assoc, pressAll_concat] at hne ⊢
    exact size_press_of_full hsize hne

/-! ### Wide dividers -/

/-- An entry for the turntable that leaves room for one byte. -/
def longEntry : List Char := '+' :: List.replicate 30 '1'

theorem size_longEntry : Text.size longEntry = 31 := rfl

theorem pressAll_longEntry (g : Grammar) :
    (ofGrammar g).pressAll longEntry = ({ ofGrammar g with entry := longEntry }, []) := by
  have hroom : Text.size longEntry ≤ maxEntry := by
    rw [size_longEntry]
    decide
  have hunfinished : Unfinished longEntry := by decide
  refine pressAll_of_fits (fun c hc ↦ ?_) hroom hunfinished
  rw [longEntry, List.mem_cons, List.mem_replicate] at hc
  rcases hc with rfl | ⟨-, rfl⟩
  · exact accepts_of_isTerminator rfl
  · rfl

theorem classify_longEntry (g : Grammar) : g.classify (longEntry ++ ['#']) =
    .complete (some (.turntable { track := 0, direction := .straight })) := by
  rfl

/-- **A wide divider** behind that entry is dropped, and the entry is as it was. -/
theorem lacksKeys_of_wide_divider (hwide : g.divider.utf8Size ≠ 1) :
    (ofGrammar g).LacksKeys (longEntry ++ [g.divider]) ∧
      ((ofGrammar g).pressAll (longEntry ++ [g.divider])).1 =
        { ofGrammar g with entry := longEntry } := by
  have hend : isTerminator g.divider = false :=
    Bool.eq_false_iff.2 fun hend ↦ hwide (utf8Size_of_isTerminator hend)
  have hdrops : Drops { ofGrammar g with entry := longEntry } g.divider := by
    refine ⟨fun hclear ↦ hwide (by rw [hclear]; rfl), ?_, ?_⟩
    · rw [Grammar.accepts]
      simp [ofGrammar]
    · have hpos := g.divider.utf8Size_pos
      show 32 < Text.size longEntry + g.divider.utf8Size
      rw [size_longEntry]
      omega
  have hsame : ((ofGrammar g).pressAll (longEntry ++ [g.divider])).1 =
      { ofGrammar g with entry := longEntry } := by
    rw [pressAll_concat, pressAll_longEntry, press_of_drops hdrops, hend]
    rfl
  refine ⟨⟨longEntry, g.divider, [], rfl, ?_, fun front hfront ↦ ?_⟩, hsame⟩
  · rwa [pressAll_longEntry]
  · rw [List.prefix_nil.1 hfront, hsame]
    exact List.cons_ne_nil _ _

/-! ### What becomes of them -/

/-- What a terminator makes of an entry that lacks a key: the entry is gone, and the command is that
of the keys that were not dropped if there is room for the terminator. -/
theorem press_of_lacksKeys (h : (ofGrammar g).LacksKeys keys) (hend : isTerminator last = true) :
    (((ofGrammar g).pressAll keys).1.press last).1 = ofGrammar g ∧
      ∀ command, (((ofGrammar g).pressAll keys).1.press last).2 = some command ↔
        Text.size ((ofGrammar g).pressAll keys).1.entry < 32 ∧
          g.classify (((ofGrammar g).pressAll keys).1.entry ++ [last]) =
            .complete (some command) := by
  have hgrammar : ((ofGrammar g).pressAll keys).1.grammar = g := grammar_pressAll _ keys
  obtain ⟨hclear, hgives⟩ := ends_of_isTerminator (takes_press _ last) hend h.entry_ne_nil
  rw [hgrammar, utf8Size_of_isTerminator hend] at hgives
  refine ⟨hclear.trans ?_, hgives⟩
  rw [clear, hgrammar]
  rfl

/-- **Entries that lack a key** are gone with the next terminator. It gives what the keys that were
not dropped are judged to be if it fits behind them, and nothing otherwise. It never gives anything
if and only if the divider takes one byte. -/
theorem discardsTruncated_iff (g : Grammar) :
    (∀ keys last, (ofGrammar g).LacksKeys keys → isTerminator last = true →
      (((ofGrammar g).pressAll keys).1.press last).1 = ofGrammar g ∧
        ∀ command, (((ofGrammar g).pressAll keys).1.press last).2 = some command ↔
          Text.size ((ofGrammar g).pressAll keys).1.entry < 32 ∧
            g.classify (((ofGrammar g).pressAll keys).1.entry ++ [last]) =
              .complete (some command)) ∧
      (DiscardsTruncated g ↔ g.divider.utf8Size = 1) := by
  refine ⟨fun keys last ↦ press_of_lacksKeys, fun hall ↦ ?_, fun hdivider keys last h hend ↦ ?_⟩
  · by_contra hwide
    obtain ⟨hlacks, hsame⟩ := lacksKeys_of_wide_divider hwide
    have hgives := ((press_of_lacksKeys hlacks rfl).2 _).2
      ⟨by rw [hsame, size_longEntry]; decide, by rw [hsame]; exact classify_longEntry g⟩
    rw [hall _ '#' hlacks rfl] at hgives
    cases hgives
  · obtain ⟨hclear, hgives⟩ := press_of_lacksKeys h hend
    refine Prod.ext hclear (Option.eq_none_iff_forall_ne_some.2 fun command hsome ↦ ?_)
    have hroom := ((hgives command).1 hsome).1
    rw [size_eq_of_lacksKeys hdivider h] at hroom
    exact absurd hroom (by decide)

/-- A grammar in which arrows part signals. -/
def arrowGrammar : Grammar := .ofConfig { ConsoleConfig.standard with divider := '→' }

/-- The arrow in front of the 5 does not fit, but the 5 does. -/
theorem lacksKeys_of_arrow :
    (ofGrammar arrowGrammar).LacksKeys "64→172→176→180→84→10→5".toList := by
  refine ⟨"64→172→176→180→84→10".toList, '→', ['5'], by decide +kernel,
    ⟨by decide, by decide +kernel, by decide +kernel⟩, fun front hfront ↦ ?_⟩
  rcases List.prefix_cons_iff.1 hfront with rfl | ⟨rest, rfl, hrest⟩
  · decide +kernel
  · rw [List.prefix_nil.1 hrest]
    decide +kernel

/-- Where dots part signals, no entry that lacks a key gives anything. Where arrows do, a route that
is typed to signal 5 leads to signal 105. -/
theorem discardsTruncated_iff_of_arrow :
    DiscardsTruncated .standard ∧ ¬ DiscardsTruncated arrowGrammar ∧
      (ofGrammar arrowGrammar).LacksKeys "64→172→176→180→84→10→5".toList ∧
      isTerminator '#' = true ∧
      (((ofGrammar arrowGrammar).pressAll "64→172→176→180→84→10→5".toList).1.press '#').2 =
        some (.route { RouteCommand.plain 64 105 .setMain with via := [172, 176, 180, 84] }) := by
  refine ⟨(discardsTruncated_iff .standard).2.2 (by decide),
    fun h ↦ absurd ((discardsTruncated_iff arrowGrammar).2.1 h) (by decide), lacksKeys_of_arrow,
    rfl, ?_⟩
  exact (((discardsTruncated_iff arrowGrammar).1 _ '#' lacksKeys_of_arrow rfl).2 _).2
    ⟨by decide +kernel, by rfl⟩

/-- The console sets a route that has not been typed. -/
theorem not_discardsTruncated_of_arrow :
    (ofGrammar arrowGrammar).LacksKeys "64→172→176→180→84→10→5".toList ∧
      (((ofGrammar arrowGrammar).pressAll "64→172→176→180→84→10→5".toList).1.press '#').2 =
        some (.route { RouteCommand.plain 64 105 .setMain with via := [172, 176, 180, 84] }) ∧
      ¬ DiscardsTruncated arrowGrammar := by
  have hgives :
      (((ofGrammar arrowGrammar).pressAll "64→172→176→180→84→10→5".toList).1.press '#').2 =
        some (.route { RouteCommand.plain 64 105 .setMain with via := [172, 176, 180, 84] }) := by
    decide +kernel
  refine ⟨lacksKeys_of_arrow, hgives, fun hall ↦ ?_⟩
  rw [hall _ '#' lacksKeys_of_arrow rfl] at hgives
  cases hgives

end SignalBox.Interpreter
