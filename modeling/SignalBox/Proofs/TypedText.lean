import SignalBox.Proofs.EntryStates

/-!
# Commands that are typed as they are shown

The text of a command to a point is an entry of the console, and so are the numbers of a route's
signals, parted by dots, with the key that says what is asked of the route. The main statement is
`pressAll_text`: at a console on which nothing has been typed, either of them gives one command,
which is the one that was shown, and leaves nothing behind.

* **The numbers come back** because the digits of a number are a run that stands for it
  (`numeral_digits`), whatever the number.
* **No key is lost.** The keys before the last one are letters, digits and dots, none of which ends
  an entry (`pressAll_of_readsAs`). The text of a point always fits into an entry
  (`PointCommand.length_symbols_le`), the numbers of a long route need not.
-/

namespace SignalBox

/-! ### The digits of a number -/

namespace Decimal

/-- A number below a power of ten has no more digits than the power has zeros. -/
theorem length_digits_le {n k : Nat} (hn : n < 10 ^ (k + 1)) : (digits n).length ≤ k + 1 := by
  induction k generalizing n with
  | zero =>
    rw [digits, if_pos (by simpa using hn)]
    exact Nat.le_refl 1
  | succ k ih =>
    rw [digits]
    split
    · exact Nat.le_add_left 1 (k + 1)
    · have hshorter : (digits (n / 10)).length ≤ k + 1 :=
        ih (Nat.div_lt_of_lt_mul (by rwa [Nat.pow_succ'] at hn))
      rw [List.length_append, List.length_singleton]
      omega

end Decimal

open Decimal

/-! ### Texts of points -/

namespace PointCommand

/-- A text of a point has a mark, ten digits, a letter and a sign at most. -/
theorem length_symbols_le (c : PointCommand) : c.symbols.length ≤ 13 := by
  have hmark : (if c.onRoute then [] else ['x']).length ≤ 1 := by
    split <;> decide
  have hdigits : (digits c.number.toNat).length ≤ 10 :=
    length_digits_le (Nat.lt_of_lt_of_le c.number.toNat_lt (by decide))
  have hletter : c.subPoint.toList.length ≤ 1 := by
    cases c.subPoint <;> simp
  rw [symbols, List.length_append, List.length_append, List.length_append, List.length_singleton]
  omega

theorem signs_mark {position : Position} (h : position ≠ .undefined) :
    Signs position.mark position := by
  cases position with
  | undefined => exact absurd rfl h
  | straight => exact .straight
  | diverging => exact .diverging

theorem toLower_of_isLower {c : Char} (h : c.isLower = true) : c.toLower = c := by
  have hbounds : (decide ('a'.val ≤ c.val) && decide (c.val ≤ 'z'.val)) = true := h
  rw [Bool.and_eq_true, decide_eq_true_eq] at hbounds
  refine dif_neg fun hrange ↦ ?_
  exact absurd (UInt32.le_trans hbounds.1 hrange.2) (by decide)

theorem isAlpha_of_isLower {c : Char} (h : c.isLower = true) : c.isAlpha = true := by
  show (c.isUpper || c.isLower) = true
  rw [h, Bool.or_true]

/-- **The text of a point** is read as the command itself, without what the layout fills in. -/
theorem readsAs_symbols {c : PointCommand} (hposition : c.position ≠ .undefined)
    (hletter : ∀ letter ∈ c.subPoint, letter.isLower = true) :
    ReadsAs c.symbols (.point { c with lockOffset := none, addresses := [] }) := by
  have hmark : (if c.onRoute then [] else ['x']) = ([] : List Char) ∨
      (if c.onRoute then [] else ['x']) = ['x'] ∨ (if c.onRoute then [] else ['x']) = ['X'] := by
    cases c.onRoute
    · exact .inr (.inl rfl)
    · exact .inl rfl
  have halpha : ∀ letter ∈ c.subPoint, letter.isAlpha = true := fun letter hmem ↦
    isAlpha_of_isLower (hletter letter hmem)
  have hread := ReadsAs.point hmark (isRun_digits c.number.toNat) halpha (signs_mark hposition)
  have honRoute : (if c.onRoute then [] else ['x']).isEmpty = c.onRoute := by
    cases c.onRoute <;> rfl
  have hlower : c.subPoint.map Char.toLower = c.subPoint := by
    cases hsub : c.subPoint with
    | none => rfl
    | some letter => rw [Option.map_some, toLower_of_isLower (hletter letter hsub)]
  rwa [numeral_digits, honRoute, hlower] at hread

end PointCommand

/-! ### Numbers of signals -/

namespace RouteCommand

variable {signals : List UInt32} {last : Char} {state : RouteState}

/-- The signals of a chain, each in its digits. -/
theorem isRun_of_mem_map {field : List Char}
    (h : field ∈ signals.map fun n ↦ digits n.toNat) : IsRun field := by
  obtain ⟨n, -, rfl⟩ := List.mem_map.1 h
  exact isRun_digits n.toNat

theorem map_numeral_map_digits (signals : List UInt32) :
    (signals.map fun n ↦ digits n.toNat).map numeral = signals := by
  rw [List.map_map]
  exact List.map_id'' numeral_digits signals

/-- **The numbers of signals** are read as a route along them. -/
theorem readsAs_chainSymbols (hne : signals ≠ []) (hlast : Asks last state) :
    ∃ route : RouteCommand, ReadsAs (chainSymbols '.' signals ++ [last]) (.route route) ∧
      route.signalChain = (if signals.length = 1 then 0 :: signals else signals) ∧
      route.state = state ∧ route.points = [] := by
  cases signals using List.reverseRecOn with
  | nil => exact absurd rfl hne
  | append_singleton front destination =>
    cases front with
    | nil =>
      refine ⟨.plain 0 destination state, ?_, rfl, rfl, rfl⟩
      have hread := ReadsAs.destination (isRun_digits destination.toNat) hlast
      rw [numeral_digits] at hread
      rwa [List.nil_append, chainSymbols, List.map_singleton, List.intercalate_singleton]
    | cons start via =>
      refine ⟨{ start, destination, state, points := [], via }, ?_, ?_, rfl, rfl⟩
      · have hfields : (start :: via ++ [destination]).map (fun n ↦ digits n.toNat) =
            digits start.toNat :: via.map (fun n ↦ digits n.toNat) ++ [digits destination.toNat] :=
          List.map_append
        have hruns (field : List Char) (hfield : field ∈ digits start.toNat ::
            via.map (fun n ↦ digits n.toNat) ++ [digits destination.toNat]) : IsRun field :=
          isRun_of_mem_map (hfields ▸ hfield)
        have hread := ReadsAs.chain (fun field hfield ↦ (hruns field hfield).isDigit)
          ⟨_, List.mem_cons_self, digits_ne_nil _⟩ hlast
        rw [map_numeral_map_digits, numeral_digits, numeral_digits] at hread
        rwa [chainSymbols, hfields]
      · exact (if_neg (by simp)).symm

end RouteCommand

/-! ### What is typed -/

theorem isTerminator_of_signs {c : Char} {position : Position} (h : Signs c position) :
    isTerminator c = true := by
  cases h <;> rfl

theorem isTerminator_of_asks {c : Char} {state : RouteState} (h : Asks c state) :
    isTerminator c = true := by
  cases h <;> rfl

namespace Interpreter

/-- **An entry of letters, digits and dots** with a terminator behind them gives what it is read as,
and the console is then as it was before. -/
theorem pressAll_of_readsAs {typed : List Char} {last : Char} {command : Command} (hne : typed ≠ [])
    (htyped : ∀ c ∈ typed, c.isAlphanum = true ∨ c = '.') (hlast : isTerminator last = true)
    (hlength : (typed ++ [last]).length ≤ 32) (hreads : ReadsAs (typed ++ [last]) command) :
    (ofGrammar .standard).pressAll (typed ++ [last]) = (ofGrammar .standard, [command]) := by
  have haccepts : ∀ c ∈ typed, Grammar.standard.accepts c = true := by
    intro c hc
    rw [Grammar.accepts, Bool.or_eq_true, Bool.or_eq_true, decide_eq_true_eq]
    exact .inl (htyped c hc)
  have hcontinues : ∀ c ∈ typed, isTerminator c = false := by
    intro c hc
    rcases htyped c hc with h | rfl
    · exact isTerminator_of_isAlphanum h
    · rfl
  have hunfinished : Unfinished typed :=
    .of_forall hcontinues fun hclear ↦ absurd (htyped clearKey hclear) (by decide)
  have hsize : Text.size (typed ++ [last]) = (typed ++ [last]).length := by
    refine size_eq_length fun c hc ↦ ?_
    rcases List.mem_append.1 hc with hc | hc
    · exact haccepts c hc
    · rw [List.mem_singleton.1 hc]
      exact accepts_of_isTerminator hlast
  exact pressAll_of_classify haccepts hunfinished hlast (hsize ▸ hlength)
    ((Grammar.classify_eq_complete_iff hne hlast).2 hreads)

/-- **The text of a point** gives the command back. -/
theorem pressAll_symbols {c : PointCommand} (hposition : c.position ≠ .undefined)
    (hletter : ∀ letter ∈ c.subPoint, letter.isLower = true) :
    (ofGrammar .standard).pressAll c.symbols =
      (ofGrammar .standard, [.point { c with lockOffset := none, addresses := [] }]) := by
  have hreads := PointCommand.readsAs_symbols hposition hletter
  have hlength := Nat.le_trans c.length_symbols_le (by decide : 13 ≤ 32)
  rw [PointCommand.symbols] at hreads hlength ⊢
  refine pressAll_of_readsAs (by simp [digits_ne_nil]) (fun key hkey ↦ .inl ?_)
    (isTerminator_of_signs (PointCommand.signs_mark hposition)) hlength hreads
  rw [List.mem_append, List.mem_append, Option.mem_toList] at hkey
  rcases hkey with (hkey | hkey) | hkey
  · cases honRoute : c.onRoute with
    | true => simp [honRoute] at hkey
    | false =>
      rw [honRoute, if_neg Bool.false_ne_true, List.mem_singleton] at hkey
      exact hkey ▸ rfl
  · exact isAlphanum_of_isDigit ((isRun_digits c.number.toNat).isDigit key hkey)
  · rw [Char.isAlphanum, PointCommand.isAlpha_of_isLower (hletter key hkey), Bool.true_or]

/-- **The numbers of signals** with the key for a state give the route along them. -/
theorem pressAll_chainSymbols {signals : List UInt32} {last : Char} {state : RouteState}
    (hne : signals ≠ []) (hlast : Asks last state)
    (hlength : (RouteCommand.chainSymbols '.' signals ++ [last]).length ≤ 32) :
    ∃ route : RouteCommand,
      (ofGrammar .standard).pressAll (RouteCommand.chainSymbols '.' signals ++ [last]) =
        (ofGrammar .standard, [.route route]) ∧
      route.signalChain = (if signals.length = 1 then 0 :: signals else signals) ∧
      route.state = state ∧ route.points = [] := by
  obtain ⟨route, hreads, hroute⟩ := RouteCommand.readsAs_chainSymbols hne hlast
  have hmem {c : Char} (hc : c ≠ '.') : c ∈ RouteCommand.chainSymbols '.' signals ↔
      ∃ field ∈ signals.map fun n ↦ digits n.toNat, c ∈ field :=
    Grammar.mem_intercalate_iff hc
  refine ⟨route, pressAll_of_readsAs (fun hnil ↦ ?_) (fun c hc ↦ ?_) (isTerminator_of_asks hlast)
    hlength hreads, hroute⟩
  · -- the first signal has a digit, which is no divider
    obtain ⟨first, rest, rfl⟩ := List.exists_cons_of_ne_nil hne
    obtain ⟨c, hc⟩ := List.exists_mem_of_ne_nil _ (digits_ne_nil first.toNat)
    have hdot : c ≠ '.' := fun h ↦ by cases h ▸ (isRun_digits first.toNat).isDigit c hc
    exact List.not_mem_nil (hnil ▸ (hmem hdot).2 ⟨_, List.mem_cons_self, hc⟩)
  · by_cases hdot : c = '.'
    · exact .inr hdot
    · obtain ⟨field, hfield, hc⟩ := (hmem hdot).1 hc
      exact .inl (isAlphanum_of_isDigit
        ((RouteCommand.isRun_of_mem_map hfield).isDigit c hc))

/-- **A command that is typed as it is shown** is given back, at a console on which nothing has been
typed, and nothing is left there. The text of a command to a point is typed as it stands, and a
route as the numbers of its signals with the key for its state; a single signal is the destination
of a route from anywhere. -/
theorem pressAll_text :
    (∀ c : PointCommand, c.position ≠ .undefined →
      (∀ letter ∈ c.subPoint, letter.isLower = true) →
      (ofGrammar .standard).pressAll c.text.toList =
        (ofGrammar .standard, [.point { c with lockOffset := none, addresses := [] }])) ∧
    ∀ (signals : List UInt32) (last : Char) (state : RouteState), signals ≠ [] →
      Asks last state → (RouteCommand.chainSymbols '.' signals ++ [last]).length ≤ 32 →
      ∃ route : RouteCommand,
        (ofGrammar .standard).pressAll (RouteCommand.chainSymbols '.' signals ++ [last]) =
          (ofGrammar .standard, [.route route]) ∧
        route.signalChain = (if signals.length = 1 then 0 :: signals else signals) ∧
        route.state = state ∧ route.points = [] := by
  constructor
  · intro c hposition hletter
    rw [PointCommand.text, String.toList_ofList]
    exact pressAll_symbols hposition hletter
  · intro signals last state hne hlast hlength
    exact pressAll_chainSymbols hne hlast hlength

/-- The texts `x27a-` and `64.70#`. -/
theorem pressAll_text_x27a :
    (ofGrammar .standard).pressAll ['x', '2', '7', 'a', '-'] =
        (ofGrammar .standard, [.point
          { PointCommand.flank 27 .diverging with subPoint := some 'a' }]) ∧
      ∃ route : RouteCommand,
        (ofGrammar .standard).pressAll ['6', '4', '.', '7', '0', '#'] =
          (ofGrammar .standard, [.route route]) ∧ route.signalChain = [64, 70] ∧
        route.state = .setMain ∧ route.points = [] := by
  have htext : ({ PointCommand.flank 27 .diverging with subPoint := some 'a' }).text.toList =
      ['x', '2', '7', 'a', '-'] := by decide +kernel
  have hchain :
      RouteCommand.chainSymbols '.' [64, 70] ++ ['#'] = ['6', '4', '.', '7', '0', '#'] := by
    decide +kernel
  have hlower : ∀ letter ∈ some 'a', letter.isLower = true := by
    intro letter hletter
    cases Option.some.inj hletter
    decide
  have hpoint := pressAll_text.1 { PointCommand.flank 27 .diverging with subPoint := some 'a' }
    (by decide) hlower
  have hroute := pressAll_text.2 [64, 70] '#' .setMain (by decide) .setMain
    (by rw [hchain]; decide)
  rw [htext] at hpoint
  rw [hchain] at hroute
  exact ⟨hpoint, hroute⟩

end Interpreter

end SignalBox
