import SignalBox.Console.Interpreter

/-!
# What one key does

The console takes a key in one of six ways (`Interpreter.Takes`), and each comes with what makes it
happen. All that is known of sequences of keys is read off these cases and the equations beside
them; nothing else looks into `press`.
-/

namespace SignalBox.Interpreter

/-- A key belongs to the grammar but does not fit into the entry. -/
structure Drops (i : Interpreter) (key : Char) : Prop where
  ne_clearKey : key ≠ clearKey
  accepts : i.grammar.accepts key = true
  noRoom : maxEntry < Text.size i.entry + key.utf8Size

/-- A key belongs to the grammar and fits into the entry. -/
structure Fits (i : Interpreter) (key : Char) : Prop where
  ne_clearKey : key ≠ clearKey
  accepts : i.grammar.accepts key = true
  room : Text.size i.entry + key.utf8Size ≤ maxEntry

/-- What a key does to a console, and the command that it gives. -/
inductive Takes (i : Interpreter) (key : Char) : Interpreter → Option Command → Prop
  /-- The key discards the entry. -/
  | cleared (hkey : key = clearKey) : Takes i key i.clear none
  /-- The key does not belong to the grammar. -/
  | ignored (hkey : key ≠ clearKey) (haccepts : i.grammar.accepts key = false) :
      Takes i key i none
  /-- There is no room for the key. -/
  | dropped (hdrops : i.Drops key) (hend : isTerminator key = false) : Takes i key i none
  /-- There is no room for the key that would end the entry. -/
  | discarded (hdrops : i.Drops key) (hend : isTerminator key = true) : Takes i key i.clear none
  /-- The entry waits for more keys. -/
  | kept (hfits : i.Fits key) (hwaits : i.grammar.classify (i.entry ++ [key]) = .waiting) :
      Takes i key { i with entry := i.entry ++ [key] } none
  /-- The entry is complete. -/
  | completed {command : Option Command} (hfits : i.Fits key)
      (hcomplete : i.grammar.classify (i.entry ++ [key]) = .complete command) :
      Takes i key i.clear command

variable {i j : Interpreter} {keys more : List Char} {key : Char} {command : Option Command}

theorem press_clearKey : i.press clearKey = (i.clear, none) :=
  if_pos rfl

theorem press_of_not_accepts (hclear : key ≠ clearKey) (h : i.grammar.accepts key = false) :
    i.press key = (i, none) := by
  rw [press, if_neg hclear, h]
  rfl

theorem press_of_drops (h : i.Drops key) :
    i.press key = (if isTerminator key then i.clear else i, none) := by
  rw [press, if_neg h.ne_clearKey, h.accepts, if_neg (by simp), if_pos h.noRoom]

theorem press_of_waiting (h : i.Fits key)
    (hwaits : i.grammar.classify (i.entry ++ [key]) = .waiting) :
    i.press key = ({ i with entry := i.entry ++ [key] }, none) := by
  rw [press, if_neg h.ne_clearKey, h.accepts, if_neg (by simp), if_neg (Nat.not_lt.2 h.room)]
  dsimp only
  rw [hwaits]

theorem press_of_complete (h : i.Fits key)
    (hcomplete : i.grammar.classify (i.entry ++ [key]) = .complete command) :
    i.press key = (i.clear, command) := by
  rw [press, if_neg h.ne_clearKey, h.accepts, if_neg (by simp), if_neg (Nat.not_lt.2 h.room)]
  dsimp only
  rw [hcomplete]

/-- A key of the grammar fits into the entry or it does not. -/
theorem drops_or_fits (i : Interpreter) (hclear : key ≠ clearKey)
    (h : i.grammar.accepts key = true) :
    i.Drops key ∨ i.Fits key :=
  (Nat.lt_or_ge maxEntry (Text.size i.entry + key.utf8Size)).imp (.mk hclear h) (.mk hclear h)

/-- **Each key** does one of these things. -/
theorem takes_press (i : Interpreter) (key : Char) :
    i.Takes key (i.press key).1 (i.press key).2 := by
  by_cases hclear : key = clearKey
  · rw [hclear, press_clearKey]
    exact .cleared rfl
  cases haccepts : i.grammar.accepts key with
  | false =>
    rw [press_of_not_accepts hclear haccepts]
    exact .ignored hclear haccepts
  | true =>
    rcases drops_or_fits i hclear haccepts with hdrops | hfits
    · rw [press_of_drops hdrops]
      cases hend : isTerminator key with
      | false => exact .dropped hdrops hend
      | true => exact .discarded hdrops hend
    · cases hverdict : i.grammar.classify (i.entry ++ [key]) with
      | waiting =>
        rw [press_of_waiting hfits hverdict]
        exact .kept hfits hverdict
      | complete command =>
        rw [press_of_complete hfits hverdict]
        exact .completed hfits hverdict

theorem Takes.grammar_eq (h : i.Takes key j command) : j.grammar = i.grammar := by
  cases h <;> rfl

theorem grammar_press (i : Interpreter) (key : Char) : (i.press key).1.grammar = i.grammar :=
  (takes_press i key).grammar_eq

theorem accepts_of_isTerminator {g : Grammar} (h : isTerminator key = true) :
    g.accepts key = true := by
  rw [Grammar.accepts, h, Bool.or_true]

/-! ### Several keys -/

theorem pressAll_cons : i.pressAll (key :: keys) =
    (((i.press key).1.pressAll keys).1,
      (i.press key).2.toList ++ ((i.press key).1.pressAll keys).2) := rfl

theorem pressAll_append : i.pressAll (keys ++ more) =
    ((i.pressAll keys).1.pressAll more |>.1,
      (i.pressAll keys).2 ++ ((i.pressAll keys).1.pressAll more).2) := by
  induction keys generalizing i with
  | nil => rfl
  | cons key keys ih =>
    rw [List.cons_append, pressAll_cons, pressAll_cons, ih, List.append_assoc]

theorem pressAll_concat (i : Interpreter) (keys : List Char) (key : Char) :
    (i.pressAll (keys ++ [key])).1 = ((i.pressAll keys).1.press key).1 := by
  rw [pressAll_append]
  rfl

theorem grammar_pressAll (i : Interpreter) (keys : List Char) :
    (i.pressAll keys).1.grammar = i.grammar := by
  induction keys generalizing i with
  | nil => rfl
  | cons key keys ih => exact (ih (i.press key).1).trans (i.grammar_press key)

end SignalBox.Interpreter
