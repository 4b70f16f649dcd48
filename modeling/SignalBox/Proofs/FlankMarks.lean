import SignalBox.Proofs.EntryStates

/-!
# The mark of flank protection

The mark in front of a point that only protects a flank can be chosen like the divider of signals.
The main statement (`marks_iff`) says what becomes of an entry with the chosen mark in front: it
gives one command to the point that it names, which protects a flank exactly if the mark is an ASCII
letter.

* **A letter** belongs to every grammar, and is recognised in front of the digits
  (`marks_of_isAlpha`).
* **Any other mark** does not belong to the grammar: its key has no effect, and what is left is an
  entry without a mark, which moves a point on the route (`marks_of_not_isAlpha`).
-/

namespace SignalBox

open Decimal

namespace Interpreter

/-- **Letters and digits with a sign** behind them give the command to a point that they are read
as, and the console is then as it was before. -/
theorem pressAll_of_isAlphanum {g : Grammar} {body : List Char} {sign : Char} (hne : body ≠ [])
    (hbody : ∀ c ∈ body, c.isAlphanum = true) (hsign : sign = '+' ∨ sign = '-')
    (hroom : Text.size (body ++ [sign]) ≤ maxEntry) :
    (ofGrammar g).pressAll (body ++ [sign]) =
      (ofGrammar g, ((g.point? sign body).map Command.point).toList) := by
  have hlast : isTerminator sign = true := isTerminator_iff.2 (by tauto)
  have hcontinues : ∀ c ∈ body, isTerminator c = false := fun c hc ↦
    isTerminator_of_isAlphanum (hbody c hc)
  have haccepts : ∀ c ∈ body, g.accepts c = true := fun c hc ↦ by
    rw [Grammar.accepts, hbody c hc, Bool.true_or, Bool.true_or]
  have hunfinished : Unfinished body :=
    .of_forall hcontinues fun hclear ↦ absurd (hbody clearKey hclear) (by decide)
  refine pressAll_of_classify haccepts hunfinished hlast hroom ?_
  rw [Grammar.classify_of_forall hne hcontinues hlast, if_pos hsign]

end Interpreter

namespace ConsoleConfig

variable {c : ConsoleConfig} {flank : Bool}

/-- A mark that is not taken for another part of an entry. -/
structure MarkDistinct (c : ConsoleConfig) : Prop where
  isDigit : c.offRoutePrefix.isDigit = false
  isTerminator : SignalBox.isTerminator c.offRoutePrefix = false
  ne_clearKey : c.offRoutePrefix ≠ clearKey
  ne_divider : c.offRoutePrefix ≠ c.divider

/-- Each entry of the mark, a number, perhaps a letter, and a sign gives one command, to the point
that it names, and `flank` is whether this point protects a flank. -/
def Marks (c : ConsoleConfig) (flank : Bool) : Prop :=
  ∀ (digits : List Char) (letter : Option Char) (sign : Char) (position : Position),
    IsRun digits → (∀ l ∈ letter, l.isAlpha = true) → Signs sign position →
    Text.size (c.offRoutePrefix :: digits ++ letter.toList ++ [sign]) ≤ 32 →
      (Interpreter.ofGrammar (.ofConfig c)).pressAll
          (c.offRoutePrefix :: digits ++ letter.toList ++ [sign]) =
        (Interpreter.ofGrammar (.ofConfig c), [.point
          { number := numeral digits, subPoint := letter.map Char.toLower, position
            lockOffset := none, onRoute := !flank, addresses := [] }])

theorem isAlphanum_of_mem_numbered {digits : List Char} {letter : Option Char}
    (hdigits : IsRun digits) (hletter : ∀ l ∈ letter, l.isAlpha = true) :
    ∀ l ∈ digits ++ letter.toList, l.isAlphanum = true := by
  intro l hl
  rw [List.mem_append, Option.mem_toList] at hl
  rcases hl with hl | hl
  · exact isAlphanum_of_isDigit (hdigits.isDigit l hl)
  · rw [Char.isAlphanum, hletter l hl, Bool.true_or]

/-- **A letter** is a key of the grammar, and marks what stands behind it. -/
theorem marks_of_isAlpha (halpha : c.offRoutePrefix.isAlpha = true) : c.Marks true := by
  intro digits letter sign position hdigits hletter hsign hsize
  obtain ⟨hends, rfl⟩ := signs_iff.1 hsign
  have hmarked : ∀ l ∈ c.offRoutePrefix :: digits ++ letter.toList, l.isAlphanum = true := by
    intro l hl
    rcases List.mem_cons.1 hl with rfl | hl
    · rw [Char.isAlphanum, halpha, Bool.true_or]
    · exact isAlphanum_of_mem_numbered hdigits hletter l hl
  have hne : c.offRoutePrefix :: digits ++ letter.toList ≠ [] := List.cons_ne_nil _ _
  rw [Interpreter.pressAll_of_isAlphanum hne hmarked hends hsize,
    Grammar.point?_of_mark rfl hdigits hletter]
  rfl

/-- **Any other mark** is no key of the grammar, and what stands behind it is not marked. -/
theorem marks_of_not_isAlpha (hc : c.MarkDistinct) (halpha : c.offRoutePrefix.isAlpha = false) :
    c.Marks false := by
  intro digits letter sign position hdigits hletter hsign hsize
  obtain ⟨hends, rfl⟩ := signs_iff.1 hsign
  have haccepts : (Grammar.ofConfig c).accepts c.offRoutePrefix = false := by
    rw [Grammar.accepts, Char.isAlphanum, halpha, hc.isDigit, hc.isTerminator,
      show (Grammar.ofConfig c).divider = c.divider from rfl, decide_eq_false hc.ne_divider]
    rfl
  have hmark : (Grammar.ofConfig c).offRoutePrefix.isDigit = false :=
    (isDigit_toLower c.offRoutePrefix).trans hc.isDigit
  have hne : digits ++ letter.toList ≠ [] := by simp [hdigits.ne_nil]
  have hroom : Text.size (digits ++ letter.toList ++ [sign]) ≤ Interpreter.maxEntry :=
    Nat.le_trans (Nat.le_add_left _ _) hsize
  rw [List.cons_append, List.cons_append, Interpreter.pressAll_cons,
    Interpreter.press_of_not_accepts hc.ne_clearKey haccepts,
    Interpreter.pressAll_of_isAlphanum hne (isAlphanum_of_mem_numbered hdigits hletter) hends hroom,
    Grammar.point?_of_unmarked hmark hdigits hletter]
  rfl

theorem marks_isAlpha (hc : c.MarkDistinct) : c.Marks c.offRoutePrefix.isAlpha := by
  cases halpha : c.offRoutePrefix.isAlpha with
  | true => exact marks_of_isAlpha halpha
  | false => exact marks_of_not_isAlpha hc halpha

/-- **The mark of flank protection** marks the points that protect a flank if and only if it is an
ASCII letter. If it is not, the points behind it are moved as points on the route. -/
theorem marks_iff (hc : c.MarkDistinct) : c.Marks flank ↔ flank = c.offRoutePrefix.isAlpha := by
  refine ⟨fun hflank ↦ ?_, fun h ↦ h ▸ marks_isAlpha hc⟩
  have hdigits : IsRun ['1'] := ⟨List.cons_ne_nil _ _, by simp⟩
  have hsize :
      Text.size (c.offRoutePrefix :: ['1'] ++ (none : Option Char).toList ++ ['+']) ≤ 32 := by
    have hwidth := c.offRoutePrefix.utf8Size_le_four
    show c.offRoutePrefix.utf8Size + 2 ≤ 32
    omega
  have hgiven := hflank ['1'] none '+' .straight hdigits nofun .straight hsize
  rw [marks_isAlpha hc ['1'] none '+' .straight hdigits nofun .straight hsize] at hgiven
  simpa using hgiven.symm

/-- A console with a capital letter for the mark, and a comma between signals. -/
def letterMarked : ConsoleConfig := { divider := ',', offRoutePrefix := 'F' }

/-- A console with an exclamation mark for the mark. -/
def exclamationMarked : ConsoleConfig := { divider := '.', offRoutePrefix := '!' }

theorem markDistinct_exclamationMarked : exclamationMarked.MarkDistinct := by
  constructor <;> decide

/-- A letter marks the points that protect a flank, and an exclamation mark none. -/
theorem marks_iff_of_letterMarked :
    letterMarked.MarkDistinct ∧ exclamationMarked.MarkDistinct ∧ letterMarked.Marks true ∧
      exclamationMarked.Marks false ∧ ¬ exclamationMarked.Marks true := by
  have hletter : letterMarked.MarkDistinct := by constructor <;> decide
  refine ⟨hletter, markDistinct_exclamationMarked, (marks_iff hletter).2 (by decide),
    (marks_iff markDistinct_exclamationMarked).2 (by decide), fun hmarks ↦ ?_⟩
  exact absurd ((marks_iff markDistinct_exclamationMarked).1 hmarks) (by decide)

/-- With an exclamation mark in front, point 27 is moved as a point on the route. -/
theorem not_marks_of_exclamationMarked :
    exclamationMarked.MarkDistinct ∧
      ((Interpreter.ofGrammar (.ofConfig exclamationMarked)).pressAll ['!', '2', '7', '+']).2 =
        [.point (.plain 27 .straight)] ∧
      ¬ exclamationMarked.Marks true := by
  have hgives :
      ((Interpreter.ofGrammar (.ofConfig exclamationMarked)).pressAll ['!', '2', '7', '+']).2 =
        [.point (.plain 27 .straight)] := by
    decide +kernel
  refine ⟨markDistinct_exclamationMarked, hgives, fun hmarks ↦ ?_⟩
  have hdigits : IsRun ['2', '7'] := ⟨List.cons_ne_nil _ _, by simp⟩
  have hflank := hmarks ['2', '7'] none '+' .straight hdigits nofun .straight (by decide)
  exact absurd (hgives.symm.trans (congrArg Prod.snd hflank)) (by decide)

end ConsoleConfig

end SignalBox
