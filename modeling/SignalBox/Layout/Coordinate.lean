import SignalBox.Text.Blank
import SignalBox.Text.Decimal
import SignalBox.Text.Quoted

/-!
# Grid coordinates

A node of the yard diagram sits at a row and a column. Coordinates are ordered by column, then by
row, and written as `row.column`. Reading ignores blank space around the text.
-/

namespace SignalBox

/-- A place in the yard diagram. -/
structure Coordinate where
  /-- The row. -/
  row : Int32
  /-- The column. -/
  column : Int32
  deriving DecidableEq

namespace Coordinate

/-- The order of coordinates: by column, then by row. -/
instance : Ord Coordinate :=
  ⟨compareLex (compareOn Coordinate.column) (compareOn Coordinate.row)⟩

instance : Std.TransOrd Coordinate :=
  inferInstanceAs
    (Std.TransCmp (compareLex (compareOn Coordinate.column) (compareOn Coordinate.row)))

instance : Std.LawfulEqOrd Coordinate where
  eq_of_compare {a b} h := by
    have h : compareLex (compareOn Coordinate.column) (compareOn Coordinate.row) a b = .eq := h
    rw [compareLex, Ordering.then_eq_eq] at h
    cases a; cases b
    simp only [mk.injEq]
    exact ⟨Std.LawfulEqOrd.eq_of_compare h.2, Std.LawfulEqOrd.eq_of_compare h.1⟩

/-- The characters of a coordinate's text. -/
def symbols (c : Coordinate) : List Char :=
  Decimal.integerDigits c.row.toInt ++ '.' :: Decimal.integerDigits c.column.toInt

/-- The text of a coordinate. -/
def text (c : Coordinate) : String :=
  String.ofList c.symbols

/-- Splits characters at the first dot. -/
def splitAtDot : List Char → Option (List Char × List Char)
  | [] => none
  | '.' :: cs => some ([], cs)
  | c :: cs => (splitAtDot cs).map fun p ↦ (c :: p.1, p.2)

/-- Reads a coordinate. -/
def ofText? (cs : List Char) : Option Coordinate := do
  let (row, column) ← splitAtDot (Blank.trim cs)
  return { row := ← Decimal.int32? row, column := ← Decimal.int32? column }

/-- The message for characters that are not a coordinate. -/
def errorMessage (cs : List Char) : String :=
  "invalid grid coordinate " ++ String.ofList (Quoted.quote cs) ++ ", expected \"row.column\""

end Coordinate

end SignalBox
