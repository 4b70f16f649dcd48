import SignalBox.Json.DoublePrecision

/-!
# JSON values

The values of JSON documents. Whole numbers are kept apart from other numbers, since all numbers of
the yard are whole: `1.0`, `1e2` and `-0` are written as reals and are no whole numbers, and neither
is what does not fit into 64 bits. Members of an object keep their order and may repeat a name.

A document may hold strings that spell no text, because an escape names half of a surrogate pair.
Such a string is `unreadable`, and so is an object one of whose names is such a string. This does
no harm where the value is not looked at.
-/

namespace SignalBox

/-- A JSON value; a real is a mantissa times a power of ten. -/
inductive Json
  | null
  | bool (b : Bool)
  | int (n : Int)
  | real (mantissa exponent : Int)
  | string (s : String)
  | array (items : List Json)
  | object (members : List (String × Json))
  | unreadable

namespace Json

/-- Whether a value can be kept as a whole: all of it is readable, numbers are within range, and
lists and objects nest at most `depth` deep. -/
def isHoldable : Nat → Json → Bool
  | _, null => true
  | _, bool _ => true
  | _, int _ => true
  | _, real m e => DoublePrecision.isFinite m.natAbs e
  | _, string _ => true
  | 0, array _ => false
  | depth + 1, array items => items.all (isHoldable depth)
  | 0, object _ => false
  | depth + 1, object members => members.all fun m ↦ isHoldable depth m.2
  | _, unreadable => false

/-- The value with every empty object replaced by `null`, down to the given depth. -/
def nullForEmpty : Nat → Json → Json
  | _, object [] => null
  | depth + 1, array items => array (items.map (nullForEmpty depth))
  | depth + 1, object members => object (members.map fun m ↦ (m.1, nullForEmpty depth m.2))
  | _, j => j

end Json

end SignalBox
