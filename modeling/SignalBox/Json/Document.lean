import SignalBox.Json

/-!
# Documents

A type whose values can be written as JSON and read back is a `Document`. The basic ones are
numbers of fixed width, which read whole numbers within their range only, text, single characters,
options (where `null` is nothing), lists and pairs.

A record is written as an object. It is read from an object, in which unknown names are ignored and
no known name may come twice, or from a list of its fields in order. The readers of fields say what
a missing field means.

A word with or without something attached is a variant: a string, or an object with one member.
-/

namespace SignalBox

/-- A type whose values are written as JSON and read back. -/
class Document (α : Type) where
  /-- The JSON form of a value. -/
  write : α → Json
  /-- The value of a JSON form. -/
  read? : Json → Option α

namespace Document

instance : Document Bool where
  write := .bool
  read?
    | .bool b => some b
    | _ => none

instance : Document String where
  write := .string
  read?
    | .string s => some s
    | _ => none

instance : Document Char where
  write c := .string (String.singleton c)
  read?
    | .string s =>
      match s.toList with
      | [c] => some c
      | _ => none
    | _ => none

/-- Reads a whole number between bounds. -/
def readBetween? (low high : Int) : Json → Option Int
  | .int n => if low ≤ n ∧ n ≤ high then some n else none
  | _ => none

instance : Document UInt16 where
  write n := .int n.toNat
  read? j := (readBetween? 0 65535 j).map fun n ↦ UInt16.ofNat n.toNat

instance : Document UInt32 where
  write n := .int n.toNat
  read? j := (readBetween? 0 4294967295 j).map fun n ↦ UInt32.ofNat n.toNat

instance : Document UInt64 where
  write n := .int n.toNat
  read? j := (readBetween? 0 18446744073709551615 j).map fun n ↦ UInt64.ofNat n.toNat

instance : Document Int32 where
  write n := .int n.toInt
  read? j := (readBetween? (-2147483648) 2147483647 j).map Int32.ofInt

instance {α : Type} [Document α] : Document (Option α) where
  write
    | some a => write a
    | none => .null
  read?
    | .null => some none
    | j => (read? j).map some

instance {α : Type} [Document α] : Document (List α) where
  write as := .array (as.map write)
  read?
    | .array items => items.mapM read?
    | _ => none

instance {α β : Type} [Document α] [Document β] : Document (α × β) where
  write p := .array [write p.1, write p.2]
  read?
    | .array [a, b] => do return (← read? a, ← read? b)
    | _ => none

end Document

/-! ### Records -/

/-- The fields of a record that were found. -/
structure Record where
  /-- The fields by name. -/
  fields : List (String × Json)
  /-- Whether the record was written as a list. -/
  positional : Bool

namespace Record

/-- Finds the fields of a record with the given names, in their order. -/
def ofJson? (names : List String) : Json → Option Record
  | .object members =>
    let known := members.filter fun m ↦ names.contains m.1
    if (known.map Prod.fst).Nodup then some ⟨known, false⟩ else none
  | .array items =>
    if items.length ≤ names.length then some ⟨names.zip items, true⟩ else none
  | _ => none

/-- A field that was found. -/
def field? (r : Record) (name : String) : Option Json :=
  r.fields.lookup name

variable {α : Type} [Document α]

/-- Reads a field that must be there. -/
def required? (r : Record) (name : String) : Option α :=
  (r.field? name).bind Document.read?

/-- Reads a field that has a value of its own when it is missing. -/
def orElse? (r : Record) (name : String) (missing : α) : Option α :=
  match r.field? name with
  | some j => Document.read? j
  | none => some missing

/-- Reads a field that may be missing from an object, but not from a list. -/
def optional? (r : Record) (name : String) : Option (Option α) :=
  match r.field? name with
  | some j => Document.read? j
  | none => if r.positional then none else some none

end Record

/-! ### Variants -/

/-- A word with or without something attached. -/
structure Variant where
  /-- The word. -/
  word : String
  /-- What is attached to it. -/
  payload : Option Json

namespace Variant

/-- Reads a variant. -/
def ofJson? : Json → Option Variant
  | .string word => some ⟨word, none⟩
  | .object [(word, payload)] => some ⟨word, some payload⟩
  | _ => none

/-- Whether nothing is attached; `null` counts as nothing. -/
def isBare (v : Variant) : Bool :=
  match v.payload with
  | none => true
  | some .null => true
  | some _ => false

/-- Reads a variant with nothing attached by its word. -/
def bareWord? (j : Json) : Option String :=
  (ofJson? j).bind fun v ↦ if v.isBare then some v.word else none

/-- A word with something attached. -/
def write (word : String) (payload : Json) : Json :=
  .object [(word, payload)]

end Variant

end SignalBox
