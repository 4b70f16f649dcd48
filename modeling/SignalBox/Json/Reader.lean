import SignalBox.Json
import SignalBox.Text.Decimal

/-!
# Reading JSON

A strict reader: no comments, no trailing commas, no control characters inside strings, no leading
zeros, and nothing but blanks around the document. Each function takes the characters that are left
and gives a value with the rest. Lists and objects nest, so the readers of values share a bound on
the number of steps, which `Json.parse?` sets high enough for any document.
-/

namespace SignalBox.Json.Reader

/-- Drops the blanks that may stand between the parts of a document. -/
def skipBlanks (cs : List Char) : List Char :=
  cs.dropWhile fun c ↦ c = ' ' || c = '\t' || c = '\n' || c = '\r'

/-! ### Strings -/

/-- The value of a hexadecimal digit. -/
def hexValue? (c : Char) : Option Nat :=
  if c.isDigit then some (c.toNat - 48)
  else if 'a' ≤ c ∧ c ≤ 'f' then some (c.toNat - 87)
  else if 'A' ≤ c ∧ c ≤ 'F' then some (c.toNat - 55)
  else none

/-- The code that four hexadecimal digits spell. -/
def hexCode? (a b c d : Char) : Option Nat := do
  return 4096 * (← hexValue? a) + 256 * (← hexValue? b) + 16 * (← hexValue? c) + (← hexValue? d)

/-- The code of an escape of one letter. -/
def escapeCode? : Char → Option Nat
  | '"' => some 0x22
  | '\\' => some 0x5C
  | '/' => some 0x2F
  | 'b' => some 0x08
  | 'f' => some 0x0C
  | 'n' => some 0x0A
  | 'r' => some 0x0D
  | 't' => some 0x09
  | _ => none

/-- Reads a string after its opening quote as codes. Surrogates are codes of their own here; they
come from escapes only. -/
def stringCodes : List Char → Option (List Nat × List Char)
  | [] => none
  | '"' :: cs => some ([], cs)
  | '\\' :: 'u' :: a :: b :: c :: d :: cs => do
    let code ← hexCode? a b c d
    let (codes, rest) ← stringCodes cs
    return (code :: codes, rest)
  | '\\' :: e :: cs => do
    let code ← escapeCode? e
    let (codes, rest) ← stringCodes cs
    return (code :: codes, rest)
  | c :: cs =>
    if c.toNat < 0x20 then none
    else do
      let (codes, rest) ← stringCodes cs
      return (c.toNat :: codes, rest)

/-- Whether a code is the first half of a surrogate pair. -/
def isHighHalf (n : Nat) : Bool := 0xD800 ≤ n && n ≤ 0xDBFF

/-- Whether a code is the second half of a surrogate pair. -/
def isLowHalf (n : Nat) : Bool := 0xDC00 ≤ n && n ≤ 0xDFFF

/-- Joins surrogate pairs; none if a half stands alone. -/
def joinHalves : List Nat → Option (List Char)
  | [] => some []
  | [n] => if isHighHalf n || isLowHalf n then none else some [Char.ofNat n]
  | n :: m :: ns =>
    if isHighHalf n then
      if isLowHalf m then
        (joinHalves ns).map (Char.ofNat (0x10000 + (n - 0xD800) * 0x400 + (m - 0xDC00)) :: ·)
      else none
    else if isLowHalf n then none
    else (joinHalves (m :: ns)).map (Char.ofNat n :: ·)

/-- Reads a string after its opening quote; the text is missing if it cannot be read. -/
def string? (cs : List Char) : Option (Option String × List Char) :=
  (stringCodes cs).map fun r ↦ ((joinHalves r.1).map String.ofList, r.2)

/-! ### Numbers -/

/-- Reads the digits after a decimal point, if there is one. -/
def fraction? : List Char → Option (Option (List Char) × List Char)
  | '.' :: cs =>
    let digits := cs.takeWhile Char.isDigit
    if digits.isEmpty then none else some (some digits, cs.dropWhile Char.isDigit)
  | cs => some (none, cs)

/-- Reads the sign and the digits of an exponent. -/
def signedExponent? (negative : Bool) (cs : List Char) : Option (Int × List Char) :=
  let digits := cs.takeWhile Char.isDigit
  let value : Int := Decimal.value digits
  if digits.isEmpty then none
  else some (if negative then -value else value, cs.dropWhile Char.isDigit)

/-- Reads what follows the mark of an exponent. -/
def afterMark? : List Char → Option (Int × List Char)
  | '+' :: cs => signedExponent? false cs
  | '-' :: cs => signedExponent? true cs
  | cs => signedExponent? false cs

/-- Reads an exponent, if there is one. -/
def exponent? : List Char → Option (Option Int × List Char)
  | [] => some (none, [])
  | c :: cs =>
    if c = 'e' || c = 'E' then (afterMark? cs).map fun r ↦ (some r.1, r.2)
    else some (none, c :: cs)

/-- Extends a number by further digits as long as it fits into 64 bits; the other digits are left
over from the first that does not. -/
def extend (n : Nat) : List Char → Nat × List Char
  | [] => (n, [])
  | c :: cs =>
    let longer := 10 * n + Decimal.digitValue c
    if longer < UInt64.size then extend longer cs else (n, c :: cs)

/-- The real for digits before and after the point and a power of ten. Its mantissa is made of the
leading digits. Where these end before the point, the digits after the point are tried again. -/
def realOf (negative : Bool) (whole places : List Char) (exponent : Int) : Json :=
  let (head, leftOver) := extend 0 whole
  let (mantissa, dropped) := extend head places
  let shift : Int := leftOver.length - (places.length - dropped.length : Nat)
  .real (if negative then -mantissa else mantissa) (exponent + shift)

/-- Reads a number after its sign. -/
def magnitude? (negative : Bool) (cs : List Char) : Option (Json × List Char) := do
  let whole := cs.takeWhile Char.isDigit
  guard (!whole.isEmpty && (whole.length == 1 || whole.head? != some '0'))
  let (fraction, cs) ← fraction? (cs.dropWhile Char.isDigit)
  let (exponent, cs) ← exponent? cs
  let value : Int := Decimal.value whole
  if fraction.isNone && exponent.isNone && value < UInt64.size && !(negative && value == 0) then
    return (.int (if negative then -value else value), cs)
  else return (realOf negative whole (fraction.getD []) (exponent.getD 0), cs)

/-- Reads a number. -/
def number? : List Char → Option (Json × List Char)
  | '-' :: cs => magnitude? true cs
  | cs => magnitude? false cs

/-! ### Values -/

/-- The object with the given members; it is unreadable if one of the names is. -/
def objectOf (members : List (Option String × Json)) : Json :=
  match members.mapM fun m ↦ m.1.map fun name ↦ (name, m.2) with
  | some members => .object members
  | none => .unreadable

mutual

/-- Reads a value. -/
def value? : Nat → List Char → Option (Json × List Char)
  | 0, _ => none
  | steps + 1, cs =>
    match skipBlanks cs with
    | 'n' :: 'u' :: 'l' :: 'l' :: cs => some (.null, cs)
    | 't' :: 'r' :: 'u' :: 'e' :: cs => some (.bool true, cs)
    | 'f' :: 'a' :: 'l' :: 's' :: 'e' :: cs => some (.bool false, cs)
    | '"' :: cs => (string? cs).map fun r ↦ (r.1.elim .unreadable .string, r.2)
    | '[' :: cs =>
      match skipBlanks cs with
      | ']' :: cs => some (.array [], cs)
      | cs => (items? steps cs).map fun r ↦ (.array r.1, r.2)
    | '\x7b' :: cs =>
      match skipBlanks cs with
      | '\x7d' :: cs => some (.object [], cs)
      | cs => (members? steps cs).map fun r ↦ (objectOf r.1, r.2)
    | cs => number? cs

/-- Reads the items of a list, of which there is at least one, and its closing bracket. -/
def items? : Nat → List Char → Option (List Json × List Char)
  | 0, _ => none
  | steps + 1, cs => do
    let (item, cs) ← value? steps cs
    match skipBlanks cs with
    | ',' :: cs =>
      let (items, cs) ← items? steps cs
      return (item :: items, cs)
    | ']' :: cs => return ([item], cs)
    | _ => none

/-- Reads the members of an object, of which there is at least one, and its closing brace. -/
def members? : Nat → List Char → Option (List (Option String × Json) × List Char)
  | 0, _ => none
  | steps + 1, cs => do
    match skipBlanks cs with
    | '"' :: cs =>
      let (name, cs) ← string? cs
      match skipBlanks cs with
      | ':' :: cs =>
        let (value, cs) ← value? steps cs
        match skipBlanks cs with
        | ',' :: cs =>
          let (members, cs) ← members? steps cs
          return ((name, value) :: members, cs)
        | '\x7d' :: cs => return ([(name, value)], cs)
        | _ => none
      | _ => none
    | _ => none

end

end Reader

/-- Reads a document; none if it is not well-formed. -/
def parse? (text : String) : Option Json :=
  let cs := text.toList
  match Reader.value? (2 * cs.length + 2) cs with
  | some (value, rest) => if (Reader.skipBlanks rest).isEmpty then some value else none
  | none => none

end SignalBox.Json
