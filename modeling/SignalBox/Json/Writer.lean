import SignalBox.Json
import SignalBox.Text.Decimal

/-!
# Writing JSON

The shortest form of a value: no blanks, and inside strings only quotes, backslashes and control
characters are escaped.
-/

namespace SignalBox.Json.Writer

/-- The characters that a character takes inside a string. -/
def escape (c : Char) : List Char :=
  if c = '"' then ['\\', '"']
  else if c = '\\' then ['\\', '\\']
  else if c.toNat < 0x20 then
    ['\\', 'u', '0', '0', Nat.digitChar (c.toNat / 16), Nat.digitChar (c.toNat % 16)]
  else [c]

/-- The characters of a string with its quotes. -/
def quote (s : String) : List Char :=
  '"' :: s.toList.flatMap escape ++ ['"']

mutual

/-- The characters of a value. What is unreadable has no form and is written as `null`. -/
def value : Json → List Char
  | .null => "null".toList
  | .bool true => "true".toList
  | .bool false => "false".toList
  | .int n => Decimal.integerDigits n
  | .real m e => Decimal.integerDigits m ++ 'e' :: Decimal.integerDigits e
  | .string s => quote s
  | .array items => '[' :: itemList items ++ [']']
  | .object members => '\x7b' :: memberList members ++ ['\x7d']
  | .unreadable => "null".toList

/-- The characters of the items of a list. -/
def itemList : List Json → List Char
  | [] => []
  | [item] => value item
  | item :: items => value item ++ ',' :: itemList items

/-- The characters of the members of an object. -/
def memberList : List (String × Json) → List Char
  | [] => []
  | [(name, item)] => quote name ++ ':' :: value item
  | (name, item) :: members => quote name ++ ':' :: value item ++ ',' :: memberList members

end

end Writer

/-- The text of a value. -/
def render (j : Json) : String :=
  String.ofList (Writer.value j)

end SignalBox.Json
