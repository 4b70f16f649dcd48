/-!
# Keys

A key press, and the character that it stands for in the console grammar.
-/

namespace SignalBox

/-- Which key was pressed. -/
inductive KeyCode
  | char (c : Char)
  | backspace
  | escape
  | enter
  | other (scanCode : UInt16)
  deriving DecidableEq

/-- The modifier keys held during a key press. -/
structure Modifiers where
  shift : Bool
  control : Bool
  alt : Bool
  deriving DecidableEq

/-- A key press. -/
structure KeyEvent where
  /-- The character that the key produced. -/
  ch : Char
  /-- The key. -/
  code : KeyCode
  /-- The modifier keys that were held. -/
  modifiers : Modifiers
  deriving DecidableEq

/-- The key that discards the entry. -/
def clearKey : Char := '<'

namespace KeyEvent

/-- A plain character key. -/
def plain (c : Char) : KeyEvent :=
  { ch := c, code := .char c, modifiers := ⟨false, false, false⟩ }

/-- A key that produces no character. -/
def special (code : KeyCode) : KeyEvent :=
  { ch := Char.ofNat 0, code, modifiers := ⟨false, false, false⟩ }

/-- The key press for a byte of a terminal's input: line ends are Enter, the two deleting controls
Backspace, the escape control Escape, and all other bytes stand for the character of that code. -/
def ofByte (b : UInt8) : KeyEvent :=
  if b = 0x0A ∨ b = 0x0D then special .enter
  else if b = 0x08 ∨ b = 0x7F then special .backspace
  else if b = 0x1B then special .escape
  else plain (Char.ofNat b.toNat)

/-- The character in the grammar. Chords with Control or Alt are shortcuts and have none; Backspace
and Escape discard the entry. -/
def grammarChar? (e : KeyEvent) : Option Char :=
  if e.modifiers.control || e.modifiers.alt then none
  else match e.code with
    | .char c => some c
    | .backspace | .escape => some clearKey
    | .enter | .other _ => none

end KeyEvent

end SignalBox
