import SignalBox.Position
import SignalBox.Text.Decimal

/-!
# Commands to the turntable

The text of such a command is an optional sign, the digits of the track and an optional `#` at the
end. A minus sign turns the table the other way.
-/

namespace SignalBox

/-- A command to turn the turntable to a track. -/
structure TurntableCommand where
  /-- The number of the track. -/
  track : UInt32
  /-- The way to turn, sent like the position of a point. -/
  direction : Position
  deriving DecidableEq

namespace TurntableCommand

/-- The command for a track typed as digits. -/
def ofDigits? (direction : Position) (digits : List Char) : Option TurntableCommand :=
  if !digits.isEmpty && digits.all Char.isDigit then
    some { track := Decimal.word digits, direction }
  else none

/-- Reads a command's text without its end mark. -/
def ofBody? : List Char → Option TurntableCommand
  | '+' :: digits => ofDigits? .straight digits
  | '-' :: digits => ofDigits? .diverging digits
  | digits => ofDigits? .straight digits

/-- The text without one end mark. -/
def withoutMark (cs : List Char) : List Char :=
  if cs.getLast? = some '#' then cs.dropLast else cs

/-- Reads the text of a command. A track number that is out of range becomes 0. -/
def ofText? (cs : List Char) : Option TurntableCommand :=
  ofBody? (withoutMark cs)

end TurntableCommand

end SignalBox
