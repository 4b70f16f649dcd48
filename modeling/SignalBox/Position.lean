/-!
# Positions of points

The position that a command asks of a point. An accessory may be wired in reverse, which a
negative address marks; it then receives the opposite of what is asked.
-/

namespace SignalBox

/-- The position asked of a point; `undefined` asks for nothing. -/
inductive Position
  | undefined
  | straight
  | diverging
  deriving DecidableEq

namespace Position

/-- The other of the two proper positions. -/
def opposite : Position → Position
  | undefined => undefined
  | straight => diverging
  | diverging => straight

/-- What the accessory at `address` receives: the opposite if it is wired in reverse. -/
def forAddress (p : Position) (address : Int32) : Position :=
  if address.toInt < 0 then p.opposite else p

/-- The position that a sign asks for. -/
def ofSign : Char → Position
  | '+' => straight
  | '-' => diverging
  | _ => undefined

/-- The mark of a position in the text of a command. -/
def mark : Position → Char
  | undefined => '?'
  | straight => '+'
  | diverging => '-'

end Position

end SignalBox
