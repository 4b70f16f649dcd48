import SignalBox.Position
import SignalBox.Text.Decimal

/-!
# Commands to points

A command names a point by its number, and one of its sub-points by a letter if it means that one
only. The accessory addresses and the lock are filled in from the layout. Points whose lock offset
is given drive a second accessory per address that locks the blades.
-/

namespace SignalBox

/-- A command to move one point. -/
structure PointCommand where
  /-- The number of the point. -/
  number : UInt32
  /-- The letter of the sub-point that is meant; without it the whole point is meant. -/
  subPoint : Option Char
  /-- The position asked for. -/
  position : Position
  /-- What is added to an address to reach its lock; nothing for a point without locks. -/
  lockOffset : Option UInt32
  /-- Whether the train runs over the point; otherwise it only protects the flank of a route. -/
  onRoute : Bool
  /-- The accessories to switch, negative for those wired in reverse. -/
  addresses : List Int32
  deriving DecidableEq

/-- Appends the addresses that are not there yet, in order. -/
def mergeAddresses (known added : List Int32) : List Int32 :=
  added.foldl (fun known a ↦ if a ∈ known then known else known ++ [a]) known

namespace PointCommand

/-- The least lock offset; anything below means that there is no lock. -/
def minLockOffset : UInt32 := 100

/-- The highest lock address that can be written down. -/
def maxLockAddress : Nat := 2147483647

/-- A command on the route itself, without addresses. -/
def plain (number : UInt32) (position : Position) : PointCommand :=
  { number, subPoint := none, position, lockOffset := none, onRoute := true, addresses := [] }

/-- A command that protects a flank, without addresses. -/
def flank (number : UInt32) (position : Position) : PointCommand :=
  { plain number position with onRoute := false }

/-- Selects a sub-point; its letter is kept in lower case. -/
def withSubPoint (c : PointCommand) (letter : Char) : PointCommand :=
  { c with subPoint := some letter.toLower }

/-- Sets the lock offset; a value below the least one takes the lock away. -/
def withLockOffset (c : PointCommand) (offset : UInt32) : PointCommand :=
  { c with lockOffset := if minLockOffset ≤ offset then some offset else none }

/-- Adds addresses, leaving out those that are there already. -/
def withAddresses (c : PointCommand) (addresses : List Int32) : PointCommand :=
  { c with addresses := mergeAddresses c.addresses addresses }

/-- Whether no position is asked for. -/
def isUndefined (c : PointCommand) : Bool :=
  c.position = .undefined

/-- Whether the point has locks, which are engaged with a route and released after it. -/
def hasLock (c : PointCommand) : Bool :=
  c.lockOffset.isSome

/-- The lock that belongs to an accessory: the magnitude of its address plus the offset, or the
highest address if that is out of reach. -/
def lockAddress (offset : UInt32) (address : Int32) : Int32 :=
  Int32.ofNat (min (address.toInt.natAbs + offset.toNat) maxLockAddress)

/-- The addresses of all locks, one for each address. -/
def lockAddresses (c : PointCommand) : List Int32 :=
  match c.lockOffset with
  | some offset => c.addresses.map (lockAddress offset)
  | none => []

/-- Whether two commands ask for the same: sub-point, lock and flank protection do not matter. -/
def asksSame (a b : PointCommand) : Bool :=
  a.number = b.number ∧ a.position = b.position ∧ a.addresses = b.addresses

/-- The characters of a command's text. -/
def symbols (c : PointCommand) : List Char :=
  (if c.onRoute then [] else ['x']) ++ Decimal.digits c.number.toNat ++ c.subPoint.toList ++
    [c.position.mark]

/-- The text of a command, such as `27a+`; the letter x in front marks flank protection. -/
def text (c : PointCommand) : String :=
  String.ofList c.symbols

end PointCommand

end SignalBox
