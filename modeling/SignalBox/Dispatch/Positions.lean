import SignalBox.Layout.Resolution

/-!
# Recorded positions

The position last asked of each point, sub-point by sub-point, by a command that succeeded.
-/

namespace SignalBox

/-- A point, or the sub-point of the given letter. -/
structure PointKey where
  number : UInt32
  subPoint : Option Char
  deriving DecidableEq

/-- The recorded positions, latest first. -/
structure Positions where
  entries : List (PointKey × Position)
  deriving DecidableEq

namespace Positions

/-- The keys of the sub-points that a command covers. -/
def keysOf (layout : Layout) (command : PointCommand) : List PointKey :=
  (layout.subPoints command).map fun subPoint ↦ ⟨command.number, subPoint⟩

/-- Nothing is recorded. -/
def empty : Positions := ⟨[]⟩

/-- The position recorded for a key. -/
def get? (p : Positions) (key : PointKey) : Option Position :=
  p.entries.lookup key

/-- Records a position for a key. -/
def record (p : Positions) (position : Position) (key : PointKey) : Positions :=
  ⟨(key, position) :: p.entries.filter fun e ↦ e.1 != key⟩

/-- Records a position for several keys. -/
def recordAll (p : Positions) (position : Position) (keys : List PointKey) : Positions :=
  keys.foldl (fun p key ↦ p.record position key) p

/-- Whether all keys have the given position. -/
def allAt (p : Positions) (position : Position) (keys : List PointKey) : Bool :=
  keys.all fun key ↦ p.get? key = some position

end Positions

end SignalBox
