import SignalBox.Command
import SignalBox.Layout.TrackGraph

/-!
# What a layout consists of

Definitions of points, signals, turntable tracks and routes. A point's label is its number and, for
a sub-point, a letter: the number is what the digits in front say, and zero if there are none that
can be read.
-/

namespace SignalBox

namespace Label

/-- The number in front of a label. -/
def number (label : String) : UInt32 :=
  Decimal.word (label.toList.takeWhile Char.isDigit)

/-- The letter after the number, in lower case. -/
def letter (label : String) : Option Char :=
  ((label.toList.dropWhile Char.isDigit).head?.filter Char.isAlpha).map Char.toLower

end Label

/-- A point, or one of its sub-points. -/
structure PointDefinition where
  /-- The number, and a letter for a sub-point. -/
  label : String
  /-- The addresses to switch for the straight position. -/
  straight : List Int32
  /-- The addresses to switch for the diverging position. -/
  diverging : List Int32
  /-- The offset from an address to its lock; 0 for a point without locks. -/
  lockOffset : UInt32
  /-- The node at the toe. -/
  switchEnd : Option Coordinate
  /-- The node at the diverging end. -/
  divergingEnd : Option Coordinate
  deriving DecidableEq

namespace PointDefinition

/-- The point's number. -/
def number (p : PointDefinition) : UInt32 := Label.number p.label

/-- The letter of the sub-point. -/
def subPoint (p : PointDefinition) : Option Char := Label.letter p.label

/-- The addresses to switch for a position. -/
def addressesFor (p : PointDefinition) : Position → List Int32
  | .straight => p.straight
  | .diverging => p.diverging
  | .undefined => []

/-- A point with the same addresses for both positions, outside the track graph. -/
def plain (label : String) (addresses : List Int32) : PointDefinition :=
  { label, straight := addresses, diverging := addresses, lockOffset := 0
    switchEnd := none, divergingEnd := none }

end PointDefinition

/-- A signal. -/
structure SignalDefinition where
  /-- The name by which routes refer to the signal. -/
  name : String
  /-- Its place in the yard diagram. -/
  coordinate : Coordinate
  /-- The accessory that drives it; 0 if it is not on the bus. -/
  address : UInt16
  /-- The address that reports the aspect shown. -/
  feedback : Option UInt16
  /-- Whether routes may start here. -/
  isRouteStart : Bool
  /-- Whether routes may end here. -/
  isRouteEnd : Bool
  deriving DecidableEq

namespace SignalDefinition

/-- The signal's number, if its name starts with one. -/
def number (s : SignalDefinition) : UInt32 := Label.number s.name

/-- A signal at which routes may start and end. -/
def plain (name : String) (coordinate : Coordinate) (address : UInt16) : SignalDefinition :=
  { name, coordinate, address, feedback := none, isRouteStart := true, isRouteEnd := true }

end SignalDefinition

/-- A track of the turntable. -/
structure TurntableTrack where
  /-- The number of the track. -/
  number : UInt32
  /-- The accessory that selects it. -/
  address : UInt16
  deriving DecidableEq

/-- A point that a route needs. -/
structure RoutePoint where
  /-- The label of the point. -/
  label : String
  /-- The position that the route needs. -/
  position : Position
  /-- Whether the point only protects the flank. -/
  offRoute : Bool
  deriving DecidableEq

/-- The command that brings a route's point into position. -/
def RoutePoint.command (p : RoutePoint) : PointCommand :=
  let command := if p.offRoute then PointCommand.flank (Label.number p.label) p.position
    else PointCommand.plain (Label.number p.label) p.position
  match Label.letter p.label with
  | some letter => command.withSubPoint letter
  | none => command

/-- The points between two adjacent signals, in the order of setting. -/
structure RouteDefinition where
  start : UInt32
  destination : UInt32
  points : List RoutePoint
  deriving DecidableEq

/-- All that is known about the yard. Sub-points share a number; of several definitions with one
name the first counts. -/
structure Layout where
  points : List PointDefinition
  signals : List SignalDefinition
  tracks : List TurntableTrack
  routes : List RouteDefinition
  graph : TrackGraph
  deriving DecidableEq

namespace Layout

/-- The layout without anything in it. -/
def empty : Layout :=
  { points := [], signals := [], tracks := [], routes := [], graph := .empty }

/-- All definitions of a point number, sub-points included. -/
def pointsNumbered (l : Layout) (number : UInt32) : List PointDefinition :=
  l.points.filter (·.number == number)

/-- The first signal of a name. -/
def signal? (l : Layout) (name : String) : Option SignalDefinition :=
  l.signals.find? (·.name == name)

/-- The first turntable track of a number. -/
def track? (l : Layout) (number : UInt32) : Option TurntableTrack :=
  l.tracks.find? (·.number == number)

/-- The first route between two adjacent signals. -/
def route? (l : Layout) (start destination : UInt32) : Option RouteDefinition :=
  l.routes.find? fun r ↦ r.start == start && r.destination == destination

end Layout

end SignalBox
