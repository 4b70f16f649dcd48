import Std.Data.TreeMap
import SignalBox.Layout.Definition
import SignalBox.Layout.Violation

/-!
# The index of a layout

Routes are checked against two tables made once per layout: the definitions of each point number,
and those of each signal name, both in the order of the layout. While they are made, definitions
that cannot be told apart or found are noted as warnings; none of them is fatal. Points without a
number are not indexed.
-/

namespace SignalBox

/-- A signal whose name was taken already. -/
structure SignalConflict where
  /-- The name. -/
  key : String
  /-- Where the signal sits that keeps the name. -/
  kept : Coordinate
  /-- Where the other sits. -/
  ignored : Coordinate
  deriving DecidableEq

/-- What was noted while a layout was indexed. -/
structure LayoutWarnings where
  /-- Signals whose name was taken already. -/
  signalConflicts : List SignalConflict
  /-- Labels of points that were there already, up to case. -/
  duplicateLabels : List String
  /-- Labels whose number is zero or cannot be read. -/
  unnumberedLabels : List String
  deriving DecidableEq

namespace LayoutWarnings

/-- No warnings. -/
def none : LayoutWarnings :=
  { signalConflicts := [], duplicateLabels := [], unnumberedLabels := [] }

/-- Whether nothing was noted. -/
def isClean (w : LayoutWarnings) : Bool :=
  w.signalConflicts.isEmpty && w.duplicateLabels.isEmpty && w.unnumberedLabels.isEmpty

end LayoutWarnings

/-- Whether two labels are equal up to the case of ASCII letters. -/
def Label.sameUpToCase (a b : String) : Bool :=
  a.toList.map Char.toLower == b.toList.map Char.toLower

/-- The tables of a layout. -/
structure LayoutIndex where
  /-- The definitions of each point number. -/
  points : Std.TreeMap UInt32 (List PointDefinition)
  /-- The definitions of each signal name. -/
  signals : Std.TreeMap String (List SignalDefinition)
  /-- The track graph. -/
  graph : TrackGraph
  /-- What was noted on the way. -/
  warnings : LayoutWarnings

namespace LayoutIndex

/-- Every definition of a point number. -/
def pointDefinitions (i : LayoutIndex) (number : UInt32) : List PointDefinition :=
  i.points.getD number []

/-- Every definition of a signal name. -/
def signalDefinitions (i : LayoutIndex) (name : String) : List SignalDefinition :=
  i.signals.getD name []

/-- The definition that counts for a signal name. -/
def signal? (i : LayoutIndex) (name : String) : Option SignalDefinition :=
  (i.signalDefinitions name).head?

/-- Takes a point into the index. -/
def addPoint (i : LayoutIndex) (p : PointDefinition) : LayoutIndex :=
  if p.number = 0 then
    { i with warnings :=
      { i.warnings with unnumberedLabels := i.warnings.unnumberedLabels ++ [p.label] } }
  else
    let known := i.pointDefinitions p.number
    let warnings :=
      if known.any fun k ↦ Label.sameUpToCase k.label p.label then
        { i.warnings with duplicateLabels := i.warnings.duplicateLabels ++ [p.label] }
      else i.warnings
    { i with points := i.points.insert p.number (known ++ [p]), warnings := warnings }

/-- Takes a signal into the index. -/
def addSignal (i : LayoutIndex) (s : SignalDefinition) : LayoutIndex :=
  let known := i.signalDefinitions s.name
  let warnings :=
    match known.head? with
    | some first =>
      let conflict := { key := s.name, kept := first.coordinate, ignored := s.coordinate }
      { i.warnings with signalConflicts := i.warnings.signalConflicts ++ [conflict] }
    | none => i.warnings
  { i with signals := i.signals.insert s.name (known ++ [s]), warnings := warnings }

/-- The index with empty tables over a graph. -/
def empty (graph : TrackGraph) : LayoutIndex :=
  { points := ∅, signals := ∅, graph, warnings := .none }

/-- The index of a layout. -/
def ofLayout (l : Layout) : LayoutIndex :=
  l.signals.foldl addSignal (l.points.foldl addPoint (empty l.graph))

/-- Whether a definition has both ends, and they are nodes joined by a link. -/
def isConnected (i : LayoutIndex) (p : PointDefinition) : Bool :=
  match p.switchEnd, p.divergingEnd with
  | some toe, some branch => i.graph.joins toe branch
  | _, _ => false

/-- What is wrong with a signal of a route. -/
def signalViolation? (i : LayoutIndex) (signal : UInt32) : Option Violation :=
  if (i.signal? (Decimal.text signal.toNat)).isNone then some (.unknownSignal signal) else none

/-- What is wrong with a point that the train runs over. -/
def pointViolation? (i : LayoutIndex) (point : PointCommand) : Option Violation :=
  let definitions := i.pointDefinitions point.number
  if definitions.isEmpty then some (.unknownPoint point.number)
  else if definitions.any i.isConnected then none
  else some (.notConnected point.number)

/-- The first thing that is wrong with a route: signals come before points, and points that only
protect a flank are not checked. -/
def violation? (i : LayoutIndex) (route : RouteCommand) : Option Violation :=
  (route.signalChain.findSome? i.signalViolation?).or
    (route.onRoutePoints.findSome? i.pointViolation?)

/-- Parts routes into those that fit and those that do not, each of these with what is wrong. -/
def report (i : LayoutIndex) (routes : List RouteCommand) :
    List RouteCommand × List (RouteCommand × Violation) :=
  (routes.filter fun r ↦ (i.violation? r).isNone,
    routes.filterMap fun r ↦ (i.violation? r).map fun v ↦ (r, v))

end LayoutIndex

end SignalBox
