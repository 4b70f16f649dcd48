import SignalBox.Command.Point

/-!
# Commands to train routes

A route runs from a start signal over intermediate signals to a destination, and holds its points
in position while it is set. Two routes are in conflict when they want one point in different
positions.
-/

namespace SignalBox

/-- What is asked of a route. -/
inductive RouteState
  | undefined
  | unset
  | setMain
  | setShunting
  | clear
  | cancel
  deriving DecidableEq

namespace RouteState

/-- Whether the route is to be set. -/
def isSet : RouteState → Bool
  | setMain | setShunting => true
  | _ => false

/-- Whether the route is to be released after the train has passed. -/
def isClear : RouteState → Bool
  | clear => true
  | _ => false

/-- Whether the route is to be revoked before the train has passed. -/
def isCancel : RouteState → Bool
  | cancel => true
  | _ => false

/-- Whether the route is to be released, for either reason. -/
def isTeardown : RouteState → Bool
  | clear | cancel => true
  | _ => false

/-- What the last key of a route entry asks for. -/
def ofTerminator : Char → RouteState
  | '#' => setMain
  | '*' => setShunting
  | '/' => clear
  | _ => undefined

/-- The word for a state in the text of a command. -/
def word : RouteState → String
  | undefined => "Undefined"
  | unset => "Unset"
  | setMain => "SetMain"
  | setShunting => "SetShunting"
  | clear => "Clear"
  | cancel => "Cancel"

end RouteState

/-- A command to set or release a route. -/
structure RouteCommand where
  /-- The start signal; 0 stands for any start, which makes sense for a release only. -/
  start : UInt32
  /-- The destination signal. -/
  destination : UInt32
  /-- What is asked of the route. -/
  state : RouteState
  /-- The points, in the order of setting. -/
  points : List PointCommand
  /-- The intermediate signals, in the order of travel. -/
  via : List UInt32
  deriving DecidableEq

namespace RouteCommand

/-- A command without points. -/
def plain (start destination : UInt32) (state : RouteState) : RouteCommand :=
  { start, destination, state, points := [], via := [] }

/-- The points that the train runs over. -/
def onRoutePoints (r : RouteCommand) : List PointCommand :=
  r.points.filter (·.onRoute)

/-- All signals along the route, from start to destination. -/
def signalChain (r : RouteCommand) : List UInt32 :=
  r.start :: r.via ++ [r.destination]

/-- Whether the command cannot be acted upon: it lacks a destination, or it is to be set and lacks
a start or a point with a position. -/
def isUndefined (r : RouteCommand) : Bool :=
  (r.state.isSet && r.start == 0) || r.destination == 0 ||
    (r.state.isSet && r.points.all (·.isUndefined))

/-- The first own point that the other route wants in a different position. -/
def conflictingPoint (r other : RouteCommand) : Option PointCommand :=
  r.points.find? fun own ↦
    other.points.any fun theirs ↦ theirs.number = own.number ∧ theirs.position ≠ own.position

/-- Whether the routes want some point in different positions. -/
def conflicts (r other : RouteCommand) : Bool :=
  (r.conflictingPoint other).isSome

/-- Whether the routes have the same end signals. -/
def sameEnds (r other : RouteCommand) : Bool :=
  r.start == other.start && r.destination == other.destination

/-- Whether a release request means the given active route. -/
def releases (request active : RouteCommand) : Bool :=
  request.destination == active.destination &&
    (request.start == 0 || request.start == active.start)

/-- Whether the route has a point of this number. -/
def hasPoint (r : RouteCommand) (number : UInt32) : Bool :=
  r.points.any (·.number == number)

/-- Whether two lists of point commands ask for the same, one by one. -/
def pointsAskSame : List PointCommand → List PointCommand → Bool
  | [], [] => true
  | a :: as, b :: bs => a.asksSame b && pointsAskSame as bs
  | _, _ => false

/-- Whether two commands ask for the same, up to what point commands ignore. -/
def asksSame (a b : RouteCommand) : Bool :=
  a.sameEnds b && a.state = b.state && pointsAskSame a.points b.points && a.via == b.via

/-- The characters of the signals' numbers, parted by a divider. -/
def chainSymbols (divider : Char) (chain : List UInt32) : List Char :=
  List.intercalate [divider] (chain.map fun n ↦ Decimal.digits n.toNat)

/-- The text of a command, such as `64.70.72 (SetMain)`. -/
def text (r : RouteCommand) : String :=
  String.ofList (chainSymbols '.' r.signalChain) ++ " (" ++ r.state.word ++ ")"

end RouteCommand

end SignalBox
