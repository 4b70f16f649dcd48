import SignalBox.Command.Signal
import SignalBox.Outcome

/-!
# Notices

What observers are told: the outcome of each command, and each signal that changed its aspect.
-/

namespace SignalBox

/-- One message to observers. A route notice names the end signals of the request, where 0 stands
for any; `confirmed` is false for a signal that is not on the bus. -/
inductive Notice
  | point (number : UInt32) (outcome : PointOutcome)
  | route (start destination : UInt32) (outcome : RouteOutcome)
  | signal (signal : UInt32) (aspect : Aspect) (confirmed : Bool)
  | turntable (track : UInt32) (outcome : TurntableOutcome)
  | reloadRequested
  deriving DecidableEq

namespace Notice

/-- The text of a notice about a point. -/
def pointText (number : UInt32) (outcome : PointOutcome) : String :=
  "point " ++ Decimal.text number.toNat ++
    match outcome with
    | .set => " set"
    | .rejected reason => " rejected: " ++ reason.message
    | .locked => " is locked"
    | .alreadyInPosition => " already in position"

/-- The text of a notice about a route. -/
def routeText (start destination : UInt32) (outcome : RouteOutcome) : String :=
  let route := "route " ++ Decimal.text start.toNat ++ "." ++ Decimal.text destination.toNat
  match outcome with
  | .set => route ++ " set"
  | .rejected reason => route ++ " rejected: " ++ reason.message
  | .cleared => route ++ " cleared"
  | .allCleared => "all routes cleared"

/-- The text of a notice about the turntable. -/
def turntableText (track : UInt32) : TurntableOutcome → String
  | .turned => "turntable at track " ++ Decimal.text track.toNat
  | .rejected reason =>
    "turntable to track " ++ Decimal.text track.toNat ++ " rejected: " ++ reason.message

/-- The text of a notice. -/
def text : Notice → String
  | point number outcome => pointText number outcome
  | route start destination outcome => routeText start destination outcome
  | signal number aspect _ =>
    "signal " ++ Decimal.text number.toNat ++ " shows " ++ aspect.word
  | turntable track outcome => turntableText track outcome
  | reloadRequested => "reload requested"

end Notice

end SignalBox
