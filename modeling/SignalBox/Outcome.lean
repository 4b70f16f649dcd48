import SignalBox.Layout.Violation

/-!
# What became of a command

Each command has an outcome. A command that is not carried out is rejected with a reason; reasons
and outcomes are told to observers and written into documents.
-/

namespace SignalBox

/-- Why a command was rejected.

* `undefined`: it cannot be acted upon;
* `unknownPoint`, `unknownTrack`, `unknownRoute`: the layout has nothing of that name;
* `alreadyActive`, `notActive`: the route is set already, or no such route is;
* `conflictsWith`: an active route holds the point in another position;
* `invalid`: the route does not fit the layout;
* `protocol`: an address is not on the bus;
* `cancelled`, `transportFailed`: delivery stopped on the way. -/
inductive RejectReason
  | undefined
  | unknownPoint (point : UInt32)
  | unknownTrack (track : UInt32)
  | unknownRoute (start destination : UInt32)
  | alreadyActive
  | notActive
  | conflictsWith (start destination point : UInt32)
  | invalid (violation : Violation)
  | protocol (message : String)
  | cancelled (framesSent : UInt64)
  | transportFailed (message : String)
  deriving DecidableEq

/-- The message for a reason. -/
def RejectReason.message : RejectReason → String
  | undefined => "command is incomplete"
  | unknownPoint n => "point " ++ Decimal.text n.toNat ++ " does not exist"
  | unknownTrack n => "turntable track " ++ Decimal.text n.toNat ++ " does not exist"
  | unknownRoute a b =>
    "no route from " ++ Decimal.text a.toNat ++ " to " ++ Decimal.text b.toNat
  | alreadyActive => "route is already set"
  | notActive => "no such route is set"
  | conflictsWith a b p =>
    "point " ++ Decimal.text p.toNat ++ " is held by route " ++ Decimal.text a.toNat ++ "." ++
      Decimal.text b.toNat
  | invalid v => v.message
  | protocol message => message
  | cancelled n => "cancelled after " ++ Decimal.text n.toNat ++ " frame(s)"
  | transportFailed message => "bus write failed: " ++ message

/-- What became of a point command. -/
inductive PointOutcome
  | set
  | rejected (reason : RejectReason)
  | locked
  | alreadyInPosition
  deriving DecidableEq

/-- What became of a route command. -/
inductive RouteOutcome
  | set
  | rejected (reason : RejectReason)
  | cleared
  | allCleared
  deriving DecidableEq

/-- What became of a turntable command. -/
inductive TurntableOutcome
  | turned
  | rejected (reason : RejectReason)
  deriving DecidableEq

/-- What became of any command: for the stop of all signals, how many were handled. -/
inductive Outcome
  | point (outcome : PointOutcome)
  | route (outcome : RouteOutcome)
  | turntable (outcome : TurntableOutcome)
  | signalSet
  | signalsStopped (count : Nat)
  | reloadRequested
  deriving DecidableEq

end SignalBox
