import SignalBox.Bus.Encoding
import SignalBox.Dispatch.Delivery

/-!
# Commands in flight

An activity is a command whose frames are being delivered: its delivery, and the purpose that says
what is to be done when the delivery is complete or has failed. Between two steps of one activity
any other command may run; each step itself is indivisible.
-/

namespace SignalBox

/-- What a delivery is for.

* `movePoint`: a point command, the keys that it covers and the position asked for;
* `setRoute`: a route that holds its reservation already, with the layout it was resolved against;
* `release`, `clearAll`: routes that have been removed already;
* `showSignal`, `turn`: a single signal, the turntable;
* `stopSignals`: the signal at hand, those after it, and the number of all of them. -/
inductive Purpose
  | movePoint (number : UInt32) (keys : List PointKey) (position : Position)
  | setRoute (layout : Layout) (request resolved : RouteCommand)
  | release (request : RouteCommand) (removed : List RouteCommand)
  | clearAll
  | showSignal (signal : SignalCommand)
  | turn (track : UInt32)
  | stopSignals (signal : SignalCommand) (rest : List SignalCommand) (count : Nat)
  deriving DecidableEq

/-- A command in flight. -/
structure Activity where
  /-- What is done when the delivery ends. -/
  purpose : Purpose
  /-- The delivery of its frames. -/
  delivery : Delivery
  deriving DecidableEq

/-- How a command stands: it is in flight, or it has a result. -/
inductive Progress
  | underWay (activity : Activity)
  | done (result : Except Failure Outcome)
  deriving DecidableEq

namespace Yard

/-! ### Results and their notices -/

/-- Ends a point command with an outcome. -/
def endPoint (y : Yard) (number : UInt32) (outcome : PointOutcome) : Yard × Progress :=
  (y.publish (.point number outcome), .done (.ok (.point outcome)))

/-- Ends a route command with an outcome. -/
def endRoute (y : Yard) (route : RouteCommand) (outcome : RouteOutcome) : Yard × Progress :=
  (y.publish (.route route.start route.destination outcome), .done (.ok (.route outcome)))

/-- Ends a turntable command with an outcome. -/
def endTurntable (y : Yard) (track : UInt32) (outcome : TurntableOutcome) : Yard × Progress :=
  (y.publish (.turntable track outcome), .done (.ok (.turntable outcome)))

/-- Ends a point command with a failure. -/
def failPoint (y : Yard) (number : UInt32) (failure : Failure) : Yard × Progress :=
  (y.publish (.point number (.rejected failure.reason)), .done (.error failure))

/-- Ends a route command with a failure. -/
def failRoute (y : Yard) (route : RouteCommand) (failure : Failure) : Yard × Progress :=
  (y.publish (.route route.start route.destination (.rejected failure.reason)),
    .done (.error failure))

/-- Ends a turntable command with a failure. -/
def failTurntable (y : Yard) (track : UInt32) (failure : Failure) : Yard × Progress :=
  (y.publish (.turntable track (.rejected failure.reason)), .done (.error failure))

/-- Tells that a signal shows an aspect. -/
def announce (y : Yard) (signal : SignalCommand) (confirmed : Bool) : Yard :=
  y.publish (.signal signal.signal signal.aspect confirmed)

/-- The request that stands for all routes in notices. -/
def allRoutes : RouteCommand := .plain 0 0 .clear

/-- Handles signals one after another, as far as the first that is on the bus. Signals that are not
are only announced. -/
def showSignals (y : Yard) (token : Token) (count : Nat) : List SignalCommand → Yard × Progress
  | [] => (y, .done (.ok (.signalsStopped count)))
  | signal :: rest =>
    match signal.frame? with
    | .error cause => (y, .done (.error (.protocol cause)))
    | .ok none => (y.announce signal false).showSignals token count rest
    | .ok (some frame) =>
      (y, .underWay
        { purpose := .stopSignals signal rest count, delivery := .start y token frame [] })

/-- Records the position of one point for all sub-points that it covers. -/
def recordPoint (layout : Layout) (positions : Positions) (p : PointCommand) : Positions :=
  positions.recordAll p.position (Positions.keysOf layout p)

/-- Records the positions of a route's points that have one. -/
def recordRoute (y : Yard) (layout : Layout) (route : RouteCommand) : Yard :=
  let points := route.points.filter fun p ↦ !p.isUndefined
  { y with positions := points.foldl (recordPoint layout) y.positions }

/-- Tells that routes have been released. -/
def announceCleared (y : Yard) (removed : List RouteCommand) : Yard :=
  removed.foldl (fun y r ↦ y.publish (.route r.start r.destination .cleared)) y

/-- Finishes a command all of whose frames have been sent. -/
def finish (y : Yard) (token : Token) : Purpose → Yard × Progress
  | .movePoint number keys position =>
    { y with positions := y.positions.recordAll position keys }.endPoint number .set
  | .setRoute layout request resolved => (y.recordRoute layout resolved).endRoute request .set
  | .release _ removed => (y.announceCleared removed, .done (.ok (.route .cleared)))
  | .clearAll => y.endRoute allRoutes .allCleared
  | .showSignal signal => (y.announce signal true, .done (.ok .signalSet))
  | .turn track => y.endTurntable track .turned
  | .stopSignals signal rest count => (y.announce signal true).showSignals token count rest

/-- Ends a command whose delivery has failed. A route that was being set is withdrawn. -/
def abandon (y : Yard) (failure : Failure) : Purpose → Yard × Progress
  | .movePoint number _ _ => y.failPoint number failure
  | .setRoute _ request _ => (y.withActive (y.active.without request)).failRoute request failure
  | .release request _ => y.failRoute request failure
  | .clearAll => y.failRoute allRoutes failure
  | .showSignal _ => (y, .done (.error failure))
  | .turn track => y.failTurntable track failure
  | .stopSignals _ _ _ => (y, .done (.error failure))

/-- Starts the delivery of frames; without frames the command finishes at once. -/
def deliver (y : Yard) (token : Token) (purpose : Purpose) : List Frame → Yard × Progress
  | [] => y.finish token purpose
  | frame :: rest => (y, .underWay { purpose, delivery := .start y token frame rest })

end Yard

namespace Purpose

/-- The number of steps that may follow the delivery for which this is the purpose. -/
def stepsLeft : Purpose → Nat
  | stopSignals _ rest _ => 2 * rest.length
  | _ => 0

end Purpose

namespace Activity

/-- Whether the next step can be taken. -/
def isReady (y : Yard) (a : Activity) : Bool :=
  a.delivery.isReady y

/-- One indivisible step of a command that is ready. -/
def step (y : Yard) (a : Activity) : Yard × Progress :=
  match a.delivery.step y with
  | (y, .underWay delivery) => (y, .underWay { a with delivery := delivery })
  | (y, .failed failure) => y.abandon failure a.purpose
  | (y, .complete) => y.finish a.delivery.token a.purpose

/-- A bound on the number of steps left. -/
def stepsLeft (a : Activity) : Nat :=
  a.delivery.stepsLeft + a.purpose.stepsLeft

/-! ### Every step brings a command closer to its end -/

theorem stepsLeft_le_of_showSignals {y y' : Yard} {token : Token} {count : Nat}
    {signals : List SignalCommand} {a : Activity}
    (h : y.showSignals token count signals = (y', .underWay a)) :
    a.stepsLeft ≤ 2 * signals.length := by
  fun_induction Yard.showSignals y token count signals with
  | case1 => simp at h
  | case2 => simp at h
  | case3 y signal rest _ ih =>
    have := ih h
    simp only [List.length_cons]
    omega
  | case4 y signal rest frame _ =>
    simp only [Prod.mk.injEq, Progress.underWay.injEq] at h
    obtain ⟨-, rfl⟩ := h
    simp only [stepsLeft, Delivery.start, Delivery.stepsLeft, Purpose.stepsLeft, List.length_nil,
      List.length_cons]
    omega

theorem stepsLeft_le_of_finish {y y' : Yard} {token : Token} {purpose : Purpose} {a : Activity}
    (h : y.finish token purpose = (y', .underWay a)) : a.stepsLeft ≤ purpose.stepsLeft := by
  cases purpose with
  | stopSignals signal rest count => exact stepsLeft_le_of_showSignals h
  | _ => simp [Yard.finish, Yard.endPoint, Yard.endRoute, Yard.endTurntable] at h

theorem stepsLeft_lt_of_step {y y' : Yard} {a a' : Activity}
    (h : a.step y = (y', .underWay a')) : a'.stepsLeft < a.stepsLeft := by
  unfold step at h
  split at h
  next hd =>
    simp only [Prod.mk.injEq, Progress.underWay.injEq] at h
    obtain ⟨-, rfl⟩ := h
    have := Delivery.stepsLeft_lt_of_step hd
    simp only [stepsLeft]
    omega
  next => cases hp : a.purpose <;> simp [hp, Yard.abandon, Yard.failPoint, Yard.failRoute,
    Yard.failTurntable] at h
  next =>
    have := stepsLeft_le_of_finish h
    have := a.delivery.stepsLeft_pos
    simp only [stepsLeft] at *
    omega

theorem stepsLeft_pos (a : Activity) : 0 < a.stepsLeft := by
  have := a.delivery.stepsLeft_pos
  simp only [stepsLeft]
  omega

end Activity

end SignalBox
