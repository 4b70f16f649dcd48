import SignalBox.Dispatch.Activity

/-!
# Starting commands

The checks that a command has to pass, up to the point where it waits for its first frame. All of
this is one indivisible step; in particular a route is checked against the active ones and takes
its place among them before anything else can happen.
-/

namespace SignalBox.Yard

/-! ### Points -/

/-- Starts to move a resolved point that is not held by a route. -/
def movePoint (y : Yard) (token : Token) (keys : List PointKey) (point : PointCommand) :
    Yard × Progress :=
  if y.positions.allAt point.position keys then y.endPoint point.number .alreadyInPosition
  else match point.setFrames with
    | .error cause => y.failPoint point.number (.protocol cause)
    | .ok frames => y.deliver token (.movePoint point.number keys point.position) frames

/-- Starts a point command. Nothing is sent if the point is held by a route or is in position
already. -/
def startPoint (y : Yard) (token : Token) (command : PointCommand) : Yard × Progress :=
  if command.isUndefined then y.endPoint command.number (.rejected .undefined)
  else match y.layout.resolvePoint? command with
    | none => y.endPoint command.number (.rejected (.unknownPoint command.number))
    | some point =>
      if y.active.holds point.number then y.endPoint command.number .locked
      else y.movePoint token (Positions.keysOf y.layout command) point

/-! ### Routes -/

/-- What keeps a route from being set, unless it is that its frames cannot be encoded. -/
def obstacle? (y : Yard) (route : RouteCommand) : Option RejectReason :=
  if route.isUndefined then some .undefined
  else if y.active.contains route then some .alreadyActive
  else match y.active.conflict? route with
    | some conflict =>
      some (.conflictsWith conflict.start conflict.destination conflict.point)
    | none => (y.plan.index.violation? route).map .invalid

/-- Reserves and starts to set a route that has its points. -/
def reserveRoute (y : Yard) (token : Token) (route : RouteCommand) : Yard × Progress :=
  match y.obstacle? route with
  | some reason => y.endRoute route (.rejected reason)
  | none =>
    match y.layout.resolveRoute route with
    | .error point => y.endRoute route (.rejected (.unknownPoint point))
    | .ok resolved =>
      match resolved.setFrames with
      | .error cause => y.failRoute route (.protocol cause)
      | .ok frames =>
        (y.withActive (y.active.insert resolved)).deliver token
          (.setRoute y.layout route resolved) frames

/-- Starts to set a route. Without points, and with a start, it gets the points of its legs. -/
def setRoute (y : Yard) (token : Token) (route : RouteCommand) : Yard × Progress :=
  if route.points.isEmpty && route.start != 0 then
    match y.layout.expandRoute route with
    | .error leg => y.endRoute route (.rejected (.unknownRoute leg.1 leg.2))
    | .ok expanded => y.reserveRoute token expanded
  else y.reserveRoute token route

/-- Removes the routes that a request means, and starts to release the locks that no other route
needs. -/
def releaseRoute (y : Yard) (token : Token) (request : RouteCommand) : Yard × Progress :=
  let removed := y.active.matching request
  let remaining := y.active.without request
  let y := y.withActive remaining
  if removed.isEmpty then y.endRoute request (.rejected .notActive)
  else match unlockFrames (remaining.pointsToUnlock removed) with
    | .error cause => y.failRoute request (.protocol cause)
    | .ok frames => y.deliver token (.release request removed) frames

/-- Removes all routes, and starts to release their locks. -/
def clearAllRoutes (y : Yard) (token : Token) : Yard × Progress :=
  let removed := y.active.routes
  let y := y.withActive .empty
  match unlockFrames (Reservations.empty.pointsToUnlock removed) with
  | .error cause => y.failRoute allRoutes (.protocol cause)
  | .ok frames => y.deliver token .clearAll frames

/-- Starts a route command, to set or to release as its state says. -/
def startRoute (y : Yard) (token : Token) (route : RouteCommand) : Yard × Progress :=
  if route.state.isSet then y.setRoute token route
  else if route.state.isTeardown then y.releaseRoute token route
  else y.endRoute route (.rejected .undefined)

/-! ### Signals, turntable, reload -/

/-- Starts to set one signal. A signal that is not on the bus is only announced. -/
def startSignal (y : Yard) (token : Token) (signal : SignalCommand) : Yard × Progress :=
  match signal.frame? with
  | .error cause => (y, .done (.error (.protocol cause)))
  | .ok none => (y.announce signal false, .done (.ok .signalSet))
  | .ok (some frame) => y.deliver token (.showSignal signal) [frame]

/-- Keeps the first signal of each name. -/
def distinctSignals (seen : List String) : List SignalDefinition → List SignalDefinition
  | [] => []
  | s :: rest =>
    if s.name ∈ seen then distinctSignals seen rest
    else s :: distinctSignals (s.name :: seen) rest

/-- The commands that stop every signal of a layout. -/
def stopCommands (layout : Layout) : List SignalCommand :=
  (distinctSignals [] layout.signals).map fun s ↦
    { signal := s.number, address := s.address, aspect := .stop, feedback := s.feedback }

/-- Starts to stop every signal. -/
def stopAllSignals (y : Yard) (token : Token) : Yard × Progress :=
  let commands := stopCommands y.layout
  y.showSignals token commands.length commands

/-- Starts to turn the turntable. -/
def startTurntable (y : Yard) (token : Token) (command : TurntableCommand) : Yard × Progress :=
  match y.layout.track? command.track with
  | none => y.endTurntable command.track (.rejected (.unknownTrack command.track))
  | some track =>
    match command.frame track.address with
    | .error cause => y.failTurntable command.track (.protocol cause)
    | .ok frame => y.deliver token (.turn command.track) [frame]

/-- Asks for a reload of the layout. -/
def requestReload (y : Yard) : Yard × Progress :=
  (y.publish .reloadRequested, .done (.ok .reloadRequested))

/-- Starts any command. -/
def startCommand (y : Yard) (token : Token) : Command → Yard × Progress
  | .point command => y.startPoint token command
  | .route command => y.startRoute token command
  | .turntable command => y.startTurntable token command
  | .control .reload => y.requestReload
  | .control .clearAllRoutes => y.clearAllRoutes token
  | .control .stopAllSignals => y.stopAllSignals token

end SignalBox.Yard
