import SignalBox.Bus.Frame
import SignalBox.Command

/-!
# Commands as frames

Each command becomes a list of frames, sent in order. Only an address that is not on the bus keeps
a command from being encoded, and the first such address is the error.
-/

namespace SignalBox

/-- The wire position for a position of a point; none if nothing is asked for. -/
def WirePosition.ofPosition? : Position → Option WirePosition
  | .straight => some .closed
  | .diverging => some .thrown
  | .undefined => none

/-- The wire position for a position, where `closed` stands for an undefined one. -/
def WirePosition.ofPosition (p : Position) : WirePosition :=
  (ofPosition? p).getD .closed

/-- The wire position for an aspect. -/
def WirePosition.ofAspect : Aspect → WirePosition
  | .go => .closed
  | .stop => .thrown

namespace PointCommand

/-- The frames that move a point, one for each address; none if nothing is asked for. -/
def setFrames (c : PointCommand) : Except AddressError (List Frame) :=
  if c.isUndefined then .ok []
  else c.addresses.mapM fun a ↦
    Frame.encode .set a.toInt (WirePosition.ofPosition (c.position.forAddress a))

/-- The frames that engage the locks of a point. -/
def lockFrames (c : PointCommand) : Except AddressError (List Frame) :=
  c.lockAddresses.mapM fun a ↦ Frame.encode .lock a.toInt .closed

/-- The frames that release the locks of a point. -/
def unlockFrames (c : PointCommand) : Except AddressError (List Frame) :=
  c.lockAddresses.mapM fun a ↦ Frame.encode .unlock a.toInt .thrown

end PointCommand

/-- The frame for a signal, if it is wired to the bus. -/
def SignalCommand.frame? (s : SignalCommand) : Except AddressError (Option Frame) :=
  if s.hasAddress then
    (Frame.encode .set s.address.toNat (WirePosition.ofAspect s.aspect)).map some
  else .ok none

/-- The frame that turns the turntable to the track with the given address. -/
def TurntableCommand.frame (t : TurntableCommand) (address : UInt16) :
    Except AddressError Frame :=
  Frame.encode .set address.toNat (WirePosition.ofPosition t.direction)

namespace RouteCommand

/-- The frames that set a route: all its points are moved, then all its locks engaged. -/
def setFrames (r : RouteCommand) : Except AddressError (List Frame) := do
  let moves ← r.points.mapM PointCommand.setFrames
  let locks ← r.points.mapM PointCommand.lockFrames
  return (moves ++ locks).flatten

end RouteCommand

/-- The frames that release the locks of several points. -/
def unlockFrames (points : List PointCommand) : Except AddressError (List Frame) := do
  let unlocks ← points.mapM PointCommand.unlockFrames
  return unlocks.flatten

end SignalBox
