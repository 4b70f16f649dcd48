import SignalBox.Command.Point
import SignalBox.Command.Route
import SignalBox.Command.Signal
import SignalBox.Command.Turntable

/-!
# Commands from the console

A finished console entry is a command to a point, a route or the turntable, or one of the control
commands that concern the whole yard.
-/

namespace SignalBox

/-- A command that concerns the whole yard. -/
inductive ControlCommand
  | reload
  | clearAllRoutes
  | stopAllSignals
  deriving DecidableEq

/-- What a finished console entry asks for. -/
inductive Command
  | point (command : PointCommand)
  | route (command : RouteCommand)
  | turntable (command : TurntableCommand)
  | control (command : ControlCommand)
  deriving DecidableEq

end SignalBox
