import SignalBox.Command.Route

/-!
# Active routes

The routes that are set, in the order in which they were set. They hold their points: a route that
wants one of these in another position is in conflict with the first such route.
-/

namespace SignalBox

/-- A conflict with an active route. -/
structure RouteConflict where
  /-- The start of the active route. -/
  start : UInt32
  /-- The destination of the active route. -/
  destination : UInt32
  /-- The point that both want. -/
  point : UInt32
  deriving DecidableEq

/-- The active routes, oldest first. -/
structure Reservations where
  /-- The routes with all their points resolved. -/
  routes : List RouteCommand
  deriving DecidableEq

namespace Reservations

/-- No active routes. -/
def empty : Reservations := ⟨[]⟩

/-- Whether a route with the same end signals is active. -/
def contains (a : Reservations) (route : RouteCommand) : Bool :=
  a.routes.any fun active ↦ active.sameEnds route

/-- The conflict of a route with one active route, if there is one. -/
def conflictWith? (route active : RouteCommand) : Option RouteConflict :=
  (route.conflictingPoint active).map fun p ↦
    { start := active.start, destination := active.destination, point := p.number }

/-- The first conflict of a route with the active ones. -/
def conflict? (a : Reservations) (route : RouteCommand) : Option RouteConflict :=
  a.routes.findSome? (conflictWith? route)

/-- Takes a route up as the latest one. -/
def insert (a : Reservations) (route : RouteCommand) : Reservations :=
  ⟨a.routes ++ [route]⟩

/-- The routes that a request means. -/
def matching (a : Reservations) (request : RouteCommand) : List RouteCommand :=
  a.routes.filter request.releases

/-- What remains without the routes that a request means. -/
def without (a : Reservations) (request : RouteCommand) : Reservations :=
  ⟨a.routes.filter fun active ↦ !request.releases active⟩

/-- The first active route that has a point of this number. -/
def holder? (a : Reservations) (point : UInt32) : Option RouteCommand :=
  a.routes.find? (·.hasPoint point)

/-- Whether an active route has a point of this number. -/
def holds (a : Reservations) (point : UInt32) : Bool :=
  (a.holder? point).isSome

/-- Keeps the first command for each point and sub-point. -/
def distinctPoints (seen : List (UInt32 × Option Char)) : List PointCommand → List PointCommand
  | [] => []
  | p :: ps =>
    if (p.number, p.subPoint) ∈ seen then distinctPoints seen ps
    else p :: distinctPoints ((p.number, p.subPoint) :: seen) ps

/-- The points of released routes that have locks and that no remaining route holds, each once. -/
def pointsToUnlock (remaining : Reservations) (released : List RouteCommand) :
    List PointCommand :=
  distinctPoints [] ((released.flatMap (·.points)).filter fun p ↦
    p.hasLock && !remaining.holds p.number)

end Reservations

end SignalBox
