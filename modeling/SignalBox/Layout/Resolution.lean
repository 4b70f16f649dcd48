import SignalBox.Layout.Definition

/-!
# Commands resolved against a layout

A typed command names a point; `resolvePoint?` adds the addresses and the lock that the layout has
for it. A route typed as a chain of signals gets its points from the definitions of its legs by
`expandRoute`.
-/

namespace SignalBox.Layout

/-- Whether a definition is meant by a command: it has the command's number, and its letter if the
command names one. -/
def means (command : PointCommand) (p : PointDefinition) : Bool :=
  p.number == command.number && (command.subPoint.isNone || p.subPoint == command.subPoint)

/-- Takes one definition into a command: its addresses for the position, and its lock unless the
command has one already. -/
def absorb (command : PointCommand) (p : PointDefinition) : PointCommand :=
  let locked := if 0 < p.lockOffset ∧ command.lockOffset = none then
      command.withLockOffset p.lockOffset
    else command
  locked.withAddresses (p.addressesFor locked.position)

/-- Adds addresses and lock to a command; none if no definition is meant by it. -/
def resolvePoint? (l : Layout) (command : PointCommand) : Option PointCommand :=
  match l.points.filter (means command) with
  | [] => none
  | definitions => some (definitions.foldl absorb command)

/-- The members of a list, each at its first place. -/
def distinct {α : Type} [DecidableEq α] (as : List α) : List α :=
  as.foldl (fun found a ↦ if a ∈ found then found else found ++ [a]) []

/-- The sub-points that a command covers: the one it names, or else every one that is defined. -/
def subPoints (l : Layout) (command : PointCommand) : List (Option Char) :=
  match command.subPoint with
  | some letter => [some letter]
  | none => distinct ((l.pointsNumbered command.number).map (·.subPoint))

/-- Whether a command repeats one that is there: they ask for the same, of the same sub-point, and
both or neither protect a flank. -/
def repeats (known : List PointCommand) (command : PointCommand) : Bool :=
  known.any fun k ↦
    k.asksSame command && k.subPoint == command.subPoint && k.onRoute == command.onRoute

/-- Appends the commands that do not repeat earlier ones. -/
def joinPoints (known added : List PointCommand) : List PointCommand :=
  added.foldl (fun known c ↦ if repeats known c then known else known ++ [c]) known

/-- The legs of a chain of signals: its consecutive pairs. -/
def legs (chain : List UInt32) : List (UInt32 × UInt32) :=
  chain.zip chain.tail

/-- Joins the points of the legs, or names the first leg that has no definition. -/
def legPoints (l : Layout) (known : List PointCommand) :
    List (UInt32 × UInt32) → Except (UInt32 × UInt32) (List PointCommand)
  | [] => .ok known
  | leg :: rest =>
    match l.route? leg.1 leg.2 with
    | none => .error leg
    | some definition =>
      l.legPoints (joinPoints known (definition.points.map RoutePoint.command)) rest

/-- Gives a route the points of its legs, or names the first leg that has no definition. -/
def expandRoute (l : Layout) (route : RouteCommand) : Except (UInt32 × UInt32) RouteCommand :=
  (l.legPoints [] (legs route.signalChain)).map fun points ↦ { route with points := points }

/-- Resolves the points of a route that have a position, or names the first unknown one. -/
def resolveRoute (l : Layout) (route : RouteCommand) : Except UInt32 RouteCommand :=
  let resolve (command : PointCommand) : Except UInt32 PointCommand :=
    if command.isUndefined then .ok command
    else match l.resolvePoint? command with
      | some resolved => .ok resolved
      | none => .error command.number
  (route.points.mapM resolve).map fun points ↦ { route with points := points }

end SignalBox.Layout
