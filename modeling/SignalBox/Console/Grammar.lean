import SignalBox.Command
import SignalBox.Config
import SignalBox.Console.Key

/-!
# The console grammar

What a finished entry means:

* `+-`, `//` and `**` are control commands;
* a number with an optional letter, and `+` or `-`, moves a point; the prefix in front marks flank
  protection;
* numbers parted by the divider, and `#`, `*` or `/`, set or release a route;
* a sign, a number and `#` turn the turntable.

Numbers that are missing or too large become 0.
-/

namespace SignalBox

/-- The characters of the grammar that can be chosen. -/
structure Grammar where
  /-- What parts the signals of a route. -/
  divider : Char
  /-- What marks a point as flank protection, in lower case. -/
  offRoutePrefix : Char
  deriving DecidableEq

/-- Whether a key ends an entry. -/
def isTerminator (c : Char) : Bool :=
  c = '+' || c = '-' || c = '#' || c = '*' || c = '/'

namespace Grammar

/-- The grammar of a configuration. -/
def ofConfig (c : ConsoleConfig) : Grammar :=
  { divider := c.divider, offRoutePrefix := c.offRoutePrefix.toLower }

/-- The grammar where nothing is chosen. -/
def standard : Grammar := .ofConfig .standard

/-- Whether a key can be part of an entry. -/
def accepts (g : Grammar) (c : Char) : Bool :=
  c.isAlphanum || c = g.divider || isTerminator c

/-- The runs between dividers; there is one more of them than dividers. -/
def fields (divider : Char) : List Char → List (List Char)
  | [] => [[]]
  | c :: cs =>
    if c = divider then [] :: fields divider cs
    else match fields divider cs with
      | [] => [[c]]
      | run :: runs => (c :: run) :: runs

/-- Takes the flank prefix off an entry; the flag says that there was none. -/
def splitFlankPrefix (g : Grammar) : List Char → Bool × List Char
  | c :: cs => if c.toLower = g.offRoutePrefix then (false, cs) else (true, c :: cs)
  | [] => (true, [])

/-- Reads a number with an optional letter as a command to a point. -/
def numbered? (onRoute : Bool) (position : Position) (body : List Char) : Option PointCommand :=
  let digits := body.takeWhile Char.isDigit
  let number := Decimal.word digits
  let command := if onRoute then PointCommand.plain number position
    else PointCommand.flank number position
  if digits.isEmpty then none
  else match body.dropWhile Char.isDigit with
    | [] => some command
    | [letter] => if letter.isAlpha then some (command.withSubPoint letter) else none
    | _ => none

/-- Reads what stands before a sign as a command to a point. -/
def point? (g : Grammar) (sign : Char) (body : List Char) : Option PointCommand :=
  let (onRoute, body) := g.splitFlankPrefix body
  numbered? onRoute (.ofSign sign) body

/-- The command for a route along the signals; a single one is the destination. -/
def routeAlong? (state : RouteState) : List UInt32 → Option RouteCommand
  | [] => none
  | [destination] => some (.plain 0 destination state)
  | start :: next :: rest =>
    some { RouteCommand.plain start ((next :: rest).getLast (by simp)) state with
      via := (next :: rest).dropLast }

/-- Reads what stands before a route terminator as a chain of signals. -/
def route? (g : Grammar) (terminator : Char) (body : List Char) : Option RouteCommand :=
  if body.all (fun c ↦ c.isDigit || c = g.divider) && body.any Char.isDigit then
    routeAlong? (.ofTerminator terminator) ((fields g.divider body).map Decimal.word)
  else none

/-- What becomes of the characters typed so far: they wait for more, or they are a complete entry
that is a command or nothing. -/
inductive Verdict
  | waiting
  | complete (command : Option Command)

/-- Judges the characters typed so far. A sign or a route terminator that stands alone may begin a
control or turntable entry, but a lone `#` cannot. -/
def classify (g : Grammar) (entry : List Char) : Verdict :=
  if entry = ['+', '-'] then .complete (some (.control .reload))
  else if entry = ['/', '/'] then .complete (some (.control .clearAllRoutes))
  else if entry = ['*', '*'] then .complete (some (.control .stopAllSignals))
  else match entry, entry.getLast? with
    | first :: rest, some last =>
      if !isTerminator last then .waiting
      else if rest.isEmpty then
        if last = '#' then .complete none else .waiting
      else if (first = '+' || first = '-') && last = '#' then
        .complete ((TurntableCommand.ofText? entry).map .turntable)
      else if last = '+' || last = '-' then
        .complete ((g.point? last entry.dropLast).map .point)
      else .complete ((g.route? last entry.dropLast).map .route)
    | _, _ => .waiting

end Grammar

end SignalBox
