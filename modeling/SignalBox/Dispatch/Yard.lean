import SignalBox.Bus.Line
import SignalBox.Dispatch.Positions
import SignalBox.Layout.LayoutIndex
import SignalBox.Notice.Channel
import SignalBox.Reservations

/-!
# The yard

What all commands in flight share: the current layout, the active routes, the recorded positions,
the notice channel, the bus line, the cancellations that have been set off, the time, and what is
left of the present turn.
-/

namespace SignalBox

/-- A layout with its index. -/
structure Plan where
  /-- The layout. -/
  layout : Layout
  /-- Its index, made once. -/
  index : LayoutIndex
  /-- The index is that of the layout. -/
  index_eq : index = .ofLayout layout

/-- The plan of a layout. -/
def Plan.ofLayout (layout : Layout) : Plan :=
  { layout, index := .ofLayout layout, index_eq := rfl }

/-- What may cancel a command: nothing, or the cancellation of the given number, or nothing any
more, because the one cancellation that could do it is gone. -/
inductive Token
  | never
  | on (cancellation : Nat)
  | orphaned
  deriving DecidableEq

/-- The shared state. All times are in milliseconds. -/
structure Yard where
  /-- The pause before each frame, which is configured in 32 bits and so is within
  `Yard.longestWait`. -/
  delay : Nat
  /-- The current layout. -/
  plan : Plan
  /-- The active routes, those on their way to being set among them. -/
  active : Reservations
  /-- The recorded positions. -/
  positions : Positions
  /-- Where notices are published. -/
  channel : Channel
  /-- Where frames are written. -/
  line : BusLine
  /-- The cancellations that have been set off. -/
  setOff : List Nat
  /-- The time since the start. -/
  now : Nat
  /-- How many waits may still end in the present turn. -/
  allowance : Nat

namespace Yard

/-- The number of waits that may end in one turn. -/
def turnLength : Nat := 128

/-- The longest time that anything waits, about thirty years. A wait that is meant to be longer ends
then. -/
def longestWait : Nat := 30 * 365 * 24 * 60 * 60 * 1000

/-- A yard in which nothing has happened. -/
def start (layout : Layout) (delay capacity : Nat) (faults : BusFaults) : Yard :=
  { delay, plan := .ofLayout layout, active := .empty, positions := .empty
    channel := .ofCapacity capacity, line := .ofFaults faults, setOff := [], now := 0
    allowance := turnLength }

/-- The current layout. -/
def layout (y : Yard) : Layout := y.plan.layout

/-- Installs a layout. Active routes and recorded positions are kept, and commands in flight finish
with the layout that they started with. -/
def replaceLayout (y : Yard) (layout : Layout) : Yard :=
  { y with plan := .ofLayout layout }

/-- Changes the active routes. -/
def withActive (y : Yard) (active : Reservations) : Yard :=
  { y with active := active }

/-- Publishes a notice. -/
def publish (y : Yard) (notice : Notice) : Yard :=
  { y with channel := y.channel.publish notice }

/-- Moves the time on, unless it is past the given one already. -/
def waitUntil (y : Yard) (time : Nat) : Yard :=
  { y with now := max y.now time }

/-- The time at which a wait that begins now is over. -/
def dueAfter (y : Yard) (duration : Nat) : Nat :=
  y.now + min duration longestWait

/-- Counts a wait that ends in the present turn. -/
def spend (y : Yard) : Yard :=
  { y with allowance := y.allowance - 1 }

/-- Starts to listen for what a token stands for. That it is gone for good is found out at once. -/
def listen (y : Yard) : Token → Yard
  | .orphaned => y.spend
  | _ => y

/-- Begins the next turn. -/
def nextTurn (y : Yard) : Yard :=
  { y with allowance := turnLength }

/-- Sets off a cancellation, once and for all. -/
def cancel (y : Yard) (cancellation : Nat) : Yard :=
  { y with setOff := cancellation :: y.setOff }

/-- Whether a token has been set off. -/
def isCancelled (y : Yard) : Token → Bool
  | .never => false
  | .on cancellation => y.setOff.contains cancellation
  | .orphaned => false

/-- Writes a frame, or bytes that are none, to the line; a frame that is accepted may set off a
cancellation. -/
def write (y : Yard) (frame : Except (List UInt8) Frame) : Yard × Option BusError :=
  let (line, error) := y.line.write frame y.now
  let written := { y with line := line }
  match error, line.setsOff? with
  | none, some cancellation => (written.cancel cancellation, none)
  | error, _ => (written, error)

/-- Writes a frame to the line. -/
def sendFrame (y : Yard) (frame : Frame) : Yard × Option BusError :=
  y.write (.ok frame)

/-- Writes bytes to the line. -/
def sendBytes (y : Yard) (bytes : List UInt8) : Yard × Option BusError :=
  match Frame.decode bytes with
  | some frame => y.write (.ok frame)
  | none => y.write (.error bytes)

end Yard

end SignalBox
