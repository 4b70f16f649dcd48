import SignalBox.Bus.Frame

/-!
# The bus line

The line checks each frame written to it and keeps a record of those it accepted. Faults can be
built in: one write, counted from the first, is refused, and a cancellation is set off as soon as a
given number of frames has been accepted. Each write takes some time.
-/

namespace SignalBox

/-- Why a write failed: it was to be refused, or the bytes are not a frame. -/
inductive BusError
  | refused (attempt : Nat)
  | malformed (bytes : List UInt8)
  deriving DecidableEq

/-- The message for a failed write. -/
def BusError.message : BusError → String
  | refused attempt => "bus refused frame " ++ Decimal.text attempt
  | malformed bytes => "malformed frame " ++ Frame.hexList ", " bytes

/-- What is wrong with a line. -/
structure BusFaults where
  /-- The write that the line refuses, counted from 0. -/
  refuseAt : Option Nat
  /-- The number of accepted frames that sets off a cancellation, and which one. -/
  cancelAfter : Option (Nat × Nat)
  /-- The time that a write takes. -/
  latency : Nat
  deriving DecidableEq

/-- A line that accepts everything at once. -/
def BusFaults.none : BusFaults :=
  { refuseAt := .none, cancelAfter := .none, latency := 0 }

/-- A frame that was accepted, and when. -/
structure AcceptedFrame where
  frame : Frame
  time : Nat
  deriving DecidableEq

/-- The state of the line. -/
structure BusLine where
  /-- What is wrong with it. -/
  faults : BusFaults
  /-- The number of writes so far, whatever became of them. -/
  attempts : Nat
  /-- The frames that were accepted, oldest first. -/
  accepted : List AcceptedFrame
  deriving DecidableEq

namespace BusLine

/-- A line to which nothing has been written. -/
def ofFaults (faults : BusFaults) : BusLine :=
  { faults, attempts := 0, accepted := [] }

/-- Forgets everything written so far. -/
def reset (b : BusLine) : BusLine := ofFaults b.faults

/-- Writes a frame, or bytes that are none, at a given time. -/
def write (b : BusLine) (frame : Except (List UInt8) Frame) (time : Nat) :
    BusLine × Option BusError :=
  let tried := { b with attempts := b.attempts + 1 }
  if b.faults.refuseAt = some b.attempts then (tried, some (.refused b.attempts))
  else match frame with
    | .error bytes => (tried, some (.malformed bytes))
    | .ok frame => ({ tried with accepted := b.accepted ++ [⟨frame, time⟩] }, none)

/-- The cancellation that the line sets off now, just after it has accepted a frame. -/
def setsOff? (b : BusLine) : Option Nat :=
  b.faults.cancelAfter.bind fun fault ↦
    if b.accepted.length = fault.1 then some fault.2 else none

end BusLine

end SignalBox
