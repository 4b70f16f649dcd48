import SignalBox.Dispatch.Failure
import SignalBox.Dispatch.Yard

/-!
# Delivery of frames

The frames of one command are sent in order. Before each there is a pause, and the write itself
takes time; during both the command can be cancelled, and other commands go on. A delivery is the
state of this between two steps, and `step` is what happens when its wait is over or its token has
been set off: cancellation comes first, then the write begins or the frame reaches the line.
-/

namespace SignalBox

/-- What a delivery waits for: the end of the pause, or of the write. -/
inductive Wait
  | pause (due : Nat)
  | write (due : Nat)
  deriving DecidableEq

/-- The time at which a wait is over. -/
def Wait.due : Wait → Nat
  | pause due => due
  | write due => due

/-- A delivery under way. -/
structure Delivery where
  /-- What may cancel it. -/
  token : Token
  /-- The number of frames that the line has accepted. -/
  sent : Nat
  /-- The frame at hand. -/
  frame : Frame
  /-- The frames after it. -/
  rest : List Frame
  /-- What it waits for. -/
  wait : Wait
  deriving DecidableEq

namespace Delivery

/-- The start of a delivery. -/
def start (y : Yard) (token : Token) (frame : Frame) (rest : List Frame) : Delivery :=
  { token, sent := 0, frame, rest, wait := .pause (y.now + y.delay) }

/-- Whether the next step can be taken. -/
def isReady (y : Yard) (d : Delivery) : Bool :=
  y.isCancelled d.token || d.wait.due ≤ y.now

/-- Whether it has come to a write that takes no time. -/
def isImmediate (y : Yard) (d : Delivery) : Bool :=
  match d.wait with
  | .pause _ => false
  | .write due => due ≤ y.now

/-- How a delivery stands after a step: it goes on, it failed, or all frames have been sent. -/
inductive Status
  | underWay (delivery : Delivery)
  | failed (failure : Failure)
  | complete
  deriving DecidableEq

/-- What follows a frame that the line has accepted. -/
def advance (y : Yard) (d : Delivery) : Status :=
  match d.rest with
  | [] => .complete
  | frame :: rest =>
    .underWay { d with sent := d.sent + 1, frame := frame, rest := rest
                       wait := .pause (y.now + y.delay) }

/-- One step of a delivery that is ready. -/
def step (y : Yard) (d : Delivery) : Yard × Status :=
  if y.isCancelled d.token then (y, .failed (.cancelled d.sent))
  else match d.wait with
    | .pause _ => (y, .underWay { d with wait := .write (y.dueAfter y.line.faults.latency) })
    | .write _ =>
      match y.sendFrame d.frame with
      | (y, some cause) => (y, .failed (.transport d.sent cause))
      | (y, none) => (y, d.advance y)

/-- The number of steps left. -/
def stepsLeft (d : Delivery) : Nat :=
  2 * d.rest.length + match d.wait with
    | .pause _ => 2
    | .write _ => 1

theorem stepsLeft_lt_of_step {y y' : Yard} {d d' : Delivery}
    (h : d.step y = (y', .underWay d')) : d'.stepsLeft < d.stepsLeft := by
  unfold step at h
  split at h
  · simp at h
  · split at h
    next hw =>
      simp only [Prod.mk.injEq, Status.underWay.injEq] at h
      obtain ⟨-, rfl⟩ := h
      simp [stepsLeft, hw]
    next hw =>
      split at h
      · simp at h
      · simp only [Prod.mk.injEq] at h
        obtain ⟨rfl, h⟩ := h
        unfold advance at h
        split at h
        · simp at h
        next hr =>
          simp only [Status.underWay.injEq] at h
          subst h
          simp only [stepsLeft, hw, hr, List.length_cons]
          omega

theorem stepsLeft_pos (d : Delivery) : 0 < d.stepsLeft := by
  unfold stepsLeft
  split <;> omega

/-- What is ready stays ready as time goes on. -/
theorem isReady_waitUntil {y : Yard} {d : Delivery} (time : Nat) (h : d.isReady y = true) :
    d.isReady (y.waitUntil time) = true := by
  simp only [isReady, Bool.or_eq_true, decide_eq_true_eq] at h ⊢
  exact h.imp id fun h ↦ Nat.le_trans h (Nat.le_max_left _ _)

/-- A delivery is ready at the time for which it waits. -/
theorem isReady_waitUntil_due (y : Yard) (d : Delivery) :
    d.isReady (y.waitUntil d.wait.due) = true := by
  rw [isReady, Bool.or_eq_true]
  exact .inr (decide_eq_true (Nat.le_max_right _ _))

end Delivery

end SignalBox
