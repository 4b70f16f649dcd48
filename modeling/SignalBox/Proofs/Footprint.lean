import SignalBox.Dispatch.Execute

/-!
# What the steps of a command touch

Each operation on a yard changes few of its fields. The lemmas here name these fields once, as an
equation for the yard afterwards, so that every other field can be read off: a write touches the
line and the cancellations, an announcement the channel, the end of a delivery the channel and the
positions. Active routes are changed by no step of a delivery that goes well; a delivery that fails
withdraws the route that it was to set, and nothing else (`abandon_eq`).
-/

namespace SignalBox

namespace Yard

variable (y : Yard) (token : Token)

/-! ### Writes -/

theorem write_eq (frame : Except (List UInt8) Frame) :
    ∃ line setOff, (y.write frame).1 = { y with line := line, setOff := setOff } := by
  rw [write]
  dsimp only
  split
  · exact ⟨_, _, rfl⟩
  · exact ⟨_, y.setOff, rfl⟩

theorem sendBytes_eq (bytes : List UInt8) :
    ∃ line setOff, (y.sendBytes bytes).1 = { y with line := line, setOff := setOff } := by
  rw [sendBytes]
  split <;> exact write_eq y _

end Yard

theorem Delivery.step_eq (y : Yard) (d : Delivery) :
    ∃ line setOff, (d.step y).1 = { y with line := line, setOff := setOff } := by
  rw [step]
  split
  · exact ⟨y.line, y.setOff, rfl⟩
  · split
    · exact ⟨y.line, y.setOff, rfl⟩
    · -- the wait is over, so the next frame is written
      have hw := y.write_eq (.ok d.frame)
      rw [Yard.sendFrame]
      split
      next he => rwa [he] at hw
      next he => rwa [he] at hw

namespace Yard

variable (y : Yard) (token : Token)

/-! ### Announcements -/

theorem announceCleared_eq (removed : List RouteCommand) :
    ∃ channel, y.announceCleared removed = { y with channel := channel } := by
  rw [announceCleared]
  induction removed generalizing y with
  | nil => exact ⟨y.channel, rfl⟩
  | cons r removed ih => exact ih (y.publish (.route r.start r.destination .cleared))

theorem showSignals_eq (count : Nat) (signals : List SignalCommand) :
    ∃ channel, (y.showSignals token count signals).1 = { y with channel := channel } := by
  fun_induction showSignals y token count signals with
  | case1 y => exact ⟨y.channel, rfl⟩
  | case2 y => exact ⟨y.channel, rfl⟩
  | case3 y signal rest _ ih => exact ih
  | case4 y => exact ⟨y.channel, rfl⟩

/-! ### Ends of deliveries -/

/-- The positions that are recorded when all frames of a command have been sent. -/
def positionsAfter (y : Yard) : Purpose → Positions
  | .movePoint _ keys position => y.positions.recordAll position keys
  | .setRoute layout _ resolved => (y.recordRoute layout resolved).positions
  | _ => y.positions

theorem finish_eq (purpose : Purpose) :
    ∃ channel, (y.finish token purpose).1 =
      { y with channel := channel, positions := y.positionsAfter purpose } := by
  cases purpose with
  | movePoint number keys position => exact ⟨_, rfl⟩
  | setRoute layout request resolved => exact ⟨_, rfl⟩
  | release request removed => exact y.announceCleared_eq removed
  | clearAll => exact ⟨_, rfl⟩
  | showSignal signal => exact ⟨_, rfl⟩
  | turn track => exact ⟨_, rfl⟩
  | stopSignals signal rest count => exact (y.announce signal true).showSignals_eq token count rest

/-- What remains of the active routes when a delivery has failed. -/
def afterFailure (active : Reservations) : Purpose → Reservations
  | .setRoute _ request _ => active.without request
  | _ => active

theorem abandon_eq (failure : Failure) (purpose : Purpose) :
    ∃ channel, (y.abandon failure purpose).1 =
      { y with channel := channel, active := afterFailure y.active purpose } := by
  cases purpose with
  | showSignal signal => exact ⟨y.channel, rfl⟩
  | stopSignals signal rest count => exact ⟨y.channel, rfl⟩
  | _ => exact ⟨_, rfl⟩

theorem abandon_snd (failure : Failure) (purpose : Purpose) :
    (y.abandon failure purpose).2 = .done (.error failure) := by
  cases purpose <;> rfl

theorem active_finish (purpose : Purpose) : (y.finish token purpose).1.active = y.active := by
  obtain ⟨channel, h⟩ := y.finish_eq token purpose
  rw [h]

theorem active_abandon (failure : Failure) (purpose : Purpose) :
    (y.abandon failure purpose).1.active = afterFailure y.active purpose := by
  obtain ⟨channel, h⟩ := y.abandon_eq failure purpose
  rw [h]

theorem active_deliver (purpose : Purpose) (frames : List Frame) :
    (y.deliver token purpose frames).1.active = y.active := by
  cases frames with
  | nil => exact y.active_finish token purpose
  | cons frame rest => rfl

end Yard

/-! ### Steps of commands in flight -/

namespace Activity

variable (y : Yard) (a : Activity)

/-- The next step of a command ends it because its delivery fails. -/
def Fails (y : Yard) (a : Activity) : Prop :=
  ∃ failure, (a.delivery.step y).2 = .failed failure

theorem active_delivery_step : (a.delivery.step y).1.active = y.active := by
  obtain ⟨line, setOff, h⟩ := a.delivery.step_eq y
  rw [h]

/-- **Active routes under a step.** A step that fails withdraws the route that was to be set; any
other step leaves the active routes as they are. -/
theorem active_step_of_fails (h : a.Fails y) :
    (a.step y).1.active = Yard.afterFailure y.active a.purpose := by
  obtain ⟨failure, h⟩ := h
  have hd := a.active_delivery_step y
  rw [step]
  split
  next hs => simp [hs] at h
  next y' failure' hs =>
    rw [hs] at hd
    rw [Yard.active_abandon, show y'.active = y.active from hd]
  next hs => simp [hs] at h

theorem active_step_of_not_fails (h : ¬ a.Fails y) : (a.step y).1.active = y.active := by
  have hd := a.active_delivery_step y
  rw [step]
  split
  next y' delivery hs => rwa [hs] at hd
  next y' failure hs => exact absurd ⟨failure, by rw [hs]⟩ h
  next y' hs =>
    rw [hs] at hd
    rw [Yard.active_finish, hd]

end Activity

end SignalBox
