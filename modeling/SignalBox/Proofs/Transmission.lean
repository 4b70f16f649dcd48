import SignalBox.Proofs.ActiveRoutes
import SignalBox.Proofs.Sequence

/-!
# What a move sends

The record of the line only gets longer, so what a move has sent is what the record has gained by
it (`Traffic.sentIn`). Few moves send anything: bytes that are written as such, and a command in
flight whose write is over, which sends the one frame that it has at hand unless it is cancelled or
the line refuses the frame (`Traffic.Delivers`).

* **One step of a command in flight** is one of six things (`Activity.Goes`), each with what must
  hold for it. A step that sends is one of the last two, and `Activity.Delivers` says when it is
  taken.
* **What does not come back**: the pause before a frame stays as it is, time goes on, and neither a
  cancellation nor an accepted frame is undone (`Yard.Grows`). Every move keeps to this.
-/

namespace SignalBox

namespace Yard

/-- The line refuses the next write. -/
def Refuses (y : Yard) : Prop :=
  y.line.faults.refuseAt = some y.line.attempts

/-- What does not come back: the pause stays, time goes on, and neither cancellations nor accepted
frames are undone. -/
structure Grows (y z : Yard) : Prop where
  delay_eq : z.delay = y.delay
  now_le : y.now ≤ z.now
  setOff_subset : y.setOff ⊆ z.setOff
  accepted_grows : y.line.accepted <+: z.line.accepted

/-- Some frames have been sent. Nothing else that is shared has changed, except by going on. -/
structure Sends (y : Yard) (sent : List AcceptedFrame) (z : Yard) : Prop where
  passes : y.Passes sent z
  grows : y.Grows z

variable {x y z : Yard}

theorem Grows.refl (y : Yard) : y.Grows y :=
  ⟨rfl, Nat.le_refl _, List.Subset.refl _, List.prefix_refl _⟩

theorem Grows.trans (h₁ : x.Grows y) (h₂ : y.Grows z) : x.Grows z where
  delay_eq := h₂.delay_eq.trans h₁.delay_eq
  now_le := Nat.le_trans h₁.now_le h₂.now_le
  setOff_subset := List.Subset.trans h₁.setOff_subset h₂.setOff_subset
  accepted_grows := h₁.accepted_grows.trans h₂.accepted_grows

/-- A token that has been set off stays so. -/
theorem Grows.isCancelled {token : Token} (h : y.Grows z) (hc : y.isCancelled token = true) :
    z.isCancelled token = true := by
  cases token with
  | on cancellation =>
    exact List.contains_iff_mem.2 (h.setOff_subset (List.contains_iff_mem.1 hc))
  | _ => cases hc

theorem Sends.refl (y : Yard) : y.Sends [] y := ⟨.refl y, .refl y⟩

theorem Sends.trans {first second : List AcceptedFrame} (h₁ : x.Sends first y)
    (h₂ : y.Sends second z) : x.Sends (first ++ second) z :=
  ⟨Passes.trans h₁.passes h₂.passes, h₁.grows.trans h₂.grows⟩

/-- Neither the number of attempts nor what is left of the turn matters. -/
theorem sends_with (y : Yard) (attempts allowance : Nat) :
    y.Sends [] { y with line := { y.line with attempts := attempts }, allowance := allowance } :=
  ⟨⟨rfl, rfl, rfl, (List.append_nil _).symm⟩, rfl, Nat.le_refl _, List.Subset.refl _,
    List.prefix_refl _⟩

theorem sends_withAllowance (y : Yard) (allowance : Nat) :
    y.Sends [] { y with allowance := allowance } :=
  y.sends_with y.line.attempts allowance

theorem listen_eq (y : Yard) (token : Token) :
    ∃ allowance, y.listen token = { y with allowance := allowance } := by
  cases token with
  | orphaned => exact ⟨_, rfl⟩
  | _ => exact ⟨y.allowance, rfl⟩

/-! ### Writes -/

/-- A write that is refused is counted, and leaves nothing else. -/
theorem sendFrame_of_refuses (h : y.Refuses) (frame : Frame) :
    y.sendFrame frame = ({ y with line := { y.line with attempts := y.line.attempts + 1 } },
      some (.refused y.line.attempts)) := by
  rw [sendFrame, write]
  simp only [BusLine.write, if_pos (show y.line.faults.refuseAt = some y.line.attempts from h)]

/-- A write that is not refused is recorded with its time, and may set off a cancellation. -/
theorem sendFrame_of_not_refuses (h : ¬ y.Refuses) (frame : Frame) :
    ∃ setOff, y.setOff ⊆ setOff ∧ y.sendFrame frame =
      ({ y with
          line := { y.line with attempts := y.line.attempts + 1
                                accepted := y.line.accepted ++ [⟨frame, y.now⟩] }
          setOff := setOff }, none) := by
  rw [sendFrame, write]
  simp only [BusLine.write, if_neg (show ¬ y.line.faults.refuseAt = some y.line.attempts from h)]
  split
  · exact ⟨_, List.subset_cons_self _ _, rfl⟩
  · exact ⟨y.setOff, List.Subset.refl _, rfl⟩

theorem sends_of_refuses (frame : Frame) (h : y.Refuses) :
    ∃ z, y.sendFrame frame = (z, some (.refused y.line.attempts)) ∧ y.Sends [] z :=
  ⟨_, sendFrame_of_refuses h frame, y.sends_with _ y.allowance⟩

theorem sends_of_not_refuses (frame : Frame) (h : ¬ y.Refuses) :
    ∃ z, y.sendFrame frame = (z, none) ∧ y.Sends [⟨frame, y.now⟩] z ∧ z.now = y.now := by
  obtain ⟨setOff, hsub, hs⟩ := sendFrame_of_not_refuses h frame
  exact ⟨_, hs, ⟨⟨rfl, rfl, rfl, rfl⟩, rfl, Nat.le_refl _, hsub, List.prefix_append _ _⟩, rfl⟩

/-- Bytes are recorded if they are a frame, and then as one that sets. -/
theorem sends_sendBytes (y : Yard) (bytes : List UInt8) :
    ∃ sent, y.Sends sent (y.sendBytes bytes).1 ∧ ∀ f ∈ sent, f.frame.kind = .set := by
  rw [sendBytes]
  split
  next frame hdecode =>
    show ∃ sent, y.Sends sent (y.sendFrame frame).1 ∧ ∀ f ∈ sent, f.frame.kind = .set
    by_cases hrefuses : y.Refuses
    · obtain ⟨z, hs, hz⟩ := sends_of_refuses frame hrefuses
      exact ⟨[], hs ▸ hz, by simp⟩
    · obtain ⟨z, hs, hz, -⟩ := sends_of_not_refuses frame hrefuses
      refine ⟨[⟨frame, y.now⟩], by rwa [hs], fun f hf ↦ ?_⟩
      rw [List.mem_singleton.1 hf]
      exact (Frame.decode_eq_some_iff.1 hdecode).1
  next =>
    -- bytes that are no frame only count as an attempt
    have hkeeps : y.Sends [] { y with line := { y.line with attempts := y.line.attempts + 1 } } :=
      y.sends_with _ y.allowance
    refine ⟨[], ?_, by simp⟩
    rw [write]
    by_cases hrefuses : y.line.faults.refuseAt = some y.line.attempts
    · simp only [BusLine.write, if_pos hrefuses]
      exact hkeeps
    · simp only [BusLine.write, if_neg hrefuses]
      exact hkeeps

/-- Only frames that set have been sent, and none at all unless bytes are written as such. -/
def Writes (y : Yard) (asSuch : Prop) (z : Yard) : Prop :=
  y.Grows z ∧ ∃ sent, z.line.accepted = y.line.accepted ++ sent ∧
    (∀ f ∈ sent, f.frame.kind = .set) ∧ (¬ asSuch → sent = [])

/-! ### What sends nothing -/

/-- Only the channel, the active routes and the recorded positions have changed. -/
def Decides (y z : Yard) : Prop :=
  ∃ channel active positions, z =
    { y with channel := channel, active := active, positions := positions }

theorem Decides.plan_eq (h : y.Decides z) : z.plan = y.plan := by
  obtain ⟨channel, active, positions, rfl⟩ := h
  rfl

theorem Decides.sends (h : y.Decides z) : y.Grows z ∧ z.line.accepted = y.line.accepted := by
  obtain ⟨channel, active, positions, rfl⟩ := h
  exact ⟨⟨rfl, Nat.le_refl _, List.Subset.refl _, List.prefix_refl _⟩, rfl⟩

theorem decides_publish (y : Yard) (notice : Notice) : y.Decides (y.publish notice) :=
  ⟨_, _, _, rfl⟩

theorem decides_finish (y : Yard) (token : Token) (purpose : Purpose) :
    y.Decides (y.finish token purpose).1 := by
  obtain ⟨channel, h⟩ := y.finish_eq token purpose
  exact ⟨channel, y.active, _, h⟩

theorem decides_abandon (y : Yard) (failure : Failure) (purpose : Purpose) :
    y.Decides (y.abandon failure purpose).1 := by
  obtain ⟨channel, h⟩ := y.abandon_eq failure purpose
  exact ⟨channel, _, y.positions, h⟩

theorem decides_deliver (y : Yard) (token : Token) (purpose : Purpose) (frames : List Frame) :
    y.Decides (y.deliver token purpose frames).1 := by
  cases frames with
  | nil => exact y.decides_finish token purpose
  | cons frame rest => exact ⟨_, _, _, rfl⟩

theorem decides_showSignals (y : Yard) (token : Token) (count : Nat)
    (signals : List SignalCommand) : y.Decides (y.showSignals token count signals).1 := by
  obtain ⟨channel, h⟩ := y.showSignals_eq token count signals
  exact ⟨channel, _, _, h⟩

/-- What is decided after the active routes have been changed. -/
theorem Decides.of_withActive {active : Reservations} (h : (y.withActive active).Decides z) :
    y.Decides z := by
  obtain ⟨channel, active, positions, rfl⟩ := h
  exact ⟨channel, active, positions, rfl⟩

theorem decides_startSignal (y : Yard) (token : Token) (signal : SignalCommand) :
    y.Decides (y.startSignal token signal).1 := by
  rw [startSignal]
  split
  · exact ⟨_, _, _, rfl⟩
  · exact y.decides_publish _
  · exact y.decides_deliver _ _ _

theorem decides_startRoute (y : Yard) (token : Token) (request : RouteCommand) :
    y.Decides (y.startRoute token request).1 := by
  rw [startRoute]
  split
  · rcases y.setRoute_cases token request with
        ⟨reason, h⟩ | ⟨cause, h⟩ | ⟨route, resolved, frames, -, h⟩
    · exact h ▸ y.decides_publish _
    · exact h ▸ y.decides_publish _
    · exact h ▸ (decides_deliver _ _ _ _).of_withActive
  · split
    · rcases y.releaseRoute_cases token request with ⟨-, h⟩ | ⟨-, ⟨cause, -, h⟩ | ⟨frames, -, h⟩⟩
      · exact h ▸ (decides_publish _ _).of_withActive
      · exact h ▸ (decides_publish _ _).of_withActive
      · exact h ▸ (decides_deliver _ _ _ _).of_withActive
    · exact y.decides_publish _

/-- **Beginnings** of commands send nothing. -/
theorem decides_startCommand (y : Yard) (token : Token) (command : Command) :
    y.Decides (y.startCommand token command).1 := by
  cases command with
  | point command =>
    rw [startCommand]
    rcases y.startPoint_cases token command with
        ⟨outcome, -, h⟩ | ⟨cause, h⟩ | ⟨point, frames, -, h⟩
    · exact h ▸ y.decides_publish _
    · exact h ▸ y.decides_publish _
    · exact h ▸ y.decides_deliver _ _ _
  | route request => exact y.decides_startRoute token request
  | turntable command =>
    rw [startCommand, startTurntable]
    split
    · exact y.decides_publish _
    · split
      · exact y.decides_publish _
      · exact y.decides_deliver _ _ _
  | control command =>
    cases command with
    | reload => exact y.decides_publish _
    | clearAllRoutes =>
      rw [startCommand]
      rcases y.clearAllRoutes_cases token with ⟨cause, -, h⟩ | ⟨frames, -, h⟩
      · exact h ▸ (decides_publish _ _).of_withActive
      · exact h ▸ (decides_deliver _ _ _ _).of_withActive
    | stopAllSignals => exact y.decides_showSignals token _ _

end Yard

theorem Task.ofProgress_fst (p : Yard × Progress) : (ofProgress p).1 = p.1 := by
  obtain ⟨y, progress⟩ := p
  cases progress <;> rfl

theorem Task.ofProgress_snd_of_done {p : Yard × Progress} {result : Except Failure Outcome}
    (h : p.2 = .done result) : (ofProgress p).2 = .ended (.command result) p.1.now := by
  obtain ⟨y, progress⟩ := p
  cases h
  rfl

/-! ### One step of a command in flight -/

namespace Activity

/-- The next step of a command in flight sends the frame at hand: the command is not cancelled, the
write is over, and the line does not refuse it. -/
structure Delivers (y : Yard) (a : Activity) : Prop where
  going : y.isCancelled a.delivery.token = false
  due : ∃ due, a.delivery.wait = .write due ∧ due ≤ y.now
  accepts : ¬ y.Refuses

/-- What the next step of a command in flight makes of it and of the yard. -/
inductive Goes (y : Yard) (a : Activity) : Yard × Task → Prop
  /-- It has looked for its cancellation, and goes on waiting. -/
  | listens {z : Yard} (hz : y.Sends [] z) (hidle : ¬ a.Delivers y) : Goes y a (z, .inFlight a true)
  /-- It has been cancelled. -/
  | cancelled {z : Yard} (hz : y.Sends [] z) (hset : y.isCancelled a.delivery.token = true) :
      Goes y a (Task.ofProgress (z.abandon (.cancelled a.delivery.sent) a.purpose))
  /-- The pause is over, and the write begins. -/
  | writes {z : Yard} {due due' : Nat} (hz : y.Sends [] z) (hwait : a.delivery.wait = .pause due)
      (hdue : due ≤ y.now) :
      Goes y a (z, .inFlight { a with delivery := { a.delivery with wait := .write due' } } false)
  /-- The line refuses the frame at hand. -/
  | refused {z : Yard} (hz : y.Sends [] z) (hrefuses : y.Refuses) :
      Goes y a (Task.ofProgress
        (z.abandon (.transport a.delivery.sent (.refused y.line.attempts)) a.purpose))
  /-- The frame at hand is sent, and the pause before the next one begins. -/
  | sends {z : Yard} {frame : Frame} {rest : List Frame}
      (hz : y.Sends [⟨a.delivery.frame, y.now⟩] z) (hdelivers : a.Delivers y)
      (hrest : a.delivery.rest = frame :: rest) :
      Goes y a (z, .inFlight { a with
        delivery := { a.delivery with sent := a.delivery.sent + 1, frame := frame, rest := rest
                                      wait := .pause (y.now + y.delay) } } false)
  /-- The last frame is sent. -/
  | completes {z : Yard} (hz : y.Sends [⟨a.delivery.frame, y.now⟩] z) (hdelivers : a.Delivers y)
      (hrest : a.delivery.rest = []) :
      Goes y a (Task.ofProgress (z.finish a.delivery.token a.purpose))

variable {y : Yard} {a : Activity}

theorem step_of_cancelled (h : y.isCancelled a.delivery.token = true) :
    a.step y = y.abandon (.cancelled a.delivery.sent) a.purpose := by
  rw [step, Delivery.step, if_pos h]

theorem step_of_pause {due : Nat} (h : y.isCancelled a.delivery.token = false)
    (hwait : a.delivery.wait = .pause due) :
    ∃ due', a.step y =
      (y, .underWay { a with delivery := { a.delivery with wait := .write due' } }) := by
  rw [step, Delivery.step, h, if_neg Bool.false_ne_true, hwait]
  exact ⟨_, rfl⟩

theorem step_of_refused {z : Yard} {due : Nat} {cause : BusError}
    (h : y.isCancelled a.delivery.token = false) (hwait : a.delivery.wait = .write due)
    (hs : y.sendFrame a.delivery.frame = (z, some cause)) :
    a.step y = z.abandon (.transport a.delivery.sent cause) a.purpose := by
  rw [step, Delivery.step, h, if_neg Bool.false_ne_true, hwait]
  dsimp only
  rw [hs]

theorem step_of_sent {z : Yard} {due : Nat} (h : y.isCancelled a.delivery.token = false)
    (hwait : a.delivery.wait = .write due) (hs : y.sendFrame a.delivery.frame = (z, none)) :
    a.step y = match a.delivery.rest with
      | [] => z.finish a.delivery.token a.purpose
      | frame :: rest => (z, .underWay { a with
        delivery := { a.delivery with sent := a.delivery.sent + 1, frame := frame, rest := rest
                                      wait := .pause (z.now + z.delay) } }) := by
  rw [step, Delivery.step, h, if_neg Bool.false_ne_true, hwait]
  dsimp only
  rw [hs]
  dsimp only
  rw [Delivery.advance]
  cases a.delivery.rest <;> rfl

/-- A command that is ready takes its next step, in a yard that may differ in what is left of the
turn. -/
theorem goes_activity_step {z : Yard} (allowance : Nat) (hz : z = { y with allowance := allowance })
    (hready : a.isReady y = true) : a.Goes y (Task.ofProgress (a.step z)) := by
  have hsends : y.Sends [] z := hz ▸ y.sends_withAllowance allowance
  have hcancelled : z.isCancelled a.delivery.token = y.isCancelled a.delivery.token := hz ▸ rfl
  have hrefuses : z.Refuses ↔ y.Refuses := hz ▸ Iff.rfl
  have hattempts : z.line.attempts = y.line.attempts := hz ▸ rfl
  have hnow : z.now = y.now := hz ▸ rfl
  cases hset : y.isCancelled a.delivery.token with
  | true =>
    rw [step_of_cancelled (hcancelled.trans hset)]
    exact .cancelled hsends hset
  | false =>
    have hdue : a.delivery.wait.due ≤ y.now := by
      simpa [isReady, Delivery.isReady, hset] using hready
    cases hwait : a.delivery.wait with
    | pause due =>
      rw [hwait] at hdue
      obtain ⟨due', hs⟩ := step_of_pause (hcancelled.trans hset) hwait
      rw [hs]
      exact .writes hsends hwait hdue
    | write due =>
      rw [hwait] at hdue
      by_cases hr : y.Refuses
      · obtain ⟨w, hs, hw⟩ := Yard.sends_of_refuses a.delivery.frame (hrefuses.2 hr)
        rw [step_of_refused (hcancelled.trans hset) hwait hs, hattempts]
        exact .refused (hsends.trans hw) hr
      · have hdelivers : a.Delivers y := ⟨hset, ⟨due, hwait, hdue⟩, hr⟩
        obtain ⟨w, hs, hw, hlater⟩ := Yard.sends_of_not_refuses a.delivery.frame (mt hrefuses.1 hr)
        rw [step_of_sent (hcancelled.trans hset) hwait hs]
        have hsent := hsends.trans hw
        rw [List.nil_append, hnow] at hsent
        cases hrest : a.delivery.rest with
        | nil => exact .completes hsent hdelivers hrest
        | cons frame rest =>
          rw [hlater, hnow, hsent.grows.delay_eq]
          exact .sends hsent hdelivers hrest

/-- **One step of a command in flight.** -/
theorem goes_step {alert : Bool} (hready : (Task.inFlight a alert).isReady y = true) :
    a.Goes y ((Task.inFlight a alert).step y) := by
  cases alert with
  | true => exact goes_activity_step (y.allowance - 1) rfl hready
  | false =>
    rw [Task.step, Task.look]
    split
    next hset =>
      exact goes_activity_step y.allowance rfl
        (show (y.isCancelled _ || _) = true by rw [hset, Bool.true_or])
    next hset =>
      obtain ⟨allowance, hlisten⟩ := y.listen_eq a.delivery.token
      dsimp only
      split
      next himmediate =>
        refine goes_activity_step allowance hlisten ?_
        rw [Delivery.isImmediate.eq_def] at himmediate
        split at himmediate
        · cases himmediate
        next due hwait =>
          rw [isReady, Delivery.isReady, hwait]
          exact (congrArg _ himmediate).trans (Bool.or_true _)
      next himmediate =>
        refine .listens (hlisten ▸ y.sends_withAllowance allowance) fun hdelivers ↦ ?_
        obtain ⟨due, hwait, hdue⟩ := hdelivers.due
        rw [Delivery.isImmediate, hwait] at himmediate
        exact himmediate (decide_eq_true hdue)

namespace Goes

variable {p : Yard × Task}

theorem grows (h : a.Goes y p) : y.Grows p.1 := by
  cases h with
  | listens hz | writes hz | sends hz => exact hz.grows
  | cancelled hz | refused hz =>
    rw [Task.ofProgress_fst]
    exact hz.grows.trans (Yard.decides_abandon _ _ _).sends.1
  | completes hz =>
    rw [Task.ofProgress_fst]
    exact hz.grows.trans (Yard.decides_finish _ _ _).sends.1

theorem plan_eq (h : a.Goes y p) : p.1.plan = y.plan := by
  cases h with
  | listens hz | writes hz | sends hz => exact hz.passes.plan_eq
  | cancelled hz | refused hz =>
    rw [Task.ofProgress_fst, (Yard.decides_abandon _ _ _).plan_eq]
    exact hz.passes.plan_eq
  | completes hz =>
    rw [Task.ofProgress_fst, (Yard.decides_finish _ _ _).plan_eq]
    exact hz.passes.plan_eq

/-- A step that delivers sends the frame at hand. -/
theorem accepted_of_delivers (h : a.Goes y p) (hdelivers : a.Delivers y) :
    p.1.line.accepted = y.line.accepted ++ [⟨a.delivery.frame, y.now⟩] := by
  cases h with
  | listens hz hidle => exact absurd hdelivers hidle
  | cancelled hz hset => exact absurd (hset.symm.trans hdelivers.going) (by simp)
  | writes hz hwait =>
    obtain ⟨due, hwrite, -⟩ := hdelivers.due
    exact absurd (hwait.symm.trans hwrite) (by simp)
  | refused hz hrefuses => exact absurd hrefuses hdelivers.accepts
  | sends hz => exact hz.passes.accepted_eq
  | completes hz =>
    rw [Task.ofProgress_fst, (Yard.decides_finish _ _ _).sends.2]
    exact hz.passes.accepted_eq

/-- Any other step sends nothing. -/
theorem accepted_of_not_delivers (h : a.Goes y p) (hidle : ¬ a.Delivers y) :
    p.1.line.accepted = y.line.accepted := by
  cases h with
  | listens hz | writes hz => exact hz.passes.accepted_eq.trans (List.append_nil _)
  | cancelled hz | refused hz =>
    rw [Task.ofProgress_fst, (Yard.decides_abandon _ _ _).sends.2]
    exact hz.passes.accepted_eq.trans (List.append_nil _)
  | sends hz hdelivers | completes hz hdelivers => exact absurd hdelivers hidle

end Goes

end Activity

/-! ### One step of any task -/

namespace Task

variable {y : Yard}

/-- A job that begins sends nothing, unless it is bytes that are written as such. -/
theorem writes_begin (y : Yard) (job : Job) :
    y.Writes (∃ bytes, job = .write bytes) (begin y job).1 := by
  have hnone {z : Yard} (hz : y.Grows z ∧ z.line.accepted = y.line.accepted) :
      y.Writes (∃ bytes, job = .write bytes) z :=
    ⟨hz.1, [], by rw [hz.2, List.append_nil], by simp, fun _ ↦ rfl⟩
  cases job with
  | command command token =>
    rw [begin, ofProgress_fst]
    exact hnone (y.decides_startCommand token command).sends
  | signal signal token =>
    rw [begin, ofProgress_fst]
    exact hnone (y.decides_startSignal token signal).sends
  | cancel cancellation =>
    exact hnone ⟨⟨rfl, Nat.le_refl _, List.subset_cons_self _ _, List.prefix_refl _⟩, rfl⟩
  | replaceLayout layout =>
    exact hnone ⟨⟨rfl, Nat.le_refl _, List.Subset.refl _, List.prefix_refl _⟩, rfl⟩
  | sleep duration => exact hnone ⟨.refl y, rfl⟩
  | write bytes =>
    rw [begin]
    split
    · obtain ⟨sent, hsent, hkind⟩ := y.sends_sendBytes bytes
      exact ⟨hsent.grows, sent, hsent.passes.accepted_eq, hkind, fun h ↦ absurd ⟨bytes, rfl⟩ h⟩
    · exact hnone ⟨.refl y, rfl⟩

/-- **One step of a task** that is not in flight sends nothing, unless it writes bytes as such. -/
theorem writes_step (task : Task) (h : ∀ a alert, task ≠ .inFlight a alert) :
    y.Writes (∀ job, task.job? = some job → ∃ bytes, job = .write bytes) (task.step y).1 := by
  have hspend := y.sends_withAllowance (y.allowance - 1)
  have hbegin {z : Yard} {job : Job} (hz : y.Sends [] z) :
      y.Writes (∀ j, some job = some j → ∃ bytes, j = .write bytes) (begin z job).1 := by
    obtain ⟨hgrows, sent, hsent, hkind, hnone⟩ := writes_begin z job
    refine ⟨hz.grows.trans hgrows, sent, ?_, hkind, fun h ↦ hnone fun hw ↦ h ?_⟩
    · rw [hsent, hz.passes.accepted_eq, List.append_nil]
    · exact fun j hj ↦ Option.some.inj hj ▸ hw
  cases task with
  | pending job => exact hbegin (.refl y)
  | planned due job => exact hbegin hspend
  | inFlight a alert => exact absurd rfl (h a alert)
  | asleep due => exact ⟨hspend.grows, [], hspend.passes.accepted_eq, by simp, fun _ ↦ rfl⟩
  | writing due bytes =>
    obtain ⟨sent, hsent, hkind⟩ := y.spend.sends_sendBytes bytes
    exact ⟨hspend.grows.trans hsent.grows, sent, hsent.passes.accepted_eq, hkind,
      fun h ↦ absurd (fun _ hj ↦ by cases hj) h⟩
  | ended result time =>
    exact ⟨.refl y, [], (List.append_nil _).symm, by simp, fun _ ↦ rfl⟩

end Task

/-! ### One move -/

namespace Traffic

variable {t : Traffic} {m : Move} {place : Nat} {a : Activity} {alert : Bool}

/-- The frames that the line accepts in a move. -/
def sentIn (t : Traffic) (m : Move) : List AcceptedFrame :=
  (t.move m).yard.line.accepted.drop t.yard.line.accepted.length

/-- The next move of the task at a place sends a frame, which is the one that it has at hand. -/
def Delivers (t : Traffic) (place : Nat) (frame : Frame) : Prop :=
  ∃ a alert, t.tasks[place]? = some (.inFlight a alert) ∧ a.Delivers t.yard ∧
    a.delivery.frame = frame

/-- **Moves** take nothing back. -/
theorem grows_move (t : Traffic) (m : Move) : t.yard.Grows (t.move m).yard := by
  cases m with
  | go place =>
    rcases t.advance_cases place with hsame | ⟨task, -, hr, hstep⟩
    · rw [move, hsame]
      exact .refl _
    · rw [move, hstep]
      cases task with
      | inFlight a alert => exact (Activity.goes_step hr).grows
      | _ => exact (Task.writes_step _ (by simp)).1
  | wait time => exact ⟨rfl, Nat.le_max_left _ _, List.Subset.refl _, List.prefix_refl _⟩
  | _ => exact ⟨rfl, Nat.le_refl _, List.Subset.refl _, List.prefix_refl _⟩

/-- **Runs** take nothing back. -/
theorem grows_run (t : Traffic) (moves : List Move) : t.yard.Grows (t.run moves).yard :=
  run_induction (P := fun u ↦ t.yard.Grows u.yard) (.refl _)
    (fun {u} m h ↦ h.trans (u.grows_move m)) moves

theorem accepted_move (t : Traffic) (m : Move) :
    (t.move m).yard.line.accepted = t.yard.line.accepted ++ t.sentIn m :=
  (List.prefix_iff_eq_append.1 (t.grows_move m).accepted_grows).symm

theorem sentIn_eq {sent : List AcceptedFrame}
    (h : (t.move m).yard.line.accepted = t.yard.line.accepted ++ sent) : t.sentIn m = sent := by
  rw [sentIn, h, List.drop_left]

theorem sentIn_of_accepted_eq
    (h : (t.move m).yard.line.accepted = t.yard.line.accepted) : t.sentIn m = [] :=
  sentIn_eq (h.trans (List.append_nil _).symm)

/-- What is about to deliver is ready. -/
theorem isReady_of_delivers (alert : Bool) (h : a.Delivers t.yard) :
    (Task.inFlight a alert).isReady t.yard = true := by
  obtain ⟨due, hwait, hdue⟩ := h.due
  rw [Task.isReady, Activity.isReady, Delivery.isReady, hwait, Wait.due, decide_eq_true hdue,
    Bool.or_true, Bool.or_true]

/-- **A move that delivers** sends the frame at hand. -/
theorem sentIn_of_delivers {frame : Frame} (h : t.Delivers place frame) :
    t.sentIn (.go place) = [⟨frame, t.yard.now⟩] := by
  obtain ⟨a, alert, ht, hdelivers, rfl⟩ := h
  have hready := isReady_of_delivers alert hdelivers
  refine sentIn_eq ?_
  rw [move, advance_of_ready ht hready]
  exact (Activity.goes_step hready).accepted_of_delivers hdelivers

/-- Any other move of a command in flight sends nothing. -/
theorem sentIn_of_not_delivers (ht : t.tasks[place]? = some (.inFlight a alert))
    (h : ∀ frame, ¬ t.Delivers place frame) : t.sentIn (.go place) = [] := by
  have hidle : ¬ a.Delivers t.yard := fun hd ↦ h _ ⟨a, alert, ht, hd, rfl⟩
  refine sentIn_of_accepted_eq ?_
  rw [move]
  cases hr : (Task.inFlight a alert).isReady t.yard with
  | false => rw [advance_of_not_ready ht hr]
  | true =>
    rw [advance_of_ready ht hr]
    exact (Activity.goes_step hr).accepted_of_not_delivers hidle

/-- A move that begins a job sends nothing, unless it writes bytes as such. -/
theorem sentIn_of_begins {job : Job} (h : t.Begins place job) (hjob : ∀ bytes, job ≠ .write bytes) :
    t.sentIn (.go place) = [] := by
  obtain ⟨task, ht, hr, hj⟩ := h
  have hflight : ∀ a alert, task ≠ .inFlight a alert := by
    rintro a alert rfl
    cases hj
  obtain ⟨-, sent, hsent, -, hnone⟩ := Task.writes_step (y := t.yard) task hflight
  obtain rfl := hnone fun h ↦ by
    obtain ⟨bytes, hbytes⟩ := h job hj
    exact hjob bytes hbytes
  refine sentIn_eq ?_
  rw [move, advance_of_ready ht hr]
  exact hsent

/-- **What a move sends** either only sets, or is the frame that a command in flight delivers. -/
theorem delivers_of_mem_sentIn {f : AcceptedFrame} (hf : f ∈ t.sentIn m)
    (hkind : f.frame.kind ≠ .set) : ∃ place, m = .go place ∧ t.Delivers place f.frame := by
  cases m with
  | go place =>
    refine ⟨place, rfl, ?_⟩
    rcases t.advance_cases place with hsame | ⟨task, ht, -, hstep⟩
    · rw [sentIn_of_accepted_eq (by rw [move, hsame])] at hf
      cases hf
    · by_cases hflight : ∃ a alert, task = .inFlight a alert
      · obtain ⟨a, alert, rfl⟩ := hflight
        by_cases hdelivers : ∃ frame, t.Delivers place frame
        · obtain ⟨frame, hdelivers⟩ := hdelivers
          rw [sentIn_of_delivers hdelivers] at hf
          rwa [List.mem_singleton.1 hf]
        · rw [sentIn_of_not_delivers ht (not_exists.1 hdelivers)] at hf
          cases hf
      · -- whatever else is written comes from bytes, and is read as frames that set
        obtain ⟨-, sent, hsent, hset, -⟩ := Task.writes_step (y := t.yard) task
          fun a alert h ↦ hflight ⟨a, alert, h⟩
        have hsentIn : t.sentIn (.go place) = sent := sentIn_eq (by rw [move, hstep, hsent])
        rw [hsentIn] at hf
        exact absurd (hset f hf) hkind
  | _ =>
    rw [sentIn_of_accepted_eq rfl] at hf
    cases hf

end Traffic

end SignalBox
