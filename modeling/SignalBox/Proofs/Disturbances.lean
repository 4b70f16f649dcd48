import SignalBox.Proofs.Transmission

/-!
# What disturbs a call

A call that has the yard to itself fails because it is cancelled or because the line refuses a
frame, and for no other reason once its frames are there. `Task.CompletesIn` is the run of such a
call, as `Task.Completes`, in which every step is taken in a yard of some kind; so the failure of a
call can be traced to the yard in which it was disturbed, and a call that takes its steps in calm
yards only does not fail.

* **Commands with one delivery** (`Yard.delivered_of_completesIn`) end with their outcome after all
  of their frames, or with a failure that tells exactly how many have been accepted. Nothing else
  can have changed than what the end of the delivery changes.
* **The stop of signals** makes one delivery for each signal, and goes on to the next one unless it
  is disturbed (`Yard.shows_of_completesIn`).
-/

namespace SignalBox

/-! ### Calm yards -/

namespace Yard

/-- A call with this token can take a step: the token has not been set off, and the line does not
refuse what is written next. -/
structure Calm (token : Token) (y : Yard) : Prop where
  going : y.isCancelled token = false
  accepts : ¬ y.Refuses

/-- How a yard makes a call fail, with its token and the number of frames that have been accepted
for it. -/
inductive Disturbs (y : Yard) (token : Token) (sent : Nat) : Failure → Prop
  | cancelled (hset : y.isCancelled token = true) : Disturbs y token sent (.cancelled sent)
  | refused (hrefuses : y.Refuses) :
      Disturbs y token sent (.transport sent (.refused y.line.attempts))

variable {y z : Yard} {token : Token} {sent : Nat} {failure : Failure}

theorem Calm.not_disturbs (h : y.Calm token) : ¬ y.Disturbs token sent failure := by
  intro hdisturbs
  cases hdisturbs with
  | cancelled hset => exact Bool.false_ne_true (h.going.symm.trans hset)
  | refused hrefuses => exact h.accepts hrefuses

theorem Disturbs.ne_protocol (h : y.Disturbs token sent failure) (cause : AddressError) :
    failure ≠ .protocol cause := by
  cases h <;> simp

/-- A failure tells how many frames have been accepted. -/
theorem Disturbs.framesSent_eq (h : y.Disturbs token sent failure) : failure.framesSent = sent := by
  cases h <;> rfl

end Yard

/-! ### Runs of one task -/

/-- What a task makes of a yard that it has to itself, if the yard has a property whenever the task
takes a step. -/
inductive Task.CompletesIn (P : Yard → Prop) : Yard → Task → JobResult → Yard → Prop
  | ended (y : Yard) (result : JobResult) (time : Nat) :
      CompletesIn P y (.ended result time) result y
  | wait {y z w : Yard} {task : Task} {result : JobResult} (h : y.Waits z)
      (ht : CompletesIn P z task result w) : CompletesIn P y task result w
  | step {y w : Yard} {task : Task} {result : JobResult} (h : task.isReady y = true) (hP : P y)
      (ht : CompletesIn P (task.step y).1 (task.step y).2 result w) : CompletesIn P y task result w

namespace Task

variable {P : Yard → Prop} {y z w : Yard} {result : JobResult} {task : Task}

theorem CompletesIn.completes (h : CompletesIn P y task result w) : Completes y task result w := by
  induction h with
  | ended y result time => exact .ended y result time
  | wait hw _ ih => exact .wait hw ih
  | step hr _ _ ih => exact .step hr ih

/-- Every run is one in which nothing is asked of the yard. -/
theorem completesIn_true_iff :
    CompletesIn (fun _ ↦ True) y task result w ↔ Completes y task result w := by
  refine ⟨CompletesIn.completes, fun h ↦ ?_⟩
  induction h with
  | ended y result time => exact .ended y result time
  | wait hw _ ih => exact .wait hw ih
  | step hr _ ih => exact .step hr trivial ih

/-- A job begins some time. -/
theorem begin_of_completesIn_pending {job : Job} (h : CompletesIn P y (.pending job) result w) :
    ∃ z, y.Keeps z ∧ CompletesIn P (begin z job).1 (begin z job).2 result w := by
  generalize ht : Task.pending job = task at h
  induction h with
  | ended y result time => cases ht
  | wait hw _ ih =>
    obtain ⟨z, hk, hz⟩ := ih ht
    exact ⟨z, Yard.Passes.trans hw.keeps hk, hz⟩
  | @step y w task result hr hP h =>
    subst ht
    exact ⟨y, .refl y, h⟩

/-- A command that has a result ends with it. -/
theorem keeps_of_completesIn_done {r : Except Failure Outcome} {p : Yard × Progress}
    (hp : p.2 = .done r) (h : CompletesIn P (ofProgress p).1 (ofProgress p).2 result w) :
    result = .command r ∧ p.1.Keeps w :=
  keeps_of_completes_done hp h.completes

/-- **A delivery from start to end**: all of its frames are accepted, or a part of them until a yard
disturbs it. -/
theorem delivers_of_completesIn {a : Activity} {alert : Bool}
    (h : CompletesIn P y (.inFlight a alert) result w) :
    ∃ sent z, y.Passes sent z ∧
      ((∃ x failure, P x ∧
          x.Disturbs a.delivery.token (a.delivery.sent + sent.length) failure ∧
          sent.map (·.frame) <+: a.delivery.frames ∧ sent.length < a.delivery.frames.length ∧
          CompletesIn P (ofProgress (z.abandon failure a.purpose)).1
            (ofProgress (z.abandon failure a.purpose)).2 result w) ∨
        sent.map (·.frame) = a.delivery.frames ∧
          CompletesIn P (ofProgress (z.finish a.delivery.token a.purpose)).1
            (ofProgress (z.finish a.delivery.token a.purpose)).2 result w) := by
  have hpos (a : Activity) : 0 < a.delivery.frames.length := Nat.succ_pos _
  generalize ht : Task.inFlight a alert = task at h
  -- the induction is on the run of the task, and each step is one of those of `Activity.Goes`
  induction h generalizing a alert with
  | ended y result time => cases ht
  | wait hw _ ih =>
    obtain ⟨sent, z, hz, h⟩ := ih ht
    exact ⟨sent, z, Yard.Passes.trans hw.keeps hz, h⟩
  | @step y w task result hr hP h ih =>
    subst ht
    have hgoes := Activity.goes_step hr
    generalize (inFlight a alert).step y = p at hgoes h ih
    cases hgoes with
    | listens hz | writes hz =>
      obtain ⟨sent, z', hz', h⟩ := ih rfl
      exact ⟨sent, z', Yard.Passes.trans hz.passes hz', h⟩
    | @cancelled z hz hset =>
      exact ⟨[], z, hz.passes,
        .inl ⟨y, _, hP, .cancelled hset, List.nil_prefix, hpos a, h⟩⟩
    | @refused z hz hrefuses =>
      exact ⟨[], z, hz.passes,
        .inl ⟨y, _, hP, .refused hrefuses, List.nil_prefix, hpos a, h⟩⟩
    | @sends z frame rest hz hdelivers hrest =>
      obtain ⟨sent, z', hz', h⟩ := ih rfl
      have hframes : a.delivery.frames = a.delivery.frame :: frame :: rest :=
        congrArg (a.delivery.frame :: ·) hrest
      refine ⟨_ :: sent, z', Yard.Passes.trans hz.passes hz', ?_⟩
      rw [hframes]
      rcases h with ⟨x, failure, hx, hdisturbs, hpre, hlt, h⟩ | ⟨hsent, h⟩
      · refine .inl ⟨x, failure, hx, ?_, List.cons_prefix_cons.2 ⟨rfl, hpre⟩,
          Nat.succ_lt_succ hlt, h⟩
        rwa [List.length_cons, Nat.add_comm sent.length, ← Nat.add_assoc]
      · exact .inr ⟨congrArg (a.delivery.frame :: ·) hsent, h⟩
    | @completes z hz hdelivers hrest =>
      exact ⟨_, z, hz.passes, .inr ⟨congrArg (a.delivery.frame :: ·) hrest.symm, h⟩⟩

end Task

namespace Yard

variable {P : Yard → Prop} {y z w : Yard} {token : Token} {purpose : Purpose} {result : JobResult}

/-- **A command with one delivery** ends with its outcome and all of its frames, or a yard disturbs
it and it fails with a part of them. -/
theorem delivered_of_completesIn {frames : List Frame} {outcome : Outcome}
    (ho : purpose.outcome? = some outcome)
    (h : Task.CompletesIn P (Task.ofProgress (y.deliver token purpose frames)).1
      (Task.ofProgress (y.deliver token purpose frames)).2 result w) :
    ∃ sent, (sent.map (·.frame) = frames ∧ result = .command (.ok outcome) ∧
        y.After sent y.active (y.positionsAfter purpose) w) ∨
      ∃ x failure, P x ∧ x.Disturbs token sent.length failure ∧
        sent.map (·.frame) <+: frames ∧ sent.length < frames.length ∧
        result = .command (.error failure) ∧
        y.After sent (afterFailure y.active purpose) y.positions w := by
  cases frames with
  | nil =>
    obtain ⟨rfl, hk⟩ := Task.keeps_of_completesIn_done (finish_snd ho) h
    exact ⟨[], .inl ⟨rfl, rfl, (y.after_finish token purpose).then_keeps hk⟩⟩
  | cons frame rest =>
    obtain ⟨sent, z, hz, ⟨x, failure, hx, hdisturbs, hpre, hlt, hc⟩ | ⟨hsent, hc⟩⟩ :=
      Task.delivers_of_completesIn (a := ⟨purpose, .start y token frame rest⟩) h
    · obtain ⟨rfl, hk⟩ := Task.keeps_of_completesIn_done (z.abandon_snd failure purpose) hc
      have ha := After.trans hz ((z.after_abandon failure purpose).then_keeps hk)
      rw [List.append_nil, hz.active_eq, hz.positions_eq] at ha
      rw [show Delivery.sent _ = 0 from rfl, Nat.zero_add] at hdisturbs
      exact ⟨sent, .inr ⟨x, failure, hx, hdisturbs, hpre, hlt, rfl, ha⟩⟩
    · obtain ⟨rfl, hk⟩ := Task.keeps_of_completesIn_done (finish_snd ho) hc
      have ha := After.trans hz ((z.after_finish token purpose).then_keeps hk)
      rw [List.append_nil, hz.active_eq, positionsAfter_congr hz.positions_eq] at ha
      exact ⟨sent, .inl ⟨hsent, rfl, ha⟩⟩

/-- **A command with one delivery** ends with its outcome and all of its frames, or with a failure
and a part of them. -/
theorem delivered_of_completes {frames : List Frame} {outcome : Outcome}
    (ho : purpose.outcome? = some outcome)
    (h : Task.Completes (Task.ofProgress (y.deliver token purpose frames)).1
      (Task.ofProgress (y.deliver token purpose frames)).2 result w) :
    ∃ sent, (sent.map (·.frame) = frames ∧ result = .command (.ok outcome) ∧
        y.After sent y.active (y.positionsAfter purpose) w) ∨
      ∃ failure, (∀ cause, failure ≠ .protocol cause) ∧ sent.map (·.frame) <+: frames ∧
        result = .command (.error failure) ∧
        y.After sent (afterFailure y.active purpose) y.positions w := by
  obtain ⟨sent, hsent | ⟨x, failure, -, hdisturbs, hpre, -, hresult, hw⟩⟩ :=
    delivered_of_completesIn ho (Task.completesIn_true_iff.2 h)
  · exact ⟨sent, .inl hsent⟩
  · exact ⟨sent, .inr ⟨failure, hdisturbs.ne_protocol, hpre, hresult, hw⟩⟩

/-- **One signal** of a stop cannot be encoded, or its frame is sent if it has one and the stop goes
on with the next signal, or some yard disturbs it. -/
theorem shows_of_completesIn {count : Nat} {signal : SignalCommand} {rest : List SignalCommand}
    (h : Task.CompletesIn P (Task.ofProgress (y.showSignals token count (signal :: rest))).1
      (Task.ofProgress (y.showSignals token count (signal :: rest))).2 result w) :
    (∃ cause, signal.frame? = .error cause ∧ result = .command (.error (.protocol cause)) ∧
        y.Keeps w) ∨
      (∃ x failure, P x ∧ x.Disturbs token 0 failure ∧ result = .command (.error failure) ∧
        y.Keeps w) ∨
      ∃ frame sent z, signal.frame? = .ok frame ∧ sent.map (·.frame) = frame.toList ∧
        y.Passes sent z ∧ Task.CompletesIn P (Task.ofProgress (z.showSignals token count rest)).1
          (Task.ofProgress (z.showSignals token count rest)).2 result w := by
  rw [showSignals] at h
  cases hframe : signal.frame? with
  | error cause =>
    rw [hframe] at h
    obtain ⟨rfl, hk⟩ := Task.keeps_of_completesIn_done rfl h
    exact .inl ⟨cause, rfl, rfl, hk⟩
  | ok frame =>
    cases frame with
    | none =>
      rw [hframe] at h
      exact .inr (.inr ⟨none, [], _, rfl, rfl, y.keeps_announce signal false, h⟩)
    | some frame =>
      rw [hframe] at h
      obtain ⟨sent, z, hz, ⟨x, failure, hx, hdisturbs, -, hlt, hc⟩ | ⟨hsent, hc⟩⟩ :=
        Task.delivers_of_completesIn
          (a := ⟨.stopSignals signal rest count, .start y token frame []⟩) h
      · obtain ⟨rfl, hk⟩ := Task.keeps_of_completesIn_done (z.abandon_snd failure _) hc
        obtain rfl : sent = [] := List.length_eq_zero_iff.1 (Nat.lt_one_iff.1 hlt)
        exact .inr (.inl ⟨x, failure, hx, hdisturbs, rfl, hz.then_keeps hk⟩)
      · exact .inr (.inr ⟨some frame, sent, _, rfl, hsent,
          hz.then_keeps (z.keeps_announce signal true), hc⟩)

end Yard

end SignalBox
