import SignalBox.Proofs.Disturbances
import SignalBox.Proofs.Effects

/-!
# Calls that nothing disturbs

A call is performed if it has the yard to itself and takes every step in a calm yard
(`Yard.Performs`). A yard is sound for a token if its line refuses nothing and nothing on it sets
the token off. It stays sound as long as there are only calls, so the schedule performs every call
in it (`Yard.performs_of_schedule`), and calls can be performed one after another
(`Yard.exists_performsAll`).
-/

namespace SignalBox

namespace Yard

variable {y z w : Yard} {token : Token} {result : JobResult}

/-- A command that has the yard to itself is done, and nothing disturbs it. -/
def Performs (y : Yard) (command : Command) (token : Token) (result : JobResult) (w : Yard) :
    Prop :=
  Task.CompletesIn (Calm token) y (.pending (.command command token)) result w

/-- Commands are done one after another, each with its token and without being disturbed. -/
inductive PerformsAll : Yard → List (Command × Token) → List JobResult → Yard → Prop
  | nil (y : Yard) : PerformsAll y [] [] y
  | cons {y z w : Yard} {command : Command} {token : Token} {result : JobResult}
      {calls : List (Command × Token)} {results : List JobResult}
      (h : y.Performs command token result z) (ht : PerformsAll z calls results w) :
      PerformsAll y ((command, token) :: calls) (result :: results) w

/-! ### Sound yards -/

/-- The line refuses nothing, and a token has not been set off and is not set off by the line. -/
structure Sound (token : Token) (y : Yard) : Prop where
  going : y.isCancelled token = false
  accepts : y.line.faults.refuseAt = none
  spares : ∀ count cancellation, y.line.faults.cancelAfter = some (count, cancellation) →
    token ≠ .on cancellation

theorem Sound.calm (h : y.Sound token) : y.Calm token :=
  ⟨h.going, fun hrefuses ↦ by cases h.accepts.symm.trans hrefuses⟩

/-- A yard is sound because of its faults and of what has been set off. -/
theorem Sound.of_eq (h : y.Sound token) (hfaults : z.line.faults = y.line.faults)
    (hsetOff : z.setOff = y.setOff) : z.Sound token where
  going := by
    have hgoing := h.going
    cases token with
    | on cancellation => rwa [isCancelled, hsetOff]
    | _ => rfl
  accepts := hfaults ▸ h.accepts
  spares := hfaults ▸ h.spares

theorem Sound.of_decides (h : y.Sound token) (hz : y.Decides z) : z.Sound token := by
  obtain ⟨channel, active, positions, rfl⟩ := hz
  exact h.of_eq rfl rfl

/-- **A write** leaves the yard sound: what it sets off is not the token. -/
theorem Sound.write (h : y.Sound token) (frame : Except (List UInt8) Frame) :
    (y.write frame).1.Sound token := by
  have hfaults : (y.line.write frame y.now).1.faults = y.line.faults := by
    rw [BusLine.write.eq_def]
    dsimp only
    split
    · rfl
    · split <;> rfl
  rw [Yard.write]
  dsimp only
  split
  next cancellation _ hsets =>
    obtain ⟨⟨count, other⟩, hfault, hother⟩ := Option.bind_eq_some_iff.1 hsets
    split at hother
    next =>
      obtain rfl := Option.some.inj hother
      have hne := h.spares count other (hfaults ▸ hfault)
      refine ⟨?_, hfaults ▸ h.accepts, hfaults ▸ h.spares⟩
      have hgoing := h.going
      cases token with
      | on mine =>
        show (List.contains (other :: y.setOff) mine) = false
        rw [List.contains_cons, show y.setOff.contains mine = false from hgoing, Bool.or_false]
        exact beq_eq_false_iff_ne.2 fun he ↦ hne (congrArg Token.on he)
      | _ => rfl
    next => cases hother
  next => exact h.of_eq hfaults rfl

end Yard

namespace Activity

variable {y : Yard} {token : Token}

/-- **One step** of a command in flight leaves the yard sound. -/
theorem sound_step (a : Activity) (h : y.Sound token) : (a.step y).1.Sound token := by
  have hdelivery : (a.delivery.step y).1.Sound token := by
    rw [Delivery.step]
    split
    · exact h
    · split
      · exact h
      · have hw := h.write (.ok a.delivery.frame)
        rw [Yard.sendFrame]
        split
        next he => rwa [he] at hw
        next he => rwa [he] at hw
  rw [step]
  split
  next hs => rwa [hs] at hdelivery
  next z failure hs =>
    rw [hs] at hdelivery
    exact hdelivery.of_decides (z.decides_abandon failure a.purpose)
  next z hs =>
    rw [hs] at hdelivery
    exact hdelivery.of_decides (z.decides_finish a.delivery.token a.purpose)

end Activity

namespace Task

/-- Whether a task is a call: one that is to begin, is in flight or has ended. -/
def isCallOrEnded : Task → Bool
  | pending job => job.isCall
  | planned _ job => job.isCall
  | inFlight _ _ => true
  | ended _ _ => true
  | _ => false

variable {y : Yard} {token : Token} {task : Task}

theorem isCallOrEnded_ofProgress (p : Yard × Progress) : (ofProgress p).2.isCallOrEnded = true := by
  obtain ⟨y, progress⟩ := p
  cases progress <;> rfl

theorem sound_begin {job : Job} (hjob : job.isCall = true) (h : y.Sound token) :
    (begin y job).1.Sound token ∧ (begin y job).2.isCallOrEnded = true := by
  cases job with
  | command c t =>
    rw [begin, ofProgress_fst]
    exact ⟨h.of_decides (y.decides_startCommand t c), isCallOrEnded_ofProgress _⟩
  | signal s t =>
    rw [begin, ofProgress_fst]
    exact ⟨h.of_decides (y.decides_startSignal t s), isCallOrEnded_ofProgress _⟩
  | _ => cases hjob

theorem sound_ofProgress_step (a : Activity) (h : y.Sound token) :
    (ofProgress (a.step y)).1.Sound token ∧ (ofProgress (a.step y)).2.isCallOrEnded = true := by
  rw [ofProgress_fst]
  exact ⟨a.sound_step h, isCallOrEnded_ofProgress _⟩

/-- **One step** of a call leaves the yard sound, and the task a call. -/
theorem sound_step (htask : task.isCallOrEnded = true) (h : y.Sound token) :
    (task.step y).1.Sound token ∧ (task.step y).2.isCallOrEnded = true := by
  cases task with
  | pending job => exact sound_begin htask h
  | planned due job => exact sound_begin htask (h.of_eq rfl rfl)
  | inFlight a alert =>
    cases alert with
    | true => exact sound_ofProgress_step a (h.of_eq rfl rfl)
    | false =>
      obtain ⟨allowance, hlisten⟩ := y.listen_eq a.delivery.token
      have hlistening : (y.listen a.delivery.token).Sound token :=
        hlisten ▸ h.of_eq rfl rfl
      rw [step, look]
      split
      · exact sound_ofProgress_step a h
      · dsimp only
        split
        · exact sound_ofProgress_step a hlistening
        · exact ⟨hlistening, rfl⟩
  | ended result time => exact ⟨h, rfl⟩
  | _ => cases htask

end Task

/-! ### Schedules with one task -/

namespace Schedule

variable {P : Yard → Task → Prop} {y : Yard} {task : Task}

theorem advance_induction (h : P y task)
    (hstep : ∀ {y task}, P y task → task.isReady y = true → P (task.step y).1 (task.step y).2)
    (steps : Nat) : P (task.advance y steps).1 (task.advance y steps).2 := by
  fun_induction Task.advance y task steps with
  | case1 => exact h
  | case2 y task steps hgo y' task' hs ih =>
    have hnext := hstep h (Task.isReady_of_canGoOn hgo)
    rw [hs] at hnext
    exact ih hnext
  | case3 => exact h

theorem poll_induction (h : P y task)
    (hstep : ∀ {y task}, P y task → task.isReady y = true → P (task.step y).1 (task.step y).2) :
    P (task.poll y).1 (task.poll y).2 := by
  rw [Task.poll]
  split
  next hgo => exact advance_induction (hstep h (Task.isReady_of_canGoOn hgo)) hstep _
  next => exact h

/-- **Invariants.** What holds of a yard and its only task, and is kept by each step of the task and
when a new turn begins at a later time, holds when the task has ended. -/
theorem run_singleton_induction (h : P y task)
    (hstep : ∀ {y task}, P y task → task.isReady y = true → P (task.step y).1 (task.step y).2)
    (hwait : ∀ {y task} (time : Nat), P y task → P (y.waitUntil time).nextTurn task)
    {w : Yard} {task' : Task} (hrun : run y [task] = (w, [task'])) : P w task' := by
  have hsettle : ∀ tasks, tasks = [(task.poll y).2] →
      ∃ after, (settle (task.poll y).1 tasks).2 = [after] ∧
        P (settle (task.poll y).1 tasks).1 after := by
    have hpoll := poll_induction h hstep
    generalize (task.poll y).1 = z at hpoll
    generalize (task.poll y).2 = polled at hpoll
    intro tasks
    fun_induction settle z tasks generalizing polled with
    | case1 z tasks => exact fun ht ↦ ⟨polled, ht, hpoll⟩
    | case2 z tasks due _ after ih =>
      rintro rfl
      exact ih _ (poll_induction (hwait due hpoll) hstep) rfl
  obtain ⟨after, htasks, hafter⟩ := hsettle _ rfl
  have hw : (settle (task.poll y).1 [(task.poll y).2]).1 = w := congrArg Prod.fst hrun
  have htask : (settle (task.poll y).1 [(task.poll y).2]).2 = [task'] := congrArg Prod.snd hrun
  rw [← hw, ← (List.cons.inj (htasks.symm.trans htask)).1]
  exact hafter

end Schedule

namespace Yard

variable {y w : Yard} {token : Token} {result : JobResult} {command : Command}

/-- **The schedule performs every call** in a sound yard, and the yard stays sound for every token
for which it was. -/
theorem performs_of_schedule {time : Nat} (hy : y.Sound token)
    (hrun : Schedule.run y [.pending (.command command token)] = (w, [.ended result time])) :
    y.Performs command token result w ∧ ∀ other, y.Sound other → w.Sound other := by
  -- what is carried along the run is how the present state leads back to the first one
  obtain ⟨-, hsound, hback⟩ := Schedule.run_singleton_induction
    (P := fun z task ↦ task.isCallOrEnded = true ∧ (∀ other, y.Sound other → z.Sound other) ∧
      ∀ result w, Task.CompletesIn (Calm token) z task result w →
        y.Performs command token result w)
    ⟨rfl, fun _ h ↦ h, fun _ _ h ↦ h⟩
    (fun ⟨htask, hsound, hback⟩ hready ↦
      ⟨(Task.sound_step htask (hsound token hy)).2,
        fun other h ↦ (Task.sound_step htask (hsound other h)).1,
        fun _ _ h ↦ hback _ _ (.step hready (hsound token hy).calm h)⟩)
    (fun {z _} _ ⟨htask, hsound, hback⟩ ↦
      ⟨htask, fun other h ↦ (hsound other h).of_eq rfl rfl,
        fun _ _ h ↦ hback _ _
          (.wait ⟨z.line.faults, z.line.attempts, z.setOff, _, _, rfl⟩ h)⟩)
    hrun
  exact ⟨hback _ _ (.ended w result time), hsound⟩

/-- **A command is performed** in a sound yard. -/
theorem exists_performs (hy : y.Sound token) (command : Command) :
    ∃ result w, y.Performs command token result w ∧ ∀ other, y.Sound other → w.Sound other := by
  obtain ⟨w, result, time, hrun⟩ := Schedule.run_singleton y (.pending (.command command token))
  exact ⟨result, w, performs_of_schedule hy hrun⟩

/-- **Commands are performed** in a sound yard, one after another. -/
theorem exists_performsAll {calls : List (Command × Token)}
    (hy : ∀ call ∈ calls, y.Sound call.2) : ∃ results w, y.PerformsAll calls results w := by
  induction calls generalizing y with
  | nil => exact ⟨[], y, .nil y⟩
  | cons call calls ih =>
    obtain ⟨command, token⟩ := call
    obtain ⟨result, z, hperforms, hsound⟩ := exists_performs (hy _ List.mem_cons_self) command
    obtain ⟨results, w, hrest⟩ :=
      ih fun call hcall ↦ hsound _ (hy call (List.mem_cons_of_mem _ hcall))
    exact ⟨result :: results, w, .cons hperforms hrest⟩

end Yard

end SignalBox
