import SignalBox.Proofs.Beginnings
import SignalBox.Proofs.Traffic

/-!
# Calls that have the yard to themselves

In a sequential run each call has the yard to itself until it ends. It is still taken step by step,
and while it waits time passes, turns begin, the bus changes its faults and cancellations are set
off; so it may fail after any of its frames. `Task.Completes` is the run of one task from its
present state to its end, and the runs of a schedule with one task are among these
(`completes_of_schedule`). A schedule with one task takes it to its end (`Schedule.run_singleton`).
-/

namespace SignalBox

/-! ### States during a call -/

namespace Yard

/-- What happens to a yard while its only call waits: the faults of the bus, the cancellations, the
time and the turn change, and nothing else. -/
def Waits (y z : Yard) : Prop :=
  ∃ faults attempts setOff now allowance, z =
    { y with line := { y.line with faults := faults, attempts := attempts }
             setOff := setOff, now := now, allowance := allowance }

/-- What a yard is after some frames have been accepted, with the given active routes and recorded
positions. -/
structure After (y : Yard) (sent : List AcceptedFrame) (active : Reservations)
    (positions : Positions) (z : Yard) : Prop where
  plan_eq : z.plan = y.plan
  active_eq : z.active = active
  positions_eq : z.positions = positions
  accepted_eq : z.line.accepted = y.line.accepted ++ sent

variable {x y z w : Yard}

theorem After.refl (y : Yard) : y.After [] y.active y.positions y :=
  ⟨rfl, rfl, rfl, (List.append_nil _).symm⟩

theorem After.trans {first second : List AcceptedFrame} {active active' : Reservations}
    {positions positions' : Positions} (h₁ : y.After first active positions z)
    (h₂ : z.After second active' positions' w) : y.After (first ++ second) active' positions' w :=
  ⟨h₂.plan_eq.trans h₁.plan_eq, h₂.active_eq, h₂.positions_eq, by
    rw [h₂.accepted_eq, h₁.accepted_eq, List.append_assoc]⟩

/-- Frames have been accepted, and the rest of what is shared has stayed the same. -/
abbrev Passes (y : Yard) (sent : List AcceptedFrame) (z : Yard) : Prop :=
  y.After sent y.active y.positions z

/-- Nothing that is shared has changed. -/
abbrev Keeps (y z : Yard) : Prop := y.Passes [] z

theorem Passes.trans {first second : List AcceptedFrame} (h₁ : y.Passes first z)
    (h₂ : z.Passes second w) : y.Passes (first ++ second) w := by
  have h := After.trans h₁ h₂
  rwa [h₁.active_eq, h₁.positions_eq] at h

theorem After.then_keeps {sent : List AcceptedFrame} {active : Reservations}
    {positions : Positions} (h₁ : y.After sent active positions z) (h₂ : z.Keeps w) :
    y.After sent active positions w := by
  have h := h₁.trans h₂
  rwa [List.append_nil, h₁.active_eq, h₁.positions_eq] at h

/-- What was active before does not matter for what is active afterwards. -/
theorem After.of_withActive {sent : List AcceptedFrame} {active active' : Reservations}
    {positions : Positions} (h : (y.withActive active').After sent active positions z) :
    y.After sent active positions z :=
  ⟨h.plan_eq, h.active_eq, h.positions_eq, h.accepted_eq⟩

theorem Waits.keeps (h : y.Waits z) : y.Keeps z := by
  obtain ⟨faults, attempts, setOff, now, allowance, rfl⟩ := h
  exact ⟨rfl, rfl, rfl, (List.append_nil _).symm⟩

theorem keeps_publish (y : Yard) (notice : Notice) : y.Keeps (y.publish notice) :=
  ⟨rfl, rfl, rfl, (List.append_nil _).symm⟩

theorem keeps_announce (y : Yard) (signal : SignalCommand) (confirmed : Bool) :
    y.Keeps (y.announce signal confirmed) :=
  y.keeps_publish _

end Yard

/-- The frames that are still to be accepted. -/
def Delivery.frames (d : Delivery) : List Frame :=
  d.frame :: d.rest

/-! ### A task that has the yard to itself -/

/-- What a task makes of a yard that it has to itself, from its present state to its result. -/
inductive Task.Completes : Yard → Task → JobResult → Yard → Prop
  | ended (y : Yard) (result : JobResult) (time : Nat) : Completes y (.ended result time) result y
  | wait {y z w : Yard} {task : Task} {result : JobResult} (h : y.Waits z)
      (ht : Completes z task result w) : Completes y task result w
  | step {y w : Yard} {task : Task} {result : JobResult} (h : task.isReady y = true)
      (ht : Completes (task.step y).1 (task.step y).2 result w) : Completes y task result w

namespace Task

variable {y z w : Yard} {result : JobResult}

/-- What has ended stays as it is. -/
theorem keeps_of_completes_ended {time : Nat} {result' : JobResult}
    (h : Completes y (.ended result' time) result w) : result = result' ∧ y.Keeps w := by
  generalize ht : Task.ended result' time = task at h
  -- what has ended is never ready, so all that may happen is that time passes
  induction h with
  | ended y result time => exact ⟨(ended.inj ht).1.symm, .refl y⟩
  | wait hw _ ih => exact ⟨(ih ht).1, Yard.Passes.trans hw.keeps (ih ht).2⟩
  | step hr => exact absurd hr (by simp [← ht, isReady])

/-- A job begins some time. -/
theorem begin_of_completes_pending {job : Job} (h : Completes y (.pending job) result w) :
    ∃ z, y.Waits z ∧ Completes (begin z job).1 (begin z job).2 result w := by
  generalize ht : Task.pending job = task at h
  induction h with
  | ended y result time => cases ht
  | wait hw _ ih =>
    obtain ⟨faults, attempts, setOff, now, allowance, rfl⟩ := hw
    obtain ⟨z', ⟨faults', attempts', setOff', now', allowance', rfl⟩, hz⟩ := ih ht
    exact ⟨_, ⟨faults', attempts', setOff', now', allowance', rfl⟩, hz⟩
  | @step y w task result hr h ih =>
    subst ht
    exact ⟨y, ⟨y.line.faults, y.line.attempts, y.setOff, y.now, y.allowance, rfl⟩, h⟩

/-- A command that has a result ends with it. -/
theorem keeps_of_completes_done {r : Except Failure Outcome} {p : Yard × Progress}
    (hp : p.2 = .done r) (h : Completes (ofProgress p).1 (ofProgress p).2 result w) :
    result = .command r ∧ p.1.Keeps w := by
  obtain ⟨z, progress⟩ := p
  subst hp
  exact keeps_of_completes_ended h

end Task

/-! ### Schedules with one task -/

theorem Task.ended_of_due?_eq_none {y : Yard} {task : Task} (h : task.due? y = none) :
    ∃ result time, task = .ended result time := by
  cases task with
  | ended result time => exact ⟨result, time, rfl⟩
  | _ => cases h

/-- A schedule takes all its tasks to their ends. -/
theorem Schedule.ended_of_settle (y : Yard) (tasks : List Task) :
    ∀ task ∈ (settle y tasks).2, ∃ result time, task = .ended result time := by
  fun_induction settle y tasks with
  | case1 y tasks hnone =>
    intro task ht
    have hdue := List.filterMap_eq_nil_iff.1 (List.min?_eq_none_iff.1 hnone) task ht
    exact Task.ended_of_due?_eq_none hdue
  | case2 y tasks due hdue polled ih => exact ih

theorem Schedule.length_pollAll (y : Yard) (tasks : List Task) :
    (pollAll y tasks).2.length = tasks.length := by
  induction tasks generalizing y with
  | nil => rfl
  | cons task tasks ih => rw [pollAll_cons, List.length_cons, ih, List.length_cons]

theorem Schedule.length_settle (y : Yard) (tasks : List Task) :
    (settle y tasks).2.length = tasks.length := by
  fun_induction settle y tasks with
  | case1 => rfl
  | case2 y tasks due hdue polled ih => exact ih.trans (length_pollAll _ _)

/-- A schedule with one task takes it to its end. -/
theorem Schedule.run_singleton (y : Yard) (task : Task) :
    ∃ w result time, run y [task] = (w, [.ended result time]) := by
  have hlength : (run y [task]).2.length = 1 := (length_settle _ _).trans (length_pollAll y [task])
  obtain ⟨after, hafter⟩ := List.length_eq_one_iff.1 hlength
  have hmem : after ∈ (run y [task]).2 := hafter ▸ List.mem_cons_self
  obtain ⟨result, time, rfl⟩ := ended_of_settle _ _ after hmem
  exact ⟨_, result, time, Prod.ext rfl hafter⟩

namespace Traffic

/-- Tasks join, and none leaves. -/
theorem length_tasks_le_run (t : Traffic) (moves : List Move) :
    t.tasks.length ≤ (t.run moves).tasks.length := by
  refine run_induction (P := fun u ↦ t.tasks.length ≤ u.tasks.length) (Nat.le_refl _)
    (fun {u} m h ↦ Nat.le_trans h ?_) moves
  cases m with
  | join delay job => simp [move]
  | go place =>
    simp only [move, advance]
    split
    · exact Nat.le_refl _
    · split <;> simp
  | _ => exact Nat.le_refl _

theorem completes_of_run {y : Yard} {task : Task} {result : JobResult} {time : Nat}
    {moves : List Move} (h : (run ⟨y, [task]⟩ moves).tasks = [.ended result time]) :
    Task.Completes y task result (run ⟨y, [task]⟩ moves).yard := by
  induction moves generalizing y task with
  | nil =>
    obtain rfl := (List.cons.inj h).1
    exact .ended y result time
  | cons m moves ih =>
    rw [run_cons] at h ⊢
    cases m with
    | join delay job =>
      -- a second task would have kept its place until the end
      have hlength := length_tasks_le_run (move ⟨y, [task]⟩ (.join delay job)) moves
      rw [h] at hlength
      simp [move] at hlength
    | go place =>
      cases place with
      | zero =>
        cases hr : task.isReady y with
        | true =>
          rw [move, advance_of_ready rfl hr] at h ⊢
          exact .step hr (ih h)
        | false =>
          rw [move, advance_of_not_ready rfl hr] at h ⊢
          exact ih h
      | succ place =>
        rw [move, advance_of_none rfl] at h ⊢
        exact ih h
    | wait time =>
      exact .wait ⟨y.line.faults, y.line.attempts, y.setOff, _, y.allowance, rfl⟩ (ih h)
    | turn allowance =>
      exact .wait ⟨y.line.faults, y.line.attempts, y.setOff, y.now, allowance, rfl⟩ (ih h)
    | alter faults =>
      exact .wait ⟨faults, y.line.attempts, y.setOff, y.now, y.allowance, rfl⟩ (ih h)

/-- **Invariants.** What the steps of a task keep, and what does not depend on what changes while it
waits, holds when the task has ended. -/
theorem holds_of_completes {P : Traffic → Prop} (hmove : ∀ t, P t → P (t.move (.go 0)))
    (hwaits : ∀ {y z : Yard} {task : Task}, y.Waits z → P ⟨y, [task]⟩ → P ⟨z, [task]⟩)
    {y w : Yard} {task : Task} {result : JobResult} (h : Task.Completes y task result w)
    (hP : P ⟨y, [task]⟩) : ∃ task', P ⟨w, [task']⟩ := by
  induction h with
  | ended y result time => exact ⟨_, hP⟩
  | wait hw _ ih => exact ih (hwaits hw hP)
  | step hr _ ih =>
    have hstep := hmove _ hP
    rw [move, advance_of_ready rfl hr] at hstep
    exact ih hstep

/-- **A schedule with one task** lets it have the yard to itself. -/
theorem completes_of_schedule {y w : Yard} {task : Task} {result : JobResult} {time : Nat}
    (h : Schedule.run y [task] = (w, [.ended result time])) : Task.Completes y task result w := by
  obtain ⟨moves, hmoves⟩ := reaches_schedule y [task]
  rw [h] at hmoves
  have hcompletes := completes_of_run (congrArg Traffic.tasks hmoves)
  rwa [hmoves] at hcompletes

end Traffic

/-! ### Ends of deliveries -/

/-- The outcome of a command whose frames have all been accepted; none if it goes on. -/
def Purpose.outcome? : Purpose → Option Outcome
  | movePoint _ _ _ => some (.point .set)
  | setRoute _ _ _ => some (.route .set)
  | release _ _ => some (.route .cleared)
  | clearAll => some (.route .allCleared)
  | showSignal _ => some .signalSet
  | turn _ => some (.turntable .turned)
  | stopSignals _ _ _ => none

namespace Yard

variable {y z w : Yard} {token : Token} {purpose : Purpose} {result : JobResult}

theorem finish_snd {outcome : Outcome} (h : purpose.outcome? = some outcome) :
    (y.finish token purpose).2 = .done (.ok outcome) := by
  cases purpose with
  | stopSignals signal rest count => cases h
  | _ =>
    obtain rfl := Option.some.inj h
    rfl

theorem positionsAfter_congr (h : z.positions = y.positions) :
    z.positionsAfter purpose = y.positionsAfter purpose := by
  cases purpose <;> simp only [positionsAfter, recordRoute, h]

theorem after_finish (y : Yard) (token : Token) (purpose : Purpose) :
    y.After [] y.active (y.positionsAfter purpose) (y.finish token purpose).1 := by
  obtain ⟨channel, h⟩ := y.finish_eq token purpose
  rw [h]
  exact ⟨rfl, rfl, rfl, (List.append_nil _).symm⟩

theorem after_abandon (y : Yard) (failure : Failure) (purpose : Purpose) :
    y.After [] (afterFailure y.active purpose) y.positions (y.abandon failure purpose).1 := by
  obtain ⟨channel, h⟩ := y.abandon_eq failure purpose
  rw [h]
  exact ⟨rfl, rfl, rfl, (List.append_nil _).symm⟩

end Yard

end SignalBox
