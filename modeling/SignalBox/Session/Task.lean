import SignalBox.Dispatch.Execute

/-!
# Tasks

A job, once it is its time, becomes a task that waits now and then. Tasks take turns, and in one
turn only so many of their waits may end, so that none of them keeps the others from going on: when
the allowance of a turn is used up, whatever would have to wait goes on in the next one, at the same
moment. A poll takes a task as far as it can go: one that can go on gets closer to its end
(`decreases_of_poll`), and one that cannot is left as it is (`poll_of_not_canGoOn`).

Besides the ends of waits, two things count. A command that waits looks for its cancellation first,
and if the cancellation comes later, that ends the wait. One whose cancellation is gone for good
finds this out each time that it looks, which counts as the end of a wait.
-/

namespace SignalBox

/-- Something to be done in a yard. -/
inductive Job
  | command (command : Command) (token : Token)
  | signal (signal : SignalCommand) (token : Token)
  | replaceLayout (layout : Layout)
  | cancel (cancellation : Nat)
  | sleep (duration : Nat)
  | write (bytes : List UInt8)
  deriving DecidableEq

/-- What came of a job. -/
inductive JobResult
  | command (result : Except Failure Outcome)
  | nothing
  | cancelled
  | written (error : Option BusError)
  deriving DecidableEq

/-- A job on its way: about to begin, not to begin before some time, a command in flight, asleep, in
the middle of a write, or ended at some time. A command in flight is alert if it has looked for its
cancellation since its present wait began. -/
inductive Task
  | pending (job : Job)
  | planned (due : Nat) (job : Job)
  | inFlight (activity : Activity) (alert : Bool)
  | asleep (due : Nat)
  | writing (due : Nat) (bytes : List UInt8)
  | ended (result : JobResult) (time : Nat)
  deriving DecidableEq

namespace Task

/-- The task of a job that is to begin after the given time. -/
def ofJob (y : Yard) (delay : Nat) (job : Job) : Task :=
  if delay = 0 then .pending job else .planned (y.dueAfter delay) job

/-! ### Single steps -/

/-- The task of a command that has made progress. -/
def ofProgress : Yard × Progress → Yard × Task
  | (y, .underWay a) => (y, .inFlight a false)
  | (y, .done result) => (y, .ended (.command result) y.now)

/-- Writes bytes, which ends a task. -/
def finishWrite (y : Yard) (bytes : List UInt8) : Yard × Task :=
  match y.sendBytes bytes with
  | (y, error) => (y, .ended (.written error) y.now)

/-- Begins a job. -/
def begin (y : Yard) : Job → Yard × Task
  | .command command token => ofProgress (y.startCommand token command)
  | .signal signal token => ofProgress (y.startSignal token signal)
  | .replaceLayout layout => (y.replaceLayout layout, .ended .nothing y.now)
  | .cancel cancellation => (y.cancel cancellation, .ended .cancelled y.now)
  | .sleep duration => (y, .asleep (y.dueAfter duration))
  | .write bytes =>
    if y.line.faults.latency = 0 then finishWrite y bytes
    else (y, .writing (y.dueAfter y.line.faults.latency) bytes)

/-- Looks for the cancellation of a command. If there is none, a write that takes no time is done at
once. -/
def look (y : Yard) (a : Activity) : Yard × Task :=
  if y.isCancelled a.delivery.token then ofProgress (a.step y)
  else
    let listening := y.listen a.delivery.token
    if a.delivery.isImmediate y then ofProgress (a.step listening)
    else (listening, .inFlight a true)

/-- One step of a task that can go on. -/
def step (y : Yard) : Task → Yard × Task
  | pending job => begin y job
  | planned _ job => begin y.spend job
  | inFlight a false => look y a
  | inFlight a true => ofProgress (a.step y.spend)
  | asleep _ => (y.spend, .ended .nothing y.now)
  | writing _ bytes => finishWrite y.spend bytes
  | ended result time => (y, ended result time)

/-- Whether a task is waiting for nothing but its turn. -/
def isReady (y : Yard) : Task → Bool
  | pending _ => true
  | planned due _ => due ≤ y.now
  | inFlight a alert => !alert || a.isReady y
  | asleep due => due ≤ y.now
  | writing due _ => due ≤ y.now
  | ended _ _ => false

/-- Whether a task is one to which the allowance of a turn does not matter. -/
def isUnbounded : Task → Bool
  | pending _ => true
  | _ => false

/-- Whether a task can take a step in the present turn. -/
def canGoOn (y : Yard) (task : Task) : Bool :=
  task.isReady y && (task.isUnbounded || 0 < y.allowance)

/-- The time at which a task can go on; none if it has ended. -/
def due? (y : Yard) : Task → Option Nat
  | pending _ => some y.now
  | planned due _ => some due
  | inFlight a alert => some (if !alert || a.isReady y then y.now else a.delivery.wait.due)
  | asleep due => some due
  | writing due _ => some due
  | ended _ _ => none

/-- The result of a task that has ended, and the time of its end. -/
def result? : Task → Option (JobResult × Nat)
  | ended result time => some (result, time)
  | _ => none

/-! ### Every step brings the end closer -/

/-- The number of beginnings that a task has left. -/
def beginningsLeft : Task → Nat
  | pending _ => 1
  | planned _ _ => 1
  | _ => 0

/-- A bound on the number of steps that a task has left once it has begun. -/
def stepsLeft : Task → Nat
  | inFlight a false => 2 * a.stepsLeft + 1
  | inFlight a true => 2 * a.stepsLeft
  | asleep _ => 1
  | writing _ _ => 1
  | _ => 0

/-- Whether a task is closer to its end than another. -/
def Closer (task other : Task) : Prop :=
  task.beginningsLeft < other.beginningsLeft ∨
    task.beginningsLeft = other.beginningsLeft ∧ task.stepsLeft < other.stepsLeft

/-- A task at the time for which it waits is ready. -/
theorem isReady_of_due? {y : Yard} {task : Task} {due : Nat} (h : task.due? y = some due) :
    task.isReady (y.waitUntil due) = true := by
  cases task with
  | pending job => rfl
  | inFlight a alert =>
    simp only [due?, Option.some.injEq] at h
    simp only [isReady, Bool.or_eq_true]
    split at h
    next hr => exact (Bool.or_eq_true _ _ ▸ hr).imp id (a.delivery.isReady_waitUntil due)
    next =>
      subst h
      exact .inr (a.delivery.isReady_waitUntil_due y)
  | ended result time => simp [due?] at h
  | _ =>
    simp only [due?, Option.some.injEq] at h
    subst h
    exact decide_eq_true (Nat.le_max_right _ _)

theorem beginningsLeft_ofProgress (p : Yard × Progress) : (ofProgress p).2.beginningsLeft = 0 := by
  unfold ofProgress
  split <;> rfl

theorem beginningsLeft_begin (y : Yard) (job : Job) : (begin y job).2.beginningsLeft = 0 := by
  cases job with
  | command command token => exact beginningsLeft_ofProgress _
  | signal signal token => exact beginningsLeft_ofProgress _
  | write bytes => simp only [begin]; split <;> rfl
  | _ => rfl

theorem stepsLeft_ofProgress_step (y : Yard) (a : Activity) :
    (ofProgress (a.step y)).2.stepsLeft < 2 * a.stepsLeft := by
  have := a.stepsLeft_pos
  unfold ofProgress
  split
  next hs =>
    have := Activity.stepsLeft_lt_of_step hs
    simp only [stepsLeft]
    omega
  next =>
    simp only [stepsLeft]
    omega

theorem closer_look (y : Yard) (a : Activity) : (look y a).2.Closer (.inFlight a false) := by
  have hstep : ∀ y : Yard, (ofProgress (a.step y)).2.Closer (.inFlight a false) := fun y ↦
    .inr ⟨beginningsLeft_ofProgress _, Nat.lt_succ_of_lt (stepsLeft_ofProgress_step y a)⟩
  unfold look
  split
  · exact hstep _
  · dsimp only
    split
    · exact hstep _
    · exact .inr ⟨rfl, Nat.lt_succ_self _⟩

/-- Each step of a task that is ready brings its end closer. -/
theorem closer_step {y : Yard} {task : Task} (h : task.isReady y = true) :
    (task.step y).2.Closer task := by
  cases task with
  | pending job => exact .inl ((beginningsLeft_begin y job) ▸ Nat.zero_lt_one)
  | planned due job => exact .inl ((beginningsLeft_begin y.spend job) ▸ Nat.zero_lt_one)
  | inFlight a alert =>
    cases alert with
    | false => exact closer_look y a
    | true => exact .inr ⟨beginningsLeft_ofProgress _, stepsLeft_ofProgress_step y.spend a⟩
  | asleep due => exact .inr ⟨rfl, Nat.zero_lt_one⟩
  | writing due bytes => exact .inr ⟨rfl, Nat.zero_lt_one⟩
  | ended result time => simp [isReady] at h

theorem isReady_of_canGoOn {y : Yard} {task : Task} (h : task.canGoOn y = true) :
    task.isReady y = true := by
  rw [canGoOn, Bool.and_eq_true] at h
  exact h.1

/-- In a new turn, a task that is ready can go on. -/
theorem canGoOn_nextTurn {y : Yard} {task : Task} (h : task.isReady y = true) :
    task.canGoOn y.nextTurn = true := by
  have : task.isReady y.nextTurn = true := by cases task <;> exact h
  rw [canGoOn, this, Bool.true_and, Bool.or_eq_true]
  exact .inr (decide_eq_true (show 0 < Yard.turnLength by decide))

/-! ### Polls -/

/-- Takes steps as long as a task can go on, up to the given number. -/
def advance (y : Yard) (task : Task) : Nat → Yard × Task
  | 0 => (y, task)
  | steps + 1 =>
    if task.canGoOn y then
      match task.step y with
      | (y, task) => task.advance y steps
    else (y, task)

/-- Runs a task until it has to wait, for the next turn or for something else. -/
def poll (y : Yard) (task : Task) : Yard × Task :=
  if task.canGoOn y then
    match task.step y with
    | (y, task) => task.advance y task.stepsLeft
  else (y, task)

/-- A task that cannot go on is left as it is. -/
theorem poll_of_not_canGoOn {y : Yard} {task : Task} (h : task.canGoOn y = false) :
    task.poll y = (y, task) := by
  simp [poll, h]

theorem noFarther_of_advance (y : Yard) (task : Task) (steps : Nat) :
    (task.advance y steps).2 = task ∨ (task.advance y steps).2.Closer task := by
  fun_induction advance y task steps with
  | case1 => exact .inl rfl
  | case2 y task steps h y' task' hs ih =>
    have hc : task'.Closer task := by
      have := closer_step (isReady_of_canGoOn h)
      rwa [hs] at this
    rcases ih with ih | ih
    · exact .inr (by rwa [ih])
    · refine .inr ?_
      unfold Closer at *
      omega
  | case3 => exact .inl rfl

/-- A poll takes a task that can go on closer to its end. -/
theorem decreases_of_poll {y : Yard} {task : Task} (h : task.canGoOn y = true) :
    (task.poll y).2.Closer task := by
  have hc : (task.step y).2.Closer task := closer_step (isReady_of_canGoOn h)
  rw [poll, if_pos h]
  dsimp only
  rcases noFarther_of_advance (task.step y).1 (task.step y).2 (task.step y).2.stepsLeft with hp | hp
  · rwa [hp]
  · unfold Closer at *
    omega

/-- A poll leaves a task as it is or takes it closer to its end. -/
theorem noFarther_of_poll (y : Yard) (task : Task) :
    task.poll y = (y, task) ∨ (task.poll y).2.Closer task := by
  cases h : task.canGoOn y with
  | true => exact .inr (decreases_of_poll h)
  | false => exact .inl (poll_of_not_canGoOn h)

end Task

end SignalBox
