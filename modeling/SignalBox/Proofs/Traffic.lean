import SignalBox.Session.Schedule

/-!
# Traffic

Any number of tasks over one yard, taken up at any time and carried on in any order. A list of
moves says what happens next: a job joins, a task that is ready takes its next indivisible step, the
clock goes on, a turn begins with some allowance, the bus changes its faults. Every list of moves is
a run, because a move that is not possible changes nothing; so a fact about all lists of moves is a
fact about every interleaving of the tasks, split wherever a task waits.

* **Faults at any moment.** A bus with fixed faults refuses one write. Here they change between any
  two steps, so that any set of writes may be refused and any write may set off a cancellation.
* **Schedules are runs** (`reaches_schedule`). The order in which a schedule polls its tasks is
  one of those considered here; the runs of the session are therefore covered by whatever holds of
  all lists of moves.
-/

namespace SignalBox

/-- A yard with the tasks over it. A task that has ended keeps its place, so that the place tells it
from all others. -/
structure Traffic where
  /-- What all tasks share. -/
  yard : Yard
  /-- The tasks, in the order in which they joined. -/
  tasks : List Task

/-- What may happen next. -/
inductive Move
  | join (delay : Nat) (job : Job)
  | go (place : Nat)
  | wait (time : Nat)
  | turn (allowance : Nat)
  | alter (faults : BusFaults)
  deriving DecidableEq

namespace Traffic

/-- A yard in which nothing has happened, and no tasks. -/
def start (layout : Layout) (delay capacity : Nat) (faults : BusFaults) : Traffic :=
  { yard := .start layout delay capacity faults, tasks := [] }

/-- The next step of the task at a place, if it is ready. -/
def advance (t : Traffic) (place : Nat) : Traffic :=
  match t.tasks[place]? with
  | none => t
  | some task =>
    if task.isReady t.yard then
      { yard := (task.step t.yard).1, tasks := t.tasks.set place (task.step t.yard).2 }
    else t

/-- What a move makes of the traffic. -/
def move (t : Traffic) : Move → Traffic
  | .join delay job => { t with tasks := t.tasks ++ [.ofJob t.yard delay job] }
  | .go place => t.advance place
  | .wait time => { t with yard := t.yard.waitUntil time }
  | .turn allowance => { t with yard := { t.yard with allowance := allowance } }
  | .alter faults =>
    { t with yard := { t.yard with line := { t.yard.line with faults := faults } } }

/-- What a list of moves makes of the traffic. -/
def run (t : Traffic) (moves : List Move) : Traffic :=
  moves.foldl move t

@[simp]
theorem run_nil (t : Traffic) : t.run [] = t := rfl

@[simp]
theorem run_cons (t : Traffic) (m : Move) (moves : List Move) :
    t.run (m :: moves) = (t.move m).run moves := rfl

theorem run_append (t : Traffic) (first second : List Move) :
    t.run (first ++ second) = (t.run first).run second :=
  List.foldl_append

theorem run_concat (t : Traffic) (moves : List Move) (m : Move) :
    t.run (moves ++ [m]) = (t.run moves).move m := by
  rw [run_append]
  rfl

theorem run_append_cons (t : Traffic) (before : List Move) (m : Move) (since : List Move) :
    t.run (before ++ m :: since) = (t.run (before ++ [m])).run since := by
  rw [← run_append, List.append_assoc, List.singleton_append]

/-- **Invariants.** What holds of the traffic at the start and is kept by every move holds after
every run. -/
theorem run_induction {P : Traffic → Prop} {t : Traffic} (start : P t)
    (step : ∀ {t : Traffic} (m : Move), P t → P (t.move m)) (moves : List Move) :
    P (t.run moves) := by
  induction moves generalizing t with
  | nil => exact start
  | cons m moves ih => exact ih (step m start)

theorem advance_of_none {t : Traffic} {place : Nat} (h : t.tasks[place]? = none) :
    t.advance place = t := by
  simp [advance, h]

theorem advance_of_ready {t : Traffic} {place : Nat} {task : Task}
    (h : t.tasks[place]? = some task) (hr : task.isReady t.yard = true) :
    t.advance place =
      { yard := (task.step t.yard).1, tasks := t.tasks.set place (task.step t.yard).2 } := by
  simp [advance, h, hr]

theorem advance_of_not_ready {t : Traffic} {place : Nat} {task : Task}
    (h : t.tasks[place]? = some task) (hr : task.isReady t.yard = false) :
    t.advance place = t := by
  simp [advance, h, hr]

theorem advance_cases (t : Traffic) (place : Nat) :
    t.advance place = t ∨ ∃ task, t.tasks[place]? = some task ∧ task.isReady t.yard = true ∧
      t.advance place =
        { yard := (task.step t.yard).1, tasks := t.tasks.set place (task.step t.yard).2 } := by
  cases ht : t.tasks[place]? with
  | none => exact .inl (advance_of_none ht)
  | some task =>
    cases hr : task.isReady t.yard with
    | false => exact .inl (advance_of_not_ready ht hr)
    | true => exact .inr ⟨task, rfl, hr, advance_of_ready ht hr⟩

/-! ### What becomes of one task -/

theorem tasks_advance_of_ne {t : Traffic} {place other : Nat} (h : place ≠ other) :
    (t.advance place).tasks[other]? = t.tasks[other]? := by
  rw [advance]
  split
  · rfl
  · split
    · exact List.getElem?_set_ne h
    · rfl

/-- **One move and one task.** A move leaves a task as it is, unless it is the move of this task. -/
theorem tasks_move_of_ne {t : Traffic} {m : Move} {place : Nat} {task : Task}
    (h : t.tasks[place]? = some task) (hm : m ≠ .go place) :
    (t.move m).tasks[place]? = some task := by
  cases m with
  | join delay job =>
    have hlt : place < t.tasks.length := (List.getElem?_eq_some_iff.1 h).1
    show (t.tasks ++ [_])[place]? = some task
    rw [List.getElem?_append_left hlt, h]
  | go other => exact (tasks_advance_of_ne fun he ↦ hm (congrArg Move.go he)).trans h
  | wait time => exact h
  | turn allowance => exact h
  | alter faults => exact h

/-- A task that joins is about to begin, now or later. -/
theorem tasks_move_of_none {t : Traffic} {m : Move} {place : Nat} {task : Task}
    (h : t.tasks[place]? = none) (ht : (t.move m).tasks[place]? = some task) :
    ∃ delay job, task = .ofJob t.yard delay job := by
  cases m with
  | join delay job =>
    have hle : t.tasks.length ≤ place := List.getElem?_eq_none_iff.1 h
    have hs : (t.tasks ++ [Task.ofJob t.yard delay job])[place]? = some task := ht
    rw [List.getElem?_append_right hle, List.getElem?_singleton] at hs
    split at hs
    · exact ⟨delay, job, (Option.some.inj hs).symm⟩
    · cases hs
  | go other =>
    by_cases he : other = place
    · subst he
      rw [move, advance_of_none h, h] at ht
      cases ht
    · rw [move, tasks_advance_of_ne he, h] at ht
      cases ht
  | wait time => exact absurd (h.symm.trans ht) (by simp)
  | turn allowance => exact absurd (h.symm.trans ht) (by simp)
  | alter faults => exact absurd (h.symm.trans ht) (by simp)

/-! ### Schedules are runs -/

/-- Some run leads from one state of the traffic to another. -/
def Reaches (t u : Traffic) : Prop :=
  ∃ moves, t.run moves = u

theorem Reaches.refl (t : Traffic) : t.Reaches t := ⟨[], rfl⟩

theorem Reaches.trans {t u v : Traffic} (h₁ : t.Reaches u) (h₂ : u.Reaches v) : t.Reaches v := by
  obtain ⟨first, rfl⟩ := h₁
  obtain ⟨second, rfl⟩ := h₂
  exact ⟨first ++ second, run_append t first second⟩

theorem reaches_move (t : Traffic) (m : Move) : t.Reaches (t.move m) := ⟨[m], rfl⟩

variable (y : Yard) (before after : List Task) (task : Task)

theorem reaches_step (h : task.isReady y = true) :
    Reaches ⟨y, before ++ task :: after⟩ ⟨(task.step y).1, before ++ (task.step y).2 :: after⟩ := by
  refine ⟨[.go before.length], ?_⟩
  have hp : (before ++ task :: after)[before.length]? = some task := by simp
  rw [run_cons, run_nil, move, advance_of_ready hp h]
  simp

theorem reaches_advance (steps : Nat) :
    Reaches ⟨y, before ++ task :: after⟩
      ⟨(task.advance y steps).1, before ++ (task.advance y steps).2 :: after⟩ := by
  fun_induction Task.advance y task steps with
  | case1 => exact .refl _
  | case2 y task steps h y' task' hs ih =>
    have hstep := reaches_step y before after task (Task.isReady_of_canGoOn h)
    rw [hs] at hstep
    exact hstep.trans ih
  | case3 => exact .refl _

theorem reaches_poll :
    Reaches ⟨y, before ++ task :: after⟩
      ⟨(task.poll y).1, before ++ (task.poll y).2 :: after⟩ := by
  rw [Task.poll]
  split
  next h =>
    exact (reaches_step y before after task (Task.isReady_of_canGoOn h)).trans
      (reaches_advance _ before after _ _)
  next => exact .refl _

theorem reaches_pollAll (tasks : List Task) :
    Reaches ⟨y, before ++ tasks⟩
      ⟨(Schedule.pollAll y tasks).1, before ++ (Schedule.pollAll y tasks).2⟩ := by
  induction tasks generalizing y before with
  | nil => exact .refl _
  | cons task tasks ih =>
    have htail := ih (task.poll y).1 (before ++ [(task.poll y).2])
    simp only [List.append_assoc, List.singleton_append] at htail
    exact (reaches_poll y before tasks task).trans htail

theorem reaches_settle (tasks : List Task) :
    Reaches ⟨y, tasks⟩ ⟨(Schedule.settle y tasks).1, (Schedule.settle y tasks).2⟩ := by
  fun_induction Schedule.settle y tasks with
  | case1 y tasks h => exact .refl _
  | case2 y tasks due h polled ih =>
    -- the time goes on to when the next task is due, and a turn begins in which all are polled
    have hwait := (reaches_move ⟨y, tasks⟩ (.wait due)).trans
      (reaches_move _ (.turn Yard.turnLength))
    exact (hwait.trans (reaches_pollAll _ [] tasks)).trans ih

/-- **Schedules are runs**: a schedule takes its tasks to their ends by moves of the traffic. -/
theorem reaches_schedule (tasks : List Task) :
    Reaches ⟨y, tasks⟩ ⟨(Schedule.run y tasks).1, (Schedule.run y tasks).2⟩ :=
  (reaches_pollAll y [] tasks).trans (reaches_settle _ _)

end Traffic

end SignalBox
