import SignalBox.Session.Task

/-!
# Schedules

Several tasks go on at the same time. In each turn they are polled in the order of their list, each
until it waits again. The clock stands still while any of them can go on in the next turn, because
the present one was too short for it or because another task has set off the cancellation that it
waits for. Then the clock moves to the earliest time for which a task waits. Each turn takes at
least one task further (`decreases_of_pollAll`), so that all of them end.
-/

namespace SignalBox

namespace Schedule

/-- Polls tasks in order. -/
def pollAll (y : Yard) : List Task → Yard × List Task
  | [] => (y, [])
  | task :: tasks =>
    match task.poll y with
    | (y, task) =>
      match pollAll y tasks with
      | (y, tasks) => (y, task :: tasks)

/-- The earliest time at which one of the tasks can go on. -/
def nextDue? (y : Yard) (tasks : List Task) : Option Nat :=
  (tasks.filterMap (Task.due? y)).min?

/-! ### Each round brings the end closer -/

/-- The number of beginnings that all tasks have left. -/
def allBeginningsLeft : List Task → Nat
  | [] => 0
  | task :: tasks => task.beginningsLeft + allBeginningsLeft tasks

/-- A bound on the number of steps that all tasks have left once they have begun. -/
def allStepsLeft : List Task → Nat
  | [] => 0
  | task :: tasks => task.stepsLeft + allStepsLeft tasks

theorem pollAll_cons (y : Yard) (task : Task) (tasks : List Task) :
    (pollAll y (task :: tasks)).2 =
      (task.poll y).2 :: (pollAll (task.poll y).1 tasks).2 := rfl

/-- Whether tasks are closer to their ends than others. -/
def AllCloser (tasks others : List Task) : Prop :=
  allBeginningsLeft tasks < allBeginningsLeft others ∨
    allBeginningsLeft tasks = allBeginningsLeft others ∧ allStepsLeft tasks < allStepsLeft others

theorem noFarther_of_pollAll (y : Yard) (tasks : List Task) :
    allBeginningsLeft (pollAll y tasks).2 < allBeginningsLeft tasks ∨
      allBeginningsLeft (pollAll y tasks).2 = allBeginningsLeft tasks ∧
        allStepsLeft (pollAll y tasks).2 ≤ allStepsLeft tasks := by
  induction tasks generalizing y with
  | nil => exact .inr ⟨rfl, Nat.le_refl _⟩
  | cons task tasks ih =>
    have htail := ih (task.poll y).1
    simp only [pollAll_cons, allBeginningsLeft, allStepsLeft]
    rcases task.noFarther_of_poll y with hp | hp
    · rw [hp] at htail ⊢
      dsimp only at htail ⊢
      omega
    · unfold Task.Closer at hp
      omega

/-- Polling tasks one of which can go on brings all of them closer to their ends. -/
theorem decreases_of_pollAll {y : Yard} {tasks : List Task} {task : Task} (ht : task ∈ tasks)
    (h : task.canGoOn y = true) : AllCloser (pollAll y tasks).2 tasks := by
  induction tasks generalizing y with
  | nil => simp at ht
  | cons first tasks ih =>
    unfold AllCloser at ih ⊢
    simp only [pollAll_cons, allBeginningsLeft, allStepsLeft]
    cases hr : first.canGoOn y with
    | true =>
      have htail := noFarther_of_pollAll (first.poll y).1 tasks
      have hp := Task.decreases_of_poll hr
      unfold Task.Closer at hp
      omega
    | false =>
      rcases List.mem_cons.1 ht with rfl | ht
      · simp [h] at hr
      · have := ih ht h
        simp only [Task.poll_of_not_canGoOn hr]
        omega

theorem exists_isReady_of_nextDue? {y : Yard} {tasks : List Task} {due : Nat}
    (h : nextDue? y tasks = some due) :
    ∃ task ∈ tasks, task.isReady (y.waitUntil due) = true := by
  obtain ⟨task, ht, hd⟩ := List.mem_filterMap.1 (List.min?_mem h)
  exact ⟨task, ht, Task.isReady_of_due? hd⟩

/-! ### Running tasks -/

/-- Runs tasks to their ends, from the next turn on. -/
def settle (y : Yard) (tasks : List Task) : Yard × List Task :=
  match _h : nextDue? y tasks with
  | none => (y, tasks)
  | some due =>
    let polled := pollAll (y.waitUntil due).nextTurn tasks
    settle polled.1 polled.2
termination_by (allBeginningsLeft tasks, allStepsLeft tasks)
decreasing_by
  obtain ⟨task, ht, hr⟩ := exists_isReady_of_nextDue? _h
  rcases decreases_of_pollAll ht (Task.canGoOn_nextTurn hr) with hb | ⟨hb, hs⟩
  · exact Prod.Lex.left _ _ hb
  · rw [hb]
    exact Prod.Lex.right _ hs

/-- Runs tasks to their ends, from the present turn on. -/
def run (y : Yard) (tasks : List Task) : Yard × List Task :=
  let polled := pollAll y tasks
  settle polled.1 polled.2

end Schedule

/-- Does jobs at the same time, each from its own time on, counted from now. Gives the results and
the times of their ends, in the order of the jobs. -/
def Yard.doAll (y : Yard) (jobs : List (Nat × Job)) : Yard × List (JobResult × Nat) :=
  let (y, tasks) := Schedule.run y (jobs.map fun j ↦ .ofJob y j.1 j.2)
  (y, tasks.filterMap Task.result?)

end SignalBox
