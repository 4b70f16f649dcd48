import SignalBox.Proofs.Beginnings
import SignalBox.Proofs.Traffic

/-!
# What a step does to the active routes

Each step takes some of the active routes away and adds at most one. Which routes it takes away is
computed by `withdraws`: those that a beginning release means, all of them when all are cleared, and
those that have the end signals of a route whose delivery fails. What it adds is the route that a
request to set it has just been admitted for. The main statement is `Task.routes_step`, which says
this of the next step of any task; `Traffic.routes_move` says it of the next move.
-/

namespace SignalBox

/-! ### What is withdrawn -/

/-- Whether the beginning of a command takes an active route away. -/
def Command.withdraws (r : RouteCommand) : Command → Bool
  | .route request => request.state.isTeardown && request.releases r
  | .control .clearAllRoutes => true
  | _ => false

/-- Whether the beginning of a job takes an active route away. -/
def Job.withdraws (r : RouteCommand) : Job → Bool
  | .command c _ => c.withdraws r
  | _ => false

/-- Whether a failed delivery for this purpose takes an active route away. -/
def Purpose.withdraws (r : RouteCommand) : Purpose → Bool
  | .setRoute _ request _ => request.releases r
  | _ => false

/-- Whether a command has ended with a failure. -/
def Progress.failed : Progress → Bool
  | .done (.error _) => true
  | _ => false

namespace Task

/-- Whether a task is a command that has ended with a failure. -/
def failed : Task → Bool
  | ended (.command (.error _)) _ => true
  | _ => false

/-- The job that the next step of a task begins. -/
def job? : Task → Option Job
  | pending job => some job
  | planned _ job => some job
  | _ => none

/-- Whether the next step of a task takes an active route away. -/
def withdraws (y : Yard) (r : RouteCommand) (task : Task) : Bool :=
  match task with
  | pending job => job.withdraws r
  | planned _ job => job.withdraws r
  | inFlight a _ => a.purpose.withdraws r && (task.step y).2.failed
  | _ => false

end Task

namespace Yard

variable (y : Yard) (token : Token)

/-! ### Beginnings -/

theorem active_startPoint (command : PointCommand) :
    (y.startPoint token command).1.active = y.active := by
  rcases y.startPoint_cases token command with ⟨outcome, -, h⟩ | ⟨cause, h⟩ | ⟨point, frames, -, h⟩
  · rw [h]
    rfl
  · rw [h]
    rfl
  · rw [h, active_deliver]

theorem active_startTurntable (command : TurntableCommand) :
    (y.startTurntable token command).1.active = y.active := by
  rw [startTurntable]
  split
  · rfl
  · split <;> rfl

theorem active_stopAllSignals : (y.stopAllSignals token).1.active = y.active := by
  obtain ⟨channel, h⟩ := y.showSignals_eq token (stopCommands y.layout).length
    (stopCommands y.layout)
  rw [stopAllSignals, h]

theorem active_startSignal (signal : SignalCommand) :
    (y.startSignal token signal).1.active = y.active := by
  rw [startSignal]
  split <;> rfl

theorem active_releaseRoute (request : RouteCommand) :
    (y.releaseRoute token request).1.active = y.active.without request := by
  rcases y.releaseRoute_cases token request with ⟨-, h⟩ | ⟨-, ⟨cause, -, h⟩ | ⟨frames, -, h⟩⟩
  · rw [h]
    rfl
  · rw [h]
    rfl
  · rw [h, active_deliver]
    rfl

theorem active_clearAllRoutes : (y.clearAllRoutes token).1.active = .empty := by
  rcases y.clearAllRoutes_cases token with ⟨cause, -, h⟩ | ⟨frames, -, h⟩
  · rw [h]
    rfl
  · rw [h, active_deliver]
    rfl

theorem active_setRoute_cases (request : RouteCommand) :
    (y.setRoute token request).1.active = y.active ∨
      ∃ route resolved frames, y.Admits request route resolved frames ∧
        (y.setRoute token request).1.active = y.active.insert resolved := by
  rcases y.setRoute_cases token request with
      ⟨reason, h⟩ | ⟨cause, h⟩ | ⟨route, resolved, frames, ha, h⟩
  · exact .inl (by rw [h]; rfl)
  · exact .inl (by rw [h]; rfl)
  · exact .inr ⟨route, resolved, frames, ha, by rw [h, active_deliver]; rfl⟩

/-- Nothing is taken away where nothing is withdrawn. -/
theorem routes_eq_filter (active : Reservations) {withdraws : RouteCommand → Bool}
    (h : ∀ r, withdraws r = false) :
    active.routes = active.routes.filter fun r ↦ !withdraws r := by
  simp [h]

/-- **Beginnings.** A command that begins takes away what it withdraws, or it is a request to set a
route and adds that route. -/
theorem routes_startCommand (command : Command) :
    (y.startCommand token command).1.active.routes =
        (y.active.routes.filter fun r ↦ !command.withdraws r) ∨
      ∃ request route resolved frames, command = .route request ∧ request.state.isSet = true ∧
        y.Admits request route resolved frames ∧
        (y.startCommand token command).1.active = y.active.insert resolved := by
  cases command with
  | point command =>
    refine .inl ?_
    rw [startCommand, active_startPoint]
    exact routes_eq_filter _ fun _ ↦ rfl
  | route request =>
    rw [startCommand, startRoute]
    by_cases hset : request.state.isSet = true
    · rw [if_pos hset]
      have hteardown := RouteState.isTeardown_of_isSet hset
      rcases y.active_setRoute_cases token request with h | ⟨route, resolved, frames, ha, h⟩
      · refine .inl ?_
        rw [h]
        exact routes_eq_filter _ fun r ↦ by rw [Command.withdraws, hteardown, Bool.false_and]
      · exact .inr ⟨request, route, resolved, frames, rfl, hset, ha, h⟩
    · rw [if_neg hset]
      refine .inl ?_
      by_cases hteardown : request.state.isTeardown = true
      · rw [if_pos hteardown, active_releaseRoute]
        simp only [Command.withdraws, hteardown, Bool.true_and]
        rfl
      · rw [if_neg hteardown]
        exact routes_eq_filter y.active fun r ↦ by simp [Command.withdraws, hteardown]
  | turntable command =>
    refine .inl ?_
    rw [startCommand, active_startTurntable]
    exact routes_eq_filter _ fun _ ↦ rfl
  | control command =>
    refine .inl ?_
    cases command with
    | reload => exact routes_eq_filter y.active fun _ ↦ rfl
    | clearAllRoutes =>
      rw [startCommand, active_clearAllRoutes]
      simp [Command.withdraws, Reservations.empty]
    | stopAllSignals =>
      rw [startCommand, active_stopAllSignals]
      exact routes_eq_filter _ fun _ ↦ rfl

end Yard

/-! ### Steps of commands in flight -/

/-- **Commands in flight.** A step takes away what a failing delivery withdraws. -/
theorem Activity.routes_step (y : Yard) (a : Activity) :
    (a.step y).1.active.routes =
      y.active.routes.filter fun r ↦ !(a.purpose.withdraws r && (a.step y).2.failed) := by
  by_cases hf : a.Fails y
  · rw [a.active_step_of_fails y hf]
    obtain ⟨failure, hf⟩ := hf
    cases hp : a.purpose with
    | setRoute layout request resolved =>
      -- what is rolled back are the routes with the end signals of this one
      have hfailed : (a.step y).2.failed = true := by
        rw [step]
        split
        next hs => simp [hs] at hf
        next => rw [hp]; rfl
        next hs => simp [hs] at hf
      simp only [hfailed, Bool.and_true]
      rfl
    | _ => exact Yard.routes_eq_filter y.active fun _ ↦ rfl
  · rw [a.active_step_of_not_fails y hf]
    refine Yard.routes_eq_filter _ fun r ↦ ?_
    cases hp : a.purpose with
    | setRoute layout request resolved =>
      have hgood : (a.step y).2.failed = false := by
        rw [step]
        split
        next => rfl
        next hs => exact absurd ⟨_, by rw [hs]⟩ hf
        next => rw [hp]; rfl
      rw [hgood, Bool.and_false]
    | _ => rfl

namespace Task

variable (y : Yard)

theorem failed_ofProgress (p : Yard × Progress) : (ofProgress p).2.failed = p.2.failed := by
  obtain ⟨y, progress⟩ := p
  cases progress with
  | underWay a => rfl
  | done result => cases result <;> rfl

theorem active_ofProgress (p : Yard × Progress) : (ofProgress p).1.active = p.1.active := by
  obtain ⟨y, progress⟩ := p
  cases progress <;> rfl

theorem active_listen (token : Token) : (y.listen token).active = y.active := by
  cases token <;> rfl

theorem active_finishWrite (bytes : List UInt8) :
    (finishWrite y bytes).1.active = y.active := by
  obtain ⟨line, setOff, h⟩ := y.sendBytes_eq bytes
  show (y.sendBytes bytes).1.active = y.active
  rw [h]

theorem routes_begin (job : Job) :
    (begin y job).1.active.routes = (y.active.routes.filter fun r ↦ !job.withdraws r) ∨
      ∃ request token route resolved frames, job = .command (.route request) token ∧
        request.state.isSet = true ∧ y.Admits request route resolved frames ∧
        (begin y job).1.active = y.active.insert resolved := by
  cases job with
  | command command token =>
    simp only [begin, active_ofProgress]
    rcases y.routes_startCommand token command with
        h | ⟨request, route, resolved, frames, rfl, hset, ha, h⟩
    · exact .inl h
    · exact .inr ⟨request, token, route, resolved, frames, rfl, hset, ha, h⟩
  | signal signal token =>
    refine .inl ?_
    rw [begin, active_ofProgress, Yard.active_startSignal]
    exact Yard.routes_eq_filter _ fun _ ↦ rfl
  | write bytes =>
    refine .inl ?_
    rw [begin]
    split
    · rw [active_finishWrite]
      exact Yard.routes_eq_filter _ fun _ ↦ rfl
    · exact Yard.routes_eq_filter y.active fun _ ↦ rfl
  | _ => exact .inl (Yard.routes_eq_filter y.active fun _ ↦ rfl)

theorem routes_ofProgress_step (a : Activity) :
    (ofProgress (a.step y)).1.active.routes = y.active.routes.filter fun r ↦
      !(a.purpose.withdraws r && (ofProgress (a.step y)).2.failed) := by
  rw [active_ofProgress, failed_ofProgress]
  exact a.routes_step y

theorem routes_look (a : Activity) :
    (look y a).1.active.routes = y.active.routes.filter fun r ↦
      !(a.purpose.withdraws r && (look y a).2.failed) := by
  rw [look]
  split
  · exact routes_ofProgress_step y a
  · dsimp only
    split
    · rw [← active_listen y a.delivery.token]
      exact routes_ofProgress_step _ a
    · rw [active_listen]
      exact Yard.routes_eq_filter _ fun r ↦ Bool.and_false _

/-- **The next step of any task** takes away what it withdraws, or it begins a request to set a
route and adds that route. -/
theorem routes_step (task : Task) :
    (task.step y).1.active.routes =
        (y.active.routes.filter fun r ↦ !task.withdraws y r) ∨
      ∃ request token route resolved frames,
        task.job? = some (.command (.route request) token) ∧ request.state.isSet = true ∧
        y.Admits request route resolved frames ∧
        (task.step y).1.active = y.active.insert resolved := by
  cases task with
  | pending job =>
    rcases routes_begin y job with h | ⟨request, token, route, resolved, frames, rfl, h⟩
    · exact .inl h
    · exact .inr ⟨request, token, route, resolved, frames, rfl, h⟩
  | planned due job =>
    rcases routes_begin y.spend job with
        h | ⟨request, token, route, resolved, frames, rfl, hset, ha, h⟩
    · exact .inl h
    · exact .inr ⟨request, token, route, resolved, frames, rfl, hset,
        ⟨ha.expanded, ha.free, ha.resolves, ha.encoded⟩, h⟩
  | inFlight a alert =>
    cases alert with
    | false => exact .inl (routes_look y a)
    | true => exact .inl (routes_ofProgress_step y.spend a)
  | writing due bytes =>
    refine .inl ?_
    rw [step, active_finishWrite]
    exact Yard.routes_eq_filter y.active fun _ ↦ rfl
  | _ => exact .inl (Yard.routes_eq_filter y.active fun _ ↦ rfl)

end Task

namespace Traffic

/-- Whether a move takes an active route away. -/
def withdraws (t : Traffic) (r : RouteCommand) : Move → Bool
  | .go place =>
    t.tasks[place]?.any fun task ↦ task.isReady t.yard && task.withdraws t.yard r
  | _ => false

/-- A move lets the task at a place begin a job. -/
def Begins (t : Traffic) (place : Nat) (job : Job) : Prop :=
  ∃ task, t.tasks[place]? = some task ∧ task.isReady t.yard = true ∧ task.job? = some job

/-- **One move** takes away what it withdraws, or a request to set a route begins and adds that
route. -/
theorem routes_move (t : Traffic) (m : Move) :
    (t.move m).yard.active.routes =
        (t.yard.active.routes.filter fun r ↦ !t.withdraws r m) ∨
      ∃ place request token route resolved frames, m = .go place ∧
        t.Begins place (.command (.route request) token) ∧ request.state.isSet = true ∧
        t.yard.Admits request route resolved frames ∧
        (t.move m).yard.active = t.yard.active.insert resolved := by
  cases m with
  | go place =>
    simp only [move, withdraws]
    cases ht : t.tasks[place]? with
    | none =>
      rw [advance_of_none ht]
      exact .inl (Yard.routes_eq_filter _ fun _ ↦ rfl)
    | some task =>
      cases hr : task.isReady t.yard with
      | false =>
        rw [advance_of_not_ready ht hr]
        exact .inl (Yard.routes_eq_filter _ fun _ ↦ by rw [Option.any_some, hr, Bool.false_and])
      | true =>
        rw [advance_of_ready ht hr]
        rcases task.routes_step t.yard with h | ⟨request, token, route, resolved, frames, hj, h⟩
        · refine .inl ?_
          simp only [Option.any_some, hr, Bool.true_and]
          exact h
        · exact .inr ⟨place, request, token, route, resolved, frames, rfl, ⟨task, ht, hr, hj⟩, h⟩
  | _ => exact .inl (Yard.routes_eq_filter t.yard.active fun _ ↦ rfl)

end Traffic

end SignalBox
