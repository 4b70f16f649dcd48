import Mathlib.Data.List.Induction
import SignalBox.Proofs.ActiveRoutes
import SignalBox.Proofs.Results

/-!
# How long a reservation lasts

A request to set a route takes its reservation when it begins and reports success when its last
frame is out. In between any other command may run, and the report does not look whether the
reservation still stands. The main statement (`stands_iff_of_set`) therefore goes back from the
report to the very step in which the reservation was taken, and says when the route has been active
from there on: exactly if no move since has withdrawn it. A withdrawal is the beginning of a
release that means the route, the beginning of a release of all routes, or the failure of another
request with the same end signals; that there are runs with one is `not_stands_of_set`.

* **From the report back to the reservation**: a task that is setting a route has begun in some
  earlier move, and keeps its purpose until it ends (`reserves_of_inFlight`).
* **From the reservation on**: one move takes an active route away exactly if it withdraws it
  (`mem_routes_move_iff`), so the route stands as long as nothing does (`stands_iff`).
-/

namespace SignalBox

namespace Task

variable {y : Yard}

/-- The next step of a task begins a request to set a route, which is admitted and takes its
reservation. -/
structure Reserves (y : Yard) (task : Task) (request route resolved : RouteCommand) : Prop where
  begins : ∃ token, task.job? = some (.command (.route request) token)
  isSet : request.state.isSet = true
  admits : ∃ frames, y.Admits request route resolved frames
  active : (task.step y).1.active = y.active.insert resolved

/-- A task is a request to set a route with frames still to go out. -/
def Sets (task : Task) (route resolved : RouteCommand) : Prop :=
  ∃ a alert layout, task = .inFlight a alert ∧ a.purpose = .setRoute layout route resolved

/-- The result of a task is the news that a route is set. -/
def ReportsSet (task : Task) : Prop :=
  ∃ time, task = .ended (.command (.ok (.route .set))) time

/-! ### One step of a task that sets a route -/

theorem sets_ofProgress {p : Yard × Progress} {route resolved : RouteCommand}
    (h : (ofProgress p).2.Sets route resolved) :
    ∃ a layout, p.2 = .underWay a ∧ a.purpose = .setRoute layout route resolved := by
  obtain ⟨a, alert, layout, he, hp⟩ := h
  obtain ⟨y, progress⟩ := p
  cases progress with
  | underWay a' =>
    obtain ⟨rfl, -⟩ := inFlight.inj he
    exact ⟨a', layout, rfl, hp⟩
  | done result => cases he

theorem reportsSet_ofProgress {p : Yard × Progress} (h : (ofProgress p).2.ReportsSet) :
    p.2 = .done (.ok (.route .set)) := by
  obtain ⟨time, he⟩ := h
  obtain ⟨y, progress⟩ := p
  cases progress with
  | underWay a => cases he
  | done result =>
    obtain ⟨hr, -⟩ := ended.inj he
    exact congrArg Progress.done (JobResult.command.inj hr)

theorem channel_ofProgress (p : Yard × Progress) : (ofProgress p).1.channel = p.1.channel := by
  obtain ⟨y, progress⟩ := p
  cases progress <;> rfl

/-- What a request to set a route has to show before and after one of its steps. -/
theorem sets_ofProgress_step {a : Activity} {route resolved : RouteCommand}
    (h : (ofProgress (a.step y)).2.Sets route resolved) :
    ∃ layout, a.purpose = .setRoute layout route resolved := by
  obtain ⟨a', layout, ha, hp⟩ := sets_ofProgress h
  exact ⟨layout, Activity.purpose_of_step ha hp⟩

theorem reportsSet_ofProgress_step {a : Activity} (h : (ofProgress (a.step y)).2.ReportsSet) :
    ∃ layout route resolved, a.purpose = .setRoute layout route resolved ∧
      (ofProgress (a.step y)).1.channel =
        y.channel.publish (.route route.start route.destination .set) := by
  rw [channel_ofProgress]
  exact Activity.setRoute_of_step (Prod.ext rfl (reportsSet_ofProgress h))

theorem channel_listen (token : Token) : (y.listen token).channel = y.channel := by
  cases token <;> rfl

/-- **Beginnings.** A job that goes on to set a route, or reports one as set, is a request to set it
that takes its reservation. -/
theorem begin_cases (y : Yard) (job : Job) :
    ((∀ route resolved, ¬ (begin y job).2.Sets route resolved) ∧ ¬ (begin y job).2.ReportsSet) ∨
      ∃ request token route resolved frames, job = .command (.route request) token ∧
        request.state.isSet = true ∧ y.Admits request route resolved frames ∧
        begin y job = ofProgress ((y.withActive (y.active.insert resolved)).deliver token
          (.setRoute y.layout route resolved) frames) := by
  have hnone {p : Yard × Progress} (h : Yard.SetsNoRoute p) :
      (∀ route resolved, ¬ (ofProgress p).2.Sets route resolved) ∧
        ¬ (ofProgress p).2.ReportsSet := by
    refine ⟨fun route resolved hs ↦ ?_, fun hr ↦ h.1 (reportsSet_ofProgress hr)⟩
    obtain ⟨a, layout, ha, hp⟩ := sets_ofProgress hs
    exact h.2 a ha layout route resolved hp
  cases job with
  | command command token =>
    rcases y.setsNoRoute_startCommand command with
        h | ⟨request, route, resolved, frames, rfl, hset, ha, h⟩
    · exact .inl (hnone h)
    · exact .inr ⟨request, token, route, resolved, frames, rfl, hset, ha, congrArg ofProgress h⟩
  | signal signal token => exact .inl (hnone (Yard.setsNoRoute_startSignal signal))
  | write bytes =>
    refine .inl ?_
    rw [begin]
    split <;> exact ⟨by simp [Sets, finishWrite], by simp [ReportsSet, finishWrite]⟩
  | _ => exact .inl ⟨by simp [Sets, begin], by simp [ReportsSet, begin]⟩

/-- What a beginning tells of a task that sets a route or reports one as set. -/
theorem reserves_of_begin {task : Task} {job : Job} (hj : task.job? = some job)
    (hb : (task.step y).1.active = (begin y job).1.active) :
    (∀ route resolved, (begin y job).2.Sets route resolved →
        ∃ request, Reserves y task request route resolved) ∧
      ((begin y job).2.ReportsSet → ∃ request route resolved,
        Reserves y task request route resolved ∧ (begin y job).1.channel =
          y.channel.publish (.route route.start route.destination .set)) := by
  rcases begin_cases y job with
      ⟨hs, hr⟩ | ⟨request, token, route, resolved, frames, rfl, hset, ha, h⟩
  · exact ⟨fun route resolved h ↦ absurd h (hs route resolved), fun h ↦ absurd h hr⟩
  · have hres : Reserves y task request route resolved := by
      refine ⟨⟨token, hj⟩, hset, ⟨frames, ha⟩, ?_⟩
      rw [hb, h, active_ofProgress, Yard.active_deliver]
      rfl
    rw [h]
    refine ⟨fun route' resolved' hs ↦ ?_, fun hr ↦ ?_⟩
    · obtain ⟨a, layout, hu, hp⟩ := sets_ofProgress hs
      obtain ⟨-, rfl, rfl⟩ := Purpose.setRoute.inj (Yard.purpose_of_deliver hu hp)
      exact ⟨request, hres⟩
    · obtain ⟨layout, route', resolved', hp, hc⟩ :=
        Yard.set_of_deliver (Prod.ext rfl (reportsSet_ofProgress hr))
      obtain ⟨-, rfl, rfl⟩ := Purpose.setRoute.inj hp
      exact ⟨request, _, _, hres, (channel_ofProgress _).trans hc⟩

/-- **Step.** A task that sets a route after a step has set it before, or has just taken its
reservation. -/
theorem sets_or_reserves_of_step {task : Task} {route resolved : RouteCommand}
    (h : (task.step y).2.Sets route resolved) :
    task.Sets route resolved ∨ ∃ request, Reserves y task request route resolved := by
  cases task with
  | pending job => exact .inr ((reserves_of_begin rfl rfl).1 route resolved h)
  | planned due job =>
    obtain ⟨request, hb, hset, ⟨frames, ha⟩, hactive⟩ :=
      (reserves_of_begin (y := y.spend) (show (pending job).job? = some job from rfl) rfl).1
        route resolved h
    exact .inr ⟨request, hb, hset,
      ⟨frames, ha.expanded, ha.free, ha.resolves, ha.encoded⟩, hactive⟩
  | inFlight a alert =>
    refine .inl ?_
    have hstep {y : Yard} (h : (ofProgress (a.step y)).2.Sets route resolved) :
        (inFlight a alert).Sets route resolved := by
      obtain ⟨layout, hp⟩ := sets_ofProgress_step h
      exact ⟨a, alert, layout, rfl, hp⟩
    cases alert with
    | true => exact hstep h
    | false =>
      rw [step, look] at h
      split at h
      · exact hstep h
      · dsimp only at h
        split at h
        · exact hstep h
        · obtain ⟨a', alert, layout, he, hp⟩ := h
          obtain ⟨rfl, -⟩ := inFlight.inj he
          exact ⟨_, false, layout, rfl, hp⟩
  | _ => simp [Sets, step, finishWrite] at h

/-- **Last step.** A task that reports a route as set has set it until now, or has just taken its
reservation; the news is published in the same step. -/
theorem sets_or_reserves_of_reportsSet {task : Task} (hready : task.isReady y = true)
    (h : (task.step y).2.ReportsSet) :
    ∃ route resolved,
      (task.Sets route resolved ∨ ∃ request, Reserves y task request route resolved) ∧
      (task.step y).1.channel =
        y.channel.publish (.route route.start route.destination .set) := by
  cases task with
  | pending job =>
    obtain ⟨request, route, resolved, hres, hc⟩ :=
      (reserves_of_begin (show (pending job).job? = some job from rfl) rfl).2 h
    exact ⟨route, resolved, .inr ⟨request, hres⟩, hc⟩
  | planned due job =>
    obtain ⟨request, route, resolved, ⟨hb, hset, ⟨frames, ha⟩, hactive⟩, hc⟩ :=
      (reserves_of_begin (y := y.spend) (show (pending job).job? = some job from rfl) rfl).2 h
    exact ⟨route, resolved, .inr ⟨request, hb, hset,
      ⟨frames, ha.expanded, ha.free, ha.resolves, ha.encoded⟩, hactive⟩, hc⟩
  | inFlight a alert =>
    have hstep {y₁ : Yard} (hy : y₁.channel = y.channel)
        (h : (ofProgress (a.step y₁)).2.ReportsSet) :
        ∃ route resolved, (inFlight a alert).Sets route resolved ∧
          (ofProgress (a.step y₁)).1.channel =
            y.channel.publish (.route route.start route.destination .set) := by
      obtain ⟨layout, route, resolved, hp, hc⟩ := reportsSet_ofProgress_step h
      exact ⟨route, resolved, ⟨a, alert, layout, rfl, hp⟩, hy ▸ hc⟩
    suffices hs : ∃ route resolved, (inFlight a alert).Sets route resolved ∧
        ((inFlight a alert).step y).1.channel =
          y.channel.publish (.route route.start route.destination .set) by
      obtain ⟨route, resolved, hs, hc⟩ := hs
      exact ⟨route, resolved, .inl hs, hc⟩
    cases alert with
    | true => exact hstep rfl h
    | false =>
      rw [step, look] at h ⊢
      split at h
      next hc =>
        rw [if_pos hc]
        exact hstep rfl h
      next hc =>
        rw [if_neg hc]
        dsimp only at h ⊢
        split at h
        next hi =>
          rw [if_pos hi]
          exact hstep (channel_listen _) h
        next => simp [ReportsSet] at h
  | ended result time => cases hready
  | _ => simp [ReportsSet, step, finishWrite] at h

end Task

namespace Traffic

/-! ### From the reservation on -/

/-- The task at a place is about to take its reservation for a route. -/
def Reserves (t : Traffic) (place : Nat) (request route resolved : RouteCommand) : Prop :=
  ∃ task, t.tasks[place]? = some task ∧ task.isReady t.yard = true ∧
    task.Reserves t.yard request route resolved

/-- A route is active now and after each of some moves. -/
def Stands (t : Traffic) (r : RouteCommand) : List Move → Prop
  | [] => r ∈ t.yard.active.routes
  | m :: moves => r ∈ t.yard.active.routes ∧ (t.move m).Stands r moves

/-- None of some moves withdraws a route. -/
def Unwithdrawn (t : Traffic) (r : RouteCommand) : List Move → Prop
  | [] => True
  | m :: moves => t.withdraws r m = false ∧ (t.move m).Unwithdrawn r moves

variable {t : Traffic} {r : RouteCommand}

theorem active_of_reserves {place : Nat} {request route resolved : RouteCommand}
    (h : t.Reserves place request route resolved) :
    (t.move (.go place)).yard.active = t.yard.active.insert resolved := by
  obtain ⟨task, ht, hr, h⟩ := h
  rw [move, advance_of_ready ht hr]
  exact h.active

/-- The beginning of a request to set a route withdraws nothing. -/
theorem withdraws_of_begins {place : Nat} {request : RouteCommand} {token : Token}
    (h : t.Begins place (.command (.route request) token)) (hset : request.state.isSet = true) :
    t.withdraws r (.go place) = false := by
  obtain ⟨task, ht, hr, hj⟩ := h
  have hteardown := RouteState.isTeardown_of_isSet hset
  rw [withdraws, ht, Option.any_some, hr, Bool.true_and]
  cases task with
  | pending job | planned due job =>
    rw [Option.some.inj hj, Task.withdraws, Job.withdraws, Command.withdraws, hteardown,
      Bool.false_and]
  | _ => cases hj

/-- **One move** takes an active route away exactly if it withdraws it. -/
theorem mem_routes_move_iff {m : Move} (h : r ∈ t.yard.active.routes) :
    r ∈ (t.move m).yard.active.routes ↔ t.withdraws r m = false := by
  rcases t.routes_move m with
      hm | ⟨place, request, token, route, resolved, frames, rfl, hb, hset, -, hm⟩
  · rw [hm, List.mem_filter, Bool.not_eq_true']
    exact and_iff_right h
  · rw [hm, withdraws_of_begins hb hset]
    exact iff_of_true (List.mem_append_left _ h) rfl

/-- **Many moves**: an active route stands as long as none of them withdraws it. -/
theorem stands_iff (h : r ∈ t.yard.active.routes) (moves : List Move) :
    t.Stands r moves ↔ t.Unwithdrawn r moves := by
  induction moves generalizing t with
  | nil => exact iff_of_true h trivial
  | cons m moves ih =>
    rw [Stands, Unwithdrawn, and_iff_right h, ← mem_routes_move_iff h]
    -- what does not stand after the first move does not stand at all
    have hfirst (hs : (t.move m).Stands r moves) : r ∈ (t.move m).yard.active.routes := by
      cases moves with
      | nil => exact hs
      | cons => exact hs.1
    exact ⟨fun hs ↦ ⟨hfirst hs, (ih (hfirst hs)).1 hs⟩, fun ⟨hm, hu⟩ ↦ (ih hm).2 hu⟩

/-! ### From the report back to the reservation -/

/-- The result of the task at a place, and the time of its end. -/
def result? (t : Traffic) (place : Nat) : Option (JobResult × Nat) :=
  t.tasks[place]?.bind Task.result?

theorem not_sets_ofJob {y : Yard} {delay : Nat} {job : Job} {route resolved : RouteCommand} :
    ¬ (Task.ofJob y delay job).Sets route resolved := by
  rw [Task.ofJob]
  split <;> simp [Task.Sets]

/-- **Back to the reservation.** A task that is setting a route took its reservation in one of the
moves, and has been setting this route since. -/
theorem reserves_of_inFlight {moves : List Move} {place : Nat} {task : Task}
    {route resolved : RouteCommand} (hstart : t.tasks[place]? = none)
    (ht : (t.run moves).tasks[place]? = some task) (hs : task.Sets route resolved) :
    ∃ before since request, moves = before ++ .go place :: since ∧
      (t.run before).Reserves place request route resolved := by
  -- the invariant speaks of the last state, so the induction takes the moves from their end
  induction moves using List.reverseRecOn generalizing task with
  | nil => exact absurd (hstart.symm.trans ht) (by simp)
  | append_singleton moves m ih =>
    rw [run_concat] at ht
    have hlater (h : ∃ before since request, moves = before ++ .go place :: since ∧
        (t.run before).Reserves place request route resolved) :
        ∃ before since request, moves ++ [m] = before ++ .go place :: since ∧
          (t.run before).Reserves place request route resolved := by
      obtain ⟨before, since, request, rfl, h⟩ := h
      exact ⟨before, since ++ [m], request, by simp, h⟩
    cases hu : (t.run moves).tasks[place]? with
    | none =>
      obtain ⟨delay, job, rfl⟩ := tasks_move_of_none hu ht
      exact absurd hs not_sets_ofJob
    | some earlier =>
      -- only its own moves change a task, and the one that made it set the route is this or earlier
      by_cases hm : m = .go place
      · subst hm
        cases hr : earlier.isReady (t.run moves).yard with
        | false =>
          rw [move, advance_of_not_ready hu hr] at ht
          exact hlater (ih ht hs)
        | true =>
          rw [move, advance_of_ready hu hr,
            List.getElem?_set_self (List.getElem?_eq_some_iff.1 hu).1] at ht
          rcases Task.sets_or_reserves_of_step (Option.some.inj ht ▸ hs) with h | ⟨request, h⟩
          · exact hlater (ih hu h)
          · exact ⟨moves, [], request, rfl, earlier, hu, hr, h⟩
      · rw [tasks_move_of_ne hu hm] at ht
        exact hlater (ih hu (Option.some.inj ht ▸ hs))

theorem result?_eq_some_iff {place time : Nat} {result : JobResult} :
    t.result? place = some (result, time) ↔ t.tasks[place]? = some (.ended result time) := by
  rw [result?, Option.bind_eq_some_iff]
  refine ⟨fun ⟨task, ht, h⟩ ↦ ?_, fun h ↦ ⟨_, h, rfl⟩⟩
  cases task with
  | ended result' time' =>
    obtain ⟨rfl, rfl⟩ := Prod.mk.inj (Option.some.inj h)
    exact ht
  | _ => cases h

/-- A task that ends has been ready until then, and this is its last step. -/
theorem ends_of_result? {m : Move} {place time : Nat} {result : JobResult}
    (hbefore : t.result? place = none) (hafter : (t.move m).result? place = some (result, time)) :
    m = .go place ∧ ∃ task, t.tasks[place]? = some task ∧ task.isReady t.yard = true ∧
      (task.step t.yard).2 = .ended result time ∧ (t.move m).yard = (task.step t.yard).1 := by
  rw [result?_eq_some_iff] at hafter
  have hne : t.tasks[place]? ≠ some (.ended result time) := fun h ↦ by
    simp [result?_eq_some_iff.2 h] at hbefore
  cases hu : t.tasks[place]? with
  | none =>
    obtain ⟨delay, job, h⟩ := tasks_move_of_none hu hafter
    rw [Task.ofJob] at h
    split at h <;> cases h
  | some task =>
    have hm : m = .go place := by
      by_contra hm
      exact hne (hu.trans ((tasks_move_of_ne hu hm).symm.trans hafter))
    subst hm
    cases hr : task.isReady t.yard with
    | false =>
      rw [move, advance_of_not_ready hu hr] at hafter
      exact absurd hafter hne
    | true =>
      rw [move, advance_of_ready hu hr] at hafter ⊢
      rw [List.getElem?_set_self (List.getElem?_eq_some_iff.1 hu).1] at hafter
      exact ⟨rfl, task, rfl, hr, Option.some.inj hafter, rfl⟩

/-- **A route that is reported as set** has been reserved by the very request that reports it, and
the news is published with the report. The route has been active ever since its reservation, and is
so at the report, exactly if no move in between has withdrawn it. -/
theorem stands_iff_of_set (layout : Layout) (delay capacity : Nat) (faults : BusFaults)
    {moves : List Move} {m : Move} {place time : Nat}
    (hbefore : ((start layout delay capacity faults).run moves).result? place = none)
    (hafter : ((start layout delay capacity faults).run (moves ++ [m])).result? place =
      some (.command (.ok (.route .set)), time)) :
    ∃ before since request route resolved,
      moves ++ [m] = before ++ .go place :: since ∧
      ((start layout delay capacity faults).run before).Reserves place request route resolved ∧
      resolved.sameEnds request = true ∧
      ((start layout delay capacity faults).run (moves ++ [m])).yard.channel =
        ((start layout delay capacity faults).run moves).yard.channel.publish
          (.route request.start request.destination .set) ∧
      (((start layout delay capacity faults).run (before ++ [.go place])).Stands resolved since ↔
        ((start layout delay capacity faults).run (before ++ [.go place])).Unwithdrawn
          resolved since) := by
  set t := start layout delay capacity faults
  rw [run_concat] at hafter ⊢
  obtain ⟨rfl, task, htask, hready, hended, hyard⟩ := ends_of_result? hbefore hafter
  obtain ⟨route, resolved, hsets, hchannel⟩ :=
    Task.sets_or_reserves_of_reportsSet hready ⟨time, hended⟩
  have hreserved : ∃ before since request, moves ++ [.go place] = before ++ .go place :: since ∧
      (t.run before).Reserves place request route resolved := by
    rcases hsets with hs | ⟨request, h⟩
    · obtain ⟨before, since, request, rfl, h⟩ := reserves_of_inFlight rfl htask hs
      exact ⟨before, since ++ [.go place], request, by simp, h⟩
    · exact ⟨moves, [], request, rfl, task, htask, hready, h⟩
  obtain ⟨before, since, request, hsplit, h⟩ := hreserved
  have hactive := active_of_reserves h
  obtain ⟨-, -, -, -, -, ⟨frames, ha⟩, -⟩ := id h
  obtain ⟨⟨hstart, hdestination⟩, hends⟩ := ha.ends_eq
  refine ⟨before, since, request, route, resolved, hsplit, h, ?_, ?_, ?_⟩
  · simp [RouteCommand.sameEnds, hends]
  · rw [hyard, hchannel, hstart, hdestination]
  · refine stands_iff ?_ since
    rw [run_concat, hactive]
    exact List.mem_append_right _ (List.mem_singleton_self _)

/-- A request to set a route over the one point of a junction. -/
def overOnePoint : RouteCommand :=
  { RouteCommand.plain 64 72 .setMain with points := [.plain 27 .straight] }

/-- The same route with the address of its point, as it is reserved. -/
def overOnePointReserved : RouteCommand :=
  { overOnePoint with points := [{ PointCommand.plain 27 .straight with addresses := [12] }] }

/-- The request alone: its reservation stands until it reports that the route is set. -/
theorem stands_iff_of_set_alone :
    let t := start (.junction [.linked "27" [12] [13] 0]) 100 64 .none
    let moves : List Move :=
      [.join 0 (.command (.route overOnePoint) .never), .go 0, .go 0, .wait 100, .go 0]
    ∃ before since request route resolved,
      moves ++ [.go 0] = before ++ .go 0 :: since ∧
      (t.run before).Reserves 0 request route resolved ∧
      resolved.sameEnds request = true ∧
      (t.run (moves ++ [.go 0])).yard.channel =
        (t.run moves).yard.channel.publish (.route request.start request.destination .set) ∧
      ((t.run (before ++ [.go 0])).Stands resolved since ↔
        (t.run (before ++ [.go 0])).Unwithdrawn resolved since) :=
  stands_iff_of_set (.junction [.linked "27" [12] [13] 0]) 100 64 .none
    (by decide +kernel)
    (show _ = some (JobResult.command (.ok (.route .set)), 100) by decide +kernel)

/-- A release of all routes while the frame of the request is on its way: the request still reports
that the route is set, and no route is active. -/
theorem not_stands_of_set :
    let t := (start (.junction [.linked "27" [12] [13] 0]) 100 64 .none).run
      [.join 0 (.command (.route overOnePoint) .never), .go 0, .go 0,
        .join 0 (.command (.control .clearAllRoutes) .never), .go 1, .wait 100, .go 0, .go 0]
    t.result? 0 = some (.command (.ok (.route .set)), 100) ∧ t.yard.active = .empty := by
  decide +kernel

end Traffic

end SignalBox
