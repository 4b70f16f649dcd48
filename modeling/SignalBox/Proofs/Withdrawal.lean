import SignalBox.Proofs.Course
import SignalBox.Proofs.Interlocking

/-!
# Who withdraws a route

A route is taken away by a release that means it, by a release of all routes, or because the request
that has reserved it fails. A failing request finds its reservation by its end signals, though. If
the reservation has gone already and another request for the same end signals has taken its own
since, the failure takes away that one. The main statement (`withdrawn_iff`) says that this is the
only other way: a route is taken away by the failure of another request exactly if that request was
under way when the route was reserved, and had lost its own reservation by then.

* **Requests that begin** while a route stands do not get a reservation for its end signals
  (`not_launches_of_sameEnds`).
* **Requests under way** keep the end signals that they were admitted with (`ends_run`).

A run in which a failing request takes away the reservation of another one is
`withdrawn_of_failure`.
-/

namespace SignalBox

namespace Traffic

variable {t : Traffic} {r : RouteCommand} {place other : Nat} {a : Activity} {alert : Bool}

/-- The next move of the task at a place ends it with a failure. -/
def Fails (t : Traffic) (place : Nat) : Prop :=
  ∃ task, t.tasks[place]? = some task ∧ task.isReady t.yard = true ∧
    (task.step t.yard).2.failed = true

/-- A request for a route with the end signals of the given one is under way. -/
def SetsEnds (t : Traffic) (place : Nat) (r : RouteCommand) : Prop :=
  ∃ a alert layout route resolved, t.tasks[place]? = some (.inFlight a alert) ∧
    a.purpose = .setRoute layout route resolved ∧ resolved.sameEnds r = true

/-- A request for a route with these end signals is under way, and its reservation has gone. -/
def Deprived (t : Traffic) (place : Nat) (r : RouteCommand) : Prop :=
  t.SetsEnds place r ∧ t.yard.active.contains r = false

/-- Every request to set a route that is under way has the end signals of its route, and a start. -/
def EndsKept (t : Traffic) : Prop :=
  ∀ (place : Nat) (a : Activity) (alert : Bool) (layout : Layout) (route resolved : RouteCommand),
    t.tasks[place]? = some (.inFlight a alert) → a.purpose = .setRoute layout route resolved →
    route.sameEnds resolved = true ∧ route.start ≠ 0

/-- **Requests under way** keep the end signals that they were admitted with, in every state of
every run. -/
theorem ends_run (layout : Layout) (delay capacity : Nat) (faults : BusFaults)
    (moves : List Move) : ((start layout delay capacity faults).run moves).EndsKept := by
  refine run_induction (P := EndsKept) (fun place a alert layout route resolved h ↦ ?_)
    (fun {t} m ht place a' alert' layout route resolved h hp ↦ ?_) moves
  · rw [start, List.getElem?_nil] at h
    cases h
  · rcases inFlight_of_move h with ⟨a, alert, hbefore, hfollows⟩ | ⟨job, -, -, hlaunches⟩
    · cases hfollows with
      | goesOn hsame => exact ht place a alert layout route resolved hbefore (hsame ▸ hp)
      | nextSignal hshows hafter =>
        rw [hp] at hafter
        cases hafter
    · rw [hp] at hlaunches
      cases hlaunches with
      | setRoute hset hadmits =>
        obtain ⟨hends, hstart, -⟩ := hadmits.ends hset
        exact ⟨hends, hstart⟩
      | release hreleases hpurpose => cases hpurpose
      | shows hjob hshows => cases hshows

/-- **A request that begins** gets no reservation for end signals that an active route has. -/
theorem not_launches_of_sameEnds {y : Yard} {job : Job} {layout : Layout}
    {route resolved : RouteCommand} {frames : List Frame} (hr : r ∈ y.active.routes)
    (hends : resolved.sameEnds r = true) :
    ¬ y.Launches job (.setRoute layout route resolved) frames := by
  intro h
  cases h with
  | setRoute hset hadmits =>
    obtain ⟨hsame, -, hcontains⟩ := hadmits.ends hset
    rw [Reservations.contains, List.any_eq_false] at hcontains
    exact hcontains r hr (RouteCommand.sameEnds_symm (RouteCommand.sameEnds_trans hsame hends))
  | release hreleases hpurpose => cases hpurpose
  | shows hjob hshows => cases hshows

/-- **One move** withdraws a route exactly if it begins a job that withdraws it, or lets a request
for its end signals fail. -/
theorem withdraws_iff (hkept : t.EndsKept) {m : Move} :
    t.withdraws r m = true ↔
      (∃ other job, m = .go other ∧ t.Begins other job ∧ job.withdraws r = true) ∨
        ∃ other, m = .go other ∧ t.SetsEnds other r ∧ t.Fails other := by
  constructor
  · intro h
    cases m with
    | go other =>
      cases ht : t.tasks[other]? with
      | none =>
        rw [withdraws, ht] at h
        cases h
      | some task =>
        rw [withdraws, ht, Option.any_some, Bool.and_eq_true] at h
        obtain ⟨hr, hw⟩ := h
        cases task with
        | pending job | planned due job => exact .inl ⟨other, job, rfl, ⟨_, ht, hr, rfl⟩, hw⟩
        | inFlight a alert =>
          rw [Task.withdraws, Bool.and_eq_true] at hw
          cases hp : a.purpose with
          | setRoute layout route resolved =>
            obtain ⟨hsame, hstart⟩ := hkept other a alert layout route resolved ht hp
            have hends := hw.1
            rw [hp, Purpose.withdraws, RouteCommand.releases_iff_sameEnds hstart] at hends
            exact .inr ⟨other, rfl, ⟨a, alert, layout, route, resolved, ht, hp,
              RouteCommand.sameEnds_trans (RouteCommand.sameEnds_symm hsame) hends⟩,
              _, ht, hr, hw.2⟩
          | _ =>
            rw [hp] at hw
            cases hw.1
        | _ => cases hw
    | _ => cases h
  · rintro (⟨other, job, rfl, hbegins, hjob⟩ | ⟨other, rfl, ⟨a, alert, layout, route, resolved, ha,
      hp, hends⟩, task, ht, hr, hfailed⟩)
    · rw [withdraws_of_begins_job hbegins, hjob]
    · obtain rfl := Option.some.inj (ha.symm.trans ht)
      obtain ⟨hsame, hstart⟩ := hkept other a alert layout route resolved ha hp
      have hmeans := (RouteCommand.releases_iff_sameEnds hstart).2
        (RouteCommand.sameEnds_trans hsame hends)
      rw [withdraws, ht, Option.any_some, hr, Task.withdraws, hp, Purpose.withdraws, hmeans,
        hfailed]
      rfl

/-! ### From the reservation on -/

/-- While a route stands, a request for its end signals that is under way has been so since before.
-/
theorem setsEnds_of_run {moves : List Move} (hstands : t.Stands r moves)
    (h : (t.run moves).SetsEnds place r) : t.SetsEnds place r := by
  obtain ⟨a, alert, layout, route, resolved, ha, hp, hends⟩ := h
  obtain ⟨a', alert', ha', hp'⟩ := inFlight_of_run (fun u ↦ r ∈ u.yard.active.routes)
    (fun a ↦ a.purpose = .setRoute layout route resolved)
    (fun hfollows hp ↦ by
      cases hfollows with
      | goesOn hsame => exact hsame.symm.trans hp
      | nextSignal hbefore hafter =>
        rw [hp] at hafter
        cases hafter)
    (fun hr _ _ hlaunches hp ↦ not_launches_of_sameEnds hr hends (hp ▸ hlaunches))
    (fun first hfirst ↦ hstands.mem_routes hfirst) ha hp
  exact ⟨a', alert', layout, route, resolved, ha', hp', hends⟩

/-- A request for end signals that has been under way still is when it fails. -/
theorem setsEnds_run_of_fails {moves : List Move} (h : t.SetsEnds place r)
    (hfails : (t.run moves).Fails place) : (t.run moves).SetsEnds place r := by
  obtain ⟨a, alert, layout, route, resolved, ha, hp, hends⟩ := h
  rcases goesOn_run moves ha (by rw [hp]; rfl) with ⟨a', alert', ha', hsame⟩ | ⟨result, time, ht⟩
  · exact ⟨a', alert', layout, route, resolved, ha', hsame.trans hp, hends⟩
  · obtain ⟨task, ht', hr, -⟩ := hfails
    rw [Option.some.inj (ht'.symm.trans ht)] at hr
    cases hr

/-- A request that fails after it has taken its reservation has been setting its route. -/
theorem setsEnds_of_reserves {request route resolved : RouteCommand} {moves : List Move}
    (hreserves : t.Reserves place request route resolved)
    (hfails : ((t.move (.go place)).run moves).Fails place) :
    ((t.move (.go place)).run moves).SetsEnds place resolved := by
  have hcases : (∃ a alert, (t.move (.go place)).tasks[place]? = some (.inFlight a alert)) ∨
      ∃ result time, (t.move (.go place)).tasks[place]? = some (.ended result time) := by
    obtain ⟨task, ht, hr, ⟨token, hj⟩, -⟩ := hreserves
    rw [move, advance_of_ready ht hr,
      List.getElem?_set_self (List.getElem?_eq_some_iff.1 ht).1]
    cases task with
    | pending job | planned due job =>
      obtain rfl := Option.some.inj hj
      rcases Task.ofProgress_cases _ with ⟨a, h⟩ | ⟨result, time, h⟩
      · exact .inl ⟨a, false, congrArg some h⟩
      · exact .inr ⟨result, time, congrArg some h⟩
    | _ => cases hj
  rcases hcases with ⟨a, alert, ha⟩ | ⟨result, time, hended⟩
  · obtain ⟨layout, hp⟩ := purpose_of_reserves hreserves ha
    exact setsEnds_run_of_fails
      ⟨a, alert, layout, route, resolved, ha, hp, RouteCommand.sameEnds_iff.2 ⟨rfl, rfl⟩⟩ hfails
  · -- what has ended in its first step does not fail later
    obtain ⟨task, ht, hr, -⟩ := hfails
    rw [← Option.some.inj ((ended_run moves hended).symm.trans ht)] at hr
    cases hr

/-- A reservation leaves the other requests under way as they are. None of them has a reservation
for the same end signals. -/
theorem setsEnds_reserves_iff {request route resolved : RouteCommand}
    (hreserves : t.Reserves place request route resolved) (hne : other ≠ place) :
    (t.move (.go place)).SetsEnds other resolved ↔ t.Deprived other resolved := by
  have hgone : t.yard.active.contains resolved = false := by
    obtain ⟨task, -, -, -, hset, ⟨frames, hadmits⟩, -⟩ := hreserves
    obtain ⟨hsame, -, hcontains⟩ := hadmits.ends hset
    rw [Reservations.contains, List.any_eq_false] at hcontains ⊢
    exact fun r hr hends ↦ hcontains r hr
      (RouteCommand.sameEnds_trans hends (RouteCommand.sameEnds_symm hsame))
  rw [Deprived, and_iff_left hgone, SetsEnds, SetsEnds, move, tasks_advance_of_ne (Ne.symm hne)]

/-- **Withdrawals.** A route that stands, from its reservation on, is taken away in exactly those
moves in which a release begins that means it, or the request fails that has reserved it, or another
request fails that was under way for the same end signals when the route was reserved, and had lost
its own reservation by then. -/
theorem withdrawn_iff (layout : Layout) (delay capacity : Nat) (faults : BusFaults)
    {before since : List Move} {place : Nat} {request route resolved : RouteCommand}
    (hreserves : ((start layout delay capacity faults).run before).Reserves place request route
      resolved)
    (hstands : ((start layout delay capacity faults).run (before ++ [.go place])).Stands resolved
      since) (m : Move) :
    resolved ∉ (((start layout delay capacity faults).run (before ++ .go place :: since)).move
        m).yard.active.routes ↔
      (∃ other job, m = .go other ∧
          ((start layout delay capacity faults).run (before ++ .go place :: since)).Begins other
            job ∧
          job.withdraws resolved = true) ∨
        (m = .go place ∧
          ((start layout delay capacity faults).run (before ++ .go place :: since)).Fails place) ∨
        ∃ other, other ≠ place ∧ m = .go other ∧
          ((start layout delay capacity faults).run before).Deprived other resolved ∧
          ((start layout delay capacity faults).run (before ++ .go place :: since)).Fails
            other := by
  have hkept := ends_run layout delay capacity faults (before ++ .go place :: since)
  rw [run_append_cons, run_concat] at hkept ⊢
  rw [run_concat] at hstands
  set t := (start layout delay capacity faults).run before
  rw [mem_routes_move_iff (hstands.mem_routes (List.prefix_refl since)), Bool.not_eq_false,
    withdraws_iff hkept]
  refine or_congr Iff.rfl ⟨?_, ?_⟩
  · rintro ⟨other, rfl, hsets, hfails⟩
    by_cases hne : other = place
    · exact .inl ⟨congrArg Move.go hne, hne ▸ hfails⟩
    · exact .inr ⟨other, hne, rfl,
        (setsEnds_reserves_iff hreserves hne).1 (setsEnds_of_run hstands hsets), hfails⟩
  · rintro (⟨rfl, hfails⟩ | ⟨other, hne, rfl, hdeprived, hfails⟩)
    · exact ⟨place, rfl, setsEnds_of_reserves hreserves hfails, hfails⟩
    · exact ⟨other, rfl, setsEnds_run_of_fails
        ((setsEnds_reserves_iff hreserves hne).2 hdeprived) hfails, hfails⟩

/-- A request takes its reservation, all routes are released, and a second request for the same
route joins. -/
def reservationGone : List Move :=
  [.join 0 (.command (.route overOnePoint) (.on 0)), .go 0, .go 0, .wait 10,
    .join 0 (.command (.control .clearAllRoutes) .never), .go 1, .wait 20,
    .join 0 (.command (.route overOnePoint) .never)]

/-- The first request is cancelled. -/
def cancelsFirst : List Move :=
  [.go 2, .wait 30, .join 0 (.cancel 0), .go 3]

/-- The first request fails when the reservation is that of the second one. -/
theorem withdrawn_iff_of_cancelled :
    let t := start (.junction [.linked "27" [12] [13] 0]) 100 64 .none
    overOnePointReserved ∉ ((t.run (reservationGone ++ .go 2 :: cancelsFirst)).move
        (.go 0)).yard.active.routes ↔
      (∃ other job, Move.go 0 = .go other ∧
          (t.run (reservationGone ++ .go 2 :: cancelsFirst)).Begins other job ∧
          job.withdraws overOnePointReserved = true) ∨
        (Move.go 0 = .go 2 ∧ (t.run (reservationGone ++ .go 2 :: cancelsFirst)).Fails 2) ∨
        ∃ other, other ≠ 2 ∧ Move.go 0 = .go other ∧
          (t.run reservationGone).Deprived other overOnePointReserved ∧
          (t.run (reservationGone ++ .go 2 :: cancelsFirst)).Fails other := by
  intro t
  have hreserves : (t.run reservationGone).Reserves 2 overOnePoint overOnePoint
      overOnePointReserved :=
    ⟨.pending (.command (.route overOnePoint) .never), by decide +kernel, rfl,
      ⟨.never, rfl⟩, rfl, ⟨[.ofMagnitude .set 12 .closed], by decide +kernel, by decide +kernel,
        by decide +kernel, by decide +kernel⟩, by decide +kernel⟩
  have hstands : (t.run (reservationGone ++ [.go 2])).Stands overOnePointReserved cancelsFirst := by
    decide +kernel
  dsimp only [t] at hreserves hstands ⊢
  exact withdrawn_iff _ 100 64 .none hreserves hstands (.go 0)

/-- The second request has found no route active and has reserved its own. This reservation is taken
away by the failure of the first request; the second one goes on and reports later that the route is
set, with no route active. -/
theorem withdrawn_of_failure :
    let before := (start (.junction [.linked "27" [12] [13] 0]) 100 64 .none).run reservationGone
    let t := before.run (.go 2 :: cancelsFirst)
    before.yard.active = .empty ∧
      (before.move (.go 2)).yard.active.routes = [overOnePointReserved] ∧
      t.yard.active.routes = [overOnePointReserved] ∧
      (t.move (.go 0)).result? 0 = some (.command (.error (.cancelled 0)), 30) ∧
      (t.move (.go 0)).yard.active = .empty ∧
      (t.run [.go 0, .wait 120, .go 2, .go 2]).result? 2 =
        some (.command (.ok (.route .set)), 120) ∧
      (t.run [.go 0, .wait 120, .go 2, .go 2]).yard.active = .empty := by
  decide +kernel

end Traffic

end SignalBox
