import SignalBox.Proofs.Course
import SignalBox.Proofs.EngagedLocks
import SignalBox.Proofs.Interlocking

/-!
# Locks that are released under a route

A release decides when it begins which points it unlocks: those that no remaining route has. Its
frames go out one by one afterwards, and it does not look again for routes that have been set since.
So a release that was under way when a route took its reservation may unlock the points of that
route. The main statement (`unlocksUnder_iff`) says that nothing else does, as long as points of
different numbers have different locks: while a route stands, from its reservation on, its locks are
released in exactly those moves in which a release delivers a frame for them that was under way at
the reservation.

* **Releases that begin** while the route is active, and leave it so, have no frame for its locks
  (`not_locks_of_launches`).
* **Locks are disjoint** at every moment if they are so in the layout and no command brings
  addresses or locks of its own (`locksDisjoint_run`).

A run in which a lock is released under a route that is set is `unlocksUnder_of_overlap`.
-/

namespace SignalBox

/-- Two points have no lock in common if their numbers differ. -/
def PointCommand.LocksDisjoint (p q : PointCommand) : Prop :=
  p.number ≠ q.number → ∀ n, p.HasLockAt n → ¬ q.HasLockAt n

/-- The points of active routes have no lock in common if their numbers differ. -/
def Reservations.LocksDisjoint (active : Reservations) : Prop :=
  ∀ r ∈ active.routes, ∀ s ∈ active.routes, ∀ p ∈ r.points, ∀ q ∈ s.points, p.LocksDisjoint q

/-! ### Locks that are disjoint in a layout -/

/-- The points that commands without addresses and locks of their own are resolved to have no lock
in common if their numbers differ. -/
def Layout.LocksDisjoint (l : Layout) : Prop :=
  ∀ c d p q, PointCommand.Bare c → PointCommand.Bare d →
    l.resolvePoint? c = some p → l.resolvePoint? d = some q → p.LocksDisjoint q

/-- A job does not replace the layout, and if it is to set a route, the points that it brings have
no addresses and no locks. -/
def Job.Bare : Job → Prop
  | .command (.route request) _ => request.state.isSet = true → ∀ c ∈ request.points, c.Bare
  | .replaceLayout _ => False
  | _ => True

/-- No job joins but a bare one. -/
def Move.Bare : Move → Prop
  | .join _ job => job.Bare
  | _ => True

instance Job.decidableBare : (job : Job) → Decidable job.Bare
  | .command (.route request) _ => inferInstanceAs
    (Decidable (request.state.isSet = true → ∀ c ∈ request.points, c.Bare))
  | .replaceLayout _ => inferInstanceAs (Decidable False)
  | .command (.point _) _ | .command (.turntable _) _ | .command (.control _) _ | .signal _ _
  | .cancel _ | .sleep _ | .write _ => inferInstanceAs (Decidable True)

instance Move.decidableBare : (m : Move) → Decidable m.Bare
  | .join _ job => inferInstanceAs (Decidable job.Bare)
  | .go _ | .wait _ | .turn _ | .alter _ => inferInstanceAs (Decidable True)

/-- A layout with only one number of points has disjoint locks. -/
theorem Layout.locksDisjoint_of_number {l : Layout} (number : UInt32)
    (h : ∀ d ∈ l.points, d.number = number) : l.LocksDisjoint := by
  have hnumber {c p : PointCommand} (hc : l.resolvePoint? c = some p) : p.number = number := by
    obtain ⟨hsome, -⟩ := Layout.resolvePoint?_eq_some_iff.1 hc
    obtain ⟨d, hd⟩ := List.exists_mem_of_ne_nil _ hsome
    obtain ⟨hd, hmeans⟩ := List.mem_filter.1 hd
    rw [means, Bool.and_eq_true, beq_iff_eq, h d hd] at hmeans
    exact (Layout.sameRequest_of_resolvePoint? hc).number.trans hmeans.1.symm
  intro c d p q hc hd hp hq hne
  exact absurd ((hnumber hp).trans (hnumber hq).symm) hne

/-- What is in flight keeps to a layout: the layout is in force, no job is to begin but a bare one,
and active routes have points that the layout has resolved. -/
structure Traffic.KeepsTo (l : Layout) (t : Traffic) : Prop where
  layout_eq : t.yard.layout = l
  jobs : ∀ (place : Nat) (task : Task) (job : Job), t.tasks[place]? = some task →
    task.job? = some job → job.Bare
  routes : ∀ r ∈ t.yard.active.routes, ∀ p ∈ r.points, ∃ c, PointCommand.Bare c ∧ l.Resolves c p

namespace Traffic.KeepsTo

variable {l : Layout} {t : Traffic}

/-- A point that has locks has been given them by the layout. -/
theorem exists_resolvePoint? (h : t.KeepsTo l) {r : RouteCommand} (hr : r ∈ t.yard.active.routes)
    {p : PointCommand} (hp : p ∈ r.points) (hlock : p.hasLock = true) :
    ∃ c, PointCommand.Bare c ∧ l.resolvePoint? c = some p := by
  obtain ⟨c, hbare, hc⟩ := h.routes r hr p hp
  rw [Layout.Resolves] at hc
  split at hc
  · -- a point without a position gets no lock
    subst hc
    rw [PointCommand.hasLock, hbare.lockOffset_eq] at hlock
    cases hlock
  · exact ⟨c, hbare, hc⟩

/-- Locks are disjoint as they are in the layout. -/
theorem locksDisjoint (h : t.KeepsTo l) (hl : l.LocksDisjoint) : t.yard.active.LocksDisjoint := by
  intro r hr s hs p hp q hq hne n hlock hlock'
  obtain ⟨c, hc, hcp⟩ := h.exists_resolvePoint? hr hp hlock.hasLock
  obtain ⟨d, hd, hdq⟩ := h.exists_resolvePoint? hs hq hlock'.hasLock
  exact hl c d p q hc hd hcp hdq hne n hlock hlock'

/-- A route that is admitted has points that the layout has resolved. -/
theorem resolves_of_admits {y : Yard} {request route resolved : RouteCommand} {frames : List Frame}
    (h : y.Admits request route resolved frames) (hbare : ∀ c ∈ request.points, c.Bare) :
    ∀ p ∈ resolved.points, ∃ c, PointCommand.Bare c ∧ y.layout.Resolves c p := by
  obtain ⟨points, hpoints, rfl⟩ := Layout.resolveRoute_eq_ok_iff.1 h.resolves
  intro p hp
  obtain ⟨c, hc, hresolves⟩ := exists_left_of_mem_right hpoints hp
  refine ⟨c, ?_, hresolves⟩
  rcases Yard.mem_points_of_withPoints h.expanded hc with hc | ⟨d, -, point, -, rfl⟩
  · exact hbare c hc
  · exact point.bare_command

/-- No job is to begin after a move but a bare one. -/
theorem jobs_move {m : Move} (h : t.KeepsTo l) (hm : m.Bare) (place : Nat) (task : Task) (job : Job)
    (ht : (t.move m).tasks[place]? = some task) (hj : task.job? = some job) : job.Bare := by
  cases m with
  | join delay job' =>
    have hs : (t.tasks ++ [Task.ofJob t.yard delay job'])[place]? = some task := ht
    rcases List.mem_append.1 (List.mem_of_getElem? hs) with hmem | hmem
    · obtain ⟨place', hp⟩ := List.getElem?_of_mem hmem
      exact h.jobs place' task job hp hj
    · rw [List.mem_singleton.1 hmem, Task.ofJob] at hj
      have hjob : job' = job := by split at hj <;> exact Option.some.inj hj
      exact hjob ▸ hm
  | go other =>
    by_cases hne : other = place
    · subst hne
      rcases t.advance_cases other with hsame | ⟨earlier, hother, hr, hstep⟩
      · rw [Traffic.move, hsame] at ht
        exact h.jobs other task job ht hj
      · rw [Traffic.move, hstep,
          List.getElem?_set_self (List.getElem?_eq_some_iff.1 hother).1] at ht
        rw [← Option.some.inj ht, Task.job?_step hr] at hj
        cases hj
    · rw [Traffic.move, tasks_advance_of_ne hne] at ht
      exact h.jobs place task job ht hj
  | _ => exact h.jobs place task job ht hj

/-- The layout stays in force. -/
theorem layout_move (h : t.KeepsTo l) (m : Move) : (t.move m).yard.layout = l := by
  suffices hplan : (t.move m).yard.plan = t.yard.plan by
    rw [Yard.layout, hplan]
    exact h.layout_eq
  cases m with
  | go place =>
    rcases t.advance_cases place with hsame | ⟨task, ht, hr, hstep⟩
    · rw [Traffic.move, hsame]
    · rw [Traffic.move, hstep]
      exact Task.plan_step hr fun layout hj ↦ h.jobs place task _ ht hj
  | _ => rfl

/-- **Step.** Every move keeps to the layout, as long as no job joins but a bare one. -/
theorem move {m : Move} (h : t.KeepsTo l) (hm : m.Bare) : (t.move m).KeepsTo l := by
  refine ⟨h.layout_move m, h.jobs_move hm, fun r hr ↦ ?_⟩
  rcases t.routes_move m with hroutes | ⟨place, request, token, route, resolved, frames, -,
    ⟨task, ht, -, hj⟩, hset, hadmits, hroutes⟩
  · rw [hroutes] at hr
    exact h.routes r (List.mem_filter.1 hr).1
  · rw [hroutes] at hr
    rcases List.mem_append.1 hr with hr | hr
    · exact h.routes r hr
    · rw [List.mem_singleton.1 hr, ← h.layout_eq]
      exact resolves_of_admits hadmits (h.jobs place task _ ht hj hset)

theorem start (l : Layout) (delay capacity : Nat) (faults : BusFaults) :
    (Traffic.start l delay capacity faults).KeepsTo l where
  layout_eq := rfl
  jobs place task job ht := by
    rw [Traffic.start, List.getElem?_nil] at ht
    cases ht
  routes r hr := by cases hr

/-- **Run.** Over a layout with disjoint locks they are disjoint in every state of every run, if no
command brings addresses or locks of its own and the layout is not replaced. -/
theorem locksDisjoint_run {layout : Layout} (hlayout : layout.LocksDisjoint) (delay capacity : Nat)
    (faults : BusFaults) {moves : List Move} (hmoves : ∀ m ∈ moves, m.Bare) :
    ((Traffic.start layout delay capacity faults).run moves).yard.active.LocksDisjoint := by
  refine locksDisjoint ?_ hlayout
  induction moves using List.reverseRecOn with
  | nil => exact start layout delay capacity faults
  | append_singleton moves m ih =>
    rw [run_concat]
    exact (ih fun m hm ↦ hmoves m (List.mem_append_left _ hm)).move (hmoves m (by simp))

end Traffic.KeepsTo

/-! ### Releases that begin -/

namespace Yard

variable {y : Yard} {job : Job} {removed : List RouteCommand} {remaining : Reservations}
  {r : RouteCommand}

/-- What a release does not withdraw remains. -/
theorem Releases.mem_remaining (h : y.Releases job removed remaining) (hr : r ∈ y.active.routes)
    (hkept : job.withdraws r = false) : r ∈ remaining.routes := by
  cases h with
  | clearAll => cases hkept
  | teardown hteardown =>
    rw [Job.withdraws, Command.withdraws, hteardown, Bool.true_and] at hkept
    exact List.mem_filter.2 ⟨hr, by rw [hkept]; rfl⟩

/-- **A release that begins** and leaves a route active has no frame for the locks of this route.
-/
theorem not_locks_of_launches {purpose : Purpose} {frames : List Frame}
    (h : y.Launches job purpose frames) (hpurpose : purpose.releases = true)
    (hr : r ∈ y.active.routes) (hdisjoint : y.active.LocksDisjoint)
    (hkept : job.withdraws r = false) :
    ∀ f ∈ frames, ¬ r.Locks f.address := by
  rintro f hf ⟨q, hq, hlock⟩
  cases h with
  | movePoint | setRoute => cases hpurpose
  | shows hjob hshows =>
    exact Bool.false_ne_true ((Purpose.releases_of_shows hshows).symm.trans hpurpose)
  | @release _ _ removed remaining _ hreleases _ hframes =>
    -- the frame is for a released point whose number no remaining route has
    obtain ⟨p, hp, a, ha, hencodes⟩ := (encodes_of_unlockFrames hframes).1 f hf
    obtain ⟨s, hs, hpoint⟩ := Reservations.exists_of_mem_pointsToUnlock hp
    have hfree := (Reservations.mem_pointsToUnlock_iff.1 hp).1
    have hne : p.number ≠ q.number := fun he ↦ by
      have hheld := Reservations.holds_iff.2
        ⟨r, hreleases.mem_remaining hr hkept, q, hq, he.symm⟩
      exact Bool.false_ne_true (hfree.symm.trans hheld)
    exact hdisjoint s (hreleases.mem_routes_iff.2 (.inl hs)) r hr p hpoint q hq hne f.address
      ⟨a, ha, hencodes.address_eq.symm⟩ hlock

end Yard

namespace Traffic

variable {t : Traffic} {r : RouteCommand} {m : Move} {place : Nat}

/-- A move releases a lock of a route. -/
def UnlocksUnder (t : Traffic) (r : RouteCommand) (m : Move) : Prop :=
  ∃ f ∈ t.sentIn m, f.frame.kind = .unlock ∧ r.Locks f.frame.address

/-- A release is under way. -/
def Releasing (t : Traffic) (place : Nat) : Prop :=
  ∃ a alert, t.tasks[place]? = some (.inFlight a alert) ∧ a.purpose.releases = true

/-- **One move** releases a lock of a route exactly if it is the move of a release that delivers a
frame for the lock. -/
theorem unlocksUnder_iff_releasing (hfits : t.FramesFit) :
    t.UnlocksUnder r m ↔ ∃ other frame, m = .go other ∧ t.Releasing other ∧
      t.Delivers other frame ∧ r.Locks frame.address := by
  constructor
  · rintro ⟨f, hf, hkind, hlocks⟩
    obtain ⟨other, rfl, hdelivers⟩ := delivers_of_mem_sentIn hf (by simp [hkind])
    obtain ⟨a, alert, ha, -, hframe⟩ := id hdelivers
    have hfit := hfits other a alert ha a.delivery.frame List.mem_cons_self
    exact ⟨other, f.frame, rfl, ⟨a, alert, ha, hfit.releases (hframe ▸ hkind)⟩, hdelivers, hlocks⟩
  · rintro ⟨other, frame, rfl, ⟨a, alert, ha, hreleases⟩, hdelivers, hlocks⟩
    obtain ⟨a', alert', ha', -, rfl⟩ := id hdelivers
    obtain ⟨rfl, -⟩ := Task.inFlight.inj (Option.some.inj (ha.symm.trans ha'))
    have hfit := hfits other a alert ha a.delivery.frame List.mem_cons_self
    refine ⟨⟨a.delivery.frame, t.yard.now⟩, ?_, hfit.kind_eq hreleases, hlocks⟩
    rw [sentIn_of_delivers hdelivers]
    exact List.mem_singleton_self _

/-! ### From the reservation on -/

/-- While a route stands and locks are disjoint, a release that has a frame for a lock of the route
has been under way since before. -/
theorem releasing_of_run {moves : List Move} {frame : Frame} (hstands : t.Stands r moves)
    (hdisjoint : ∀ first, first <+: moves → (t.run first).yard.active.LocksDisjoint)
    (h : (t.run moves).Releasing place) (hdelivers : (t.run moves).Delivers place frame)
    (hlocks : r.Locks frame.address) : t.Releasing place := by
  obtain ⟨a, alert, ha, hreleases⟩ := h
  obtain ⟨a', alert', ha', -, rfl⟩ := hdelivers
  obtain ⟨rfl, -⟩ := Task.inFlight.inj (Option.some.inj (ha.symm.trans ha'))
  obtain ⟨a', alert', ha', hreleases', -⟩ := inFlight_of_run
    (fun u ↦ r ∈ u.yard.active.routes ∧ u.yard.active.LocksDisjoint)
    (fun a ↦ a.purpose.releases = true ∧ ∃ f ∈ a.delivery.frames, r.Locks f.address)
    (fun hfollows ⟨hreleases, f, hf, hlocks⟩ ↦ by
      cases hfollows with
      | goesOn hsame _ hframes => exact ⟨hsame ▸ hreleases, f, hframes.subset hf, hlocks⟩
      | nextSignal hbefore hafter =>
        exact absurd hreleases (by rw [Purpose.releases_of_shows hafter]; simp))
    (fun {u job a} ⟨hr, hdisjoint⟩ ⟨hr', _⟩ hbegins hlaunches ⟨hreleases, f, hf, hlocks⟩ ↦ by
      have hkept := (mem_routes_move_iff hr).1 hr'
      rw [withdraws_of_begins_job hbegins] at hkept
      exact Yard.not_locks_of_launches hlaunches hreleases hr hdisjoint hkept f hf hlocks)
    (fun first hfirst ↦ ⟨hstands.mem_routes hfirst, hdisjoint first hfirst⟩) ha
    ⟨hreleases, a.delivery.frame, List.mem_cons_self, hlocks⟩
  exact ⟨a', alert', ha', hreleases'⟩

/-- A release that has been under way still is, as long as it is in flight. -/
theorem releasing_run_of_delivers {moves : List Move} {frame : Frame} (h : t.Releasing place)
    (hdelivers : (t.run moves).Delivers place frame) : (t.run moves).Releasing place := by
  obtain ⟨a, alert, ha, hreleases⟩ := h
  obtain ⟨a', alert', ha', -, -⟩ := hdelivers
  have ho : ∃ outcome, a.purpose.outcome? = some outcome := by
    cases hp : a.purpose with
    | release request removed | clearAll => exact ⟨_, rfl⟩
    | _ =>
      rw [hp] at hreleases
      cases hreleases
  obtain ⟨outcome, ho⟩ := ho
  exact ⟨a', alert', ha', (purpose_of_run ha ho ha').symm ▸ hreleases⟩

/-- A reservation leaves the releases under way as they are. -/
theorem releasing_reserves_iff {other : Nat} {request route resolved : RouteCommand}
    (hreserves : t.Reserves place request route resolved) :
    (t.move (.go place)).Releasing other ↔ t.Releasing other := by
  refine exists_congr fun a ↦ exists_congr fun alert ↦ and_congr_left fun hreleases ↦ ?_
  refine inFlight_reserves_iff hreserves fun layout route resolved hp ↦ ?_
  rw [hp] at hreleases
  cases hreleases

/-- **Locks under a route.** As long as a route stands, from its reservation on, and locks are
disjoint, its locks are released in exactly those moves in which a release delivers a frame for them
that was under way when the reservation was taken. -/
theorem unlocksUnder_iff (layout : Layout) (delay capacity : Nat) (faults : BusFaults)
    {before since : List Move} {place : Nat} {request route resolved : RouteCommand}
    (hreserves : ((start layout delay capacity faults).run before).Reserves place request route
      resolved)
    (hstands : ((start layout delay capacity faults).run (before ++ [.go place])).Stands resolved
      since)
    (hdisjoint : ∀ first, first <+: since →
      ((start layout delay capacity faults).run
        (before ++ .go place :: first)).yard.active.LocksDisjoint)
    (m : Move) :
    ((start layout delay capacity faults).run (before ++ .go place :: since)).UnlocksUnder resolved
        m ↔
      ∃ other frame, m = .go other ∧
        ((start layout delay capacity faults).run before).Releasing other ∧
        ((start layout delay capacity faults).run (before ++ .go place :: since)).Delivers other
          frame ∧
        resolved.Locks frame.address := by
  have hfits := fits_run layout delay capacity faults (before ++ .go place :: since)
  rw [run_append_cons] at hfits ⊢
  rw [unlocksUnder_iff_releasing hfits]
  refine exists_congr fun other ↦ exists_congr fun frame ↦ and_congr_right fun _ ↦ ?_
  rw [← releasing_reserves_iff hreserves, ← run_concat]
  constructor
  · rintro ⟨hreleasing, hd, hlocks⟩
    refine ⟨releasing_of_run hstands (fun first hfirst ↦ ?_) hreleasing hd hlocks, hd, hlocks⟩
    exact run_append_cons _ before _ first ▸ hdisjoint first hfirst
  · rintro ⟨hreleasing, hd, hlocks⟩
    exact ⟨releasing_run_of_delivers hreleasing hd, hd, hlocks⟩

/-- A junction whose only point needs three accessories to diverge, the last of which is the one
that it needs to be straight. -/
def oneLockedPoint : Layout :=
  .junction [.linked "27" [12] [13, 14, 12] 100]

theorem locksDisjoint_oneLockedPoint : oneLockedPoint.LocksDisjoint := by
  refine Layout.locksDisjoint_of_number 27 fun d hd ↦ ?_
  rw [List.mem_singleton.1 hd]
  decide +kernel

/-- A command in flight waits for the end of its pause, and sends its frame at once. -/
def nextFrame (place time : Nat) : List Move :=
  [.go place, .wait time, .go place, .go place]

/-- A route with the point diverging is set, then its release begins, and a request for a route with
the point straight joins. -/
def releaseUnderWay : List Move :=
  [.join 0 (Turns.routeJob 64 72 .setMain [.plain 27 .diverging]), .go 0] ++
    [100, 200, 300, 400, 500, 600].flatMap (nextFrame 0) ++
    [.join 0 (Turns.routeJob 64 72 .clear []), .go 1, .wait 650,
      .join 0 (Turns.routeJob 60 80 .setMain [.plain 27 .straight])]

/-- The two frames of the second route come between those of the release. -/
def releaseOverlaps : List Move :=
  nextFrame 1 700 ++ nextFrame 2 750 ++ nextFrame 1 800 ++ nextFrame 2 850 ++
    [.go 1, .wait 900, .go 1]

/-- The second route as it is requested. -/
def straightRequest : RouteCommand :=
  { RouteCommand.plain 60 80 .setMain with points := [.plain 27 .straight] }

/-- The second route as it is reserved. -/
def straightRoute : RouteCommand :=
  { straightRequest with
    points := [{ PointCommand.plain 27 .straight with lockOffset := some 100, addresses := [12] }] }

/-- The release comes to the lock of the second route after this route has been set. -/
theorem unlocksUnder_iff_of_last_frame :
    let t := start oneLockedPoint 100 64 .none
    (t.run (releaseUnderWay ++ .go 2 :: releaseOverlaps)).UnlocksUnder straightRoute (.go 1) ↔
      ∃ other frame, Move.go 1 = .go other ∧ (t.run releaseUnderWay).Releasing other ∧
        (t.run (releaseUnderWay ++ .go 2 :: releaseOverlaps)).Delivers other frame ∧
        straightRoute.Locks frame.address := by
  intro t
  have hreserves : (t.run releaseUnderWay).Reserves 2 straightRequest straightRequest
      straightRoute :=
    ⟨.pending (.command (.route straightRequest) .never), by decide +kernel, rfl,
      ⟨.never, rfl⟩, rfl, ⟨[.ofMagnitude .set 12 .closed, .ofMagnitude .lock 112 .closed],
        by decide +kernel, by decide +kernel, by decide +kernel, by decide +kernel⟩,
      by decide +kernel⟩
  have hbare : ∀ m ∈ releaseUnderWay ++ .go 2 :: releaseOverlaps, m.Bare := by decide +kernel
  refine unlocksUnder_iff _ 100 64 .none hreserves (by decide +kernel) (fun first hfirst ↦ ?_) _
  refine KeepsTo.locksDisjoint_run locksDisjoint_oneLockedPoint 100 64 .none fun m hm ↦ hbare m ?_
  exact (List.prefix_append_right_inj _ |>.2 (List.cons_prefix_cons.2 ⟨rfl, hfirst⟩)).subset hm

/-- The second route has been set and is active, and the next step of the release unlocks its
point. -/
theorem unlocksUnder_of_overlap :
    let t := (start oneLockedPoint 100 64 .none).run (releaseUnderWay ++ .go 2 :: releaseOverlaps)
    oneLockedPoint.LocksDisjoint ∧ t.result? 2 = some (.command (.ok (.route .set)), 850) ∧
      straightRoute ∈ t.yard.active.routes ∧ t.UnlocksUnder straightRoute (.go 1) := by
  intro t
  refine ⟨locksDisjoint_oneLockedPoint, by decide +kernel, by decide +kernel, ?_⟩
  exact ⟨⟨.ofMagnitude .unlock 112 .thrown, 900⟩, by decide +kernel, rfl, _,
    List.mem_singleton_self _, 112, by decide +kernel, by decide +kernel⟩

end Traffic

end SignalBox
