import SignalBox.Proofs.Prefixes
import SignalBox.Proofs.Unlocking

/-!
# Releases that can be encoded

A release first takes its routes away and then encodes the frames for their locks. If these could
not be encoded, the routes would be gone with their locks still engaged. The main statement
(`Traffic.releases_encode`) is that this does not happen, among any other tasks and whatever becomes
of the layout.

* **What is active can be released** (`Traffic.encodable_run`): a request is admitted only if the
  frames for its points and their locks can be encoded, its reservation keeps the addresses with
  which it was admitted, and locks that can be engaged can be released.
* **What a release unlocks** belongs to routes that have been active (`Yard.Releases.encodes`), so
  it goes on to deliver its frames. A delivery fails by a cancellation or by the bus
  (`Traffic.ne_protocol_of_deliver`).
-/

namespace SignalBox

/-! ### What is active can be released -/

/-- The locks of a point can be engaged, and they can be released. -/
structure PointCommand.HasEncodableLocks (p : PointCommand) : Prop where
  engages : ∃ frames, p.lockFrames = .ok frames
  releases : ∃ frames, p.unlockFrames = .ok frames

/-- All locks of all active routes can be engaged and released. -/
def Reservations.Encodable (active : Reservations) : Prop :=
  ∀ r ∈ active.routes, ∀ p ∈ r.points, p.HasEncodableLocks

/-- A route that can be set can be released. -/
theorem RouteCommand.hasEncodableLocks_of_setFrames {r : RouteCommand} {frames : List Frame}
    (h : r.setFrames = .ok frames) : ∀ p ∈ r.points, p.HasEncodableLocks := by
  obtain ⟨moves, locks, -, hlocks, -⟩ := setFrames_eq_ok_iff.1 h
  intro p hp
  obtain ⟨fs, -, hfs⟩ := exists_right_of_mem_left hlocks hp
  exact ⟨⟨fs, hfs⟩, PointCommand.unlockFrames_isOk hfs⟩

namespace Traffic

/-- **One move** keeps all locks encodable: it only adds routes that have been admitted. -/
theorem encodable_move {t : Traffic} (h : t.yard.active.Encodable) (m : Move) :
    (t.move m).yard.active.Encodable := by
  intro r hr
  rcases t.routes_move m with
      hroutes | ⟨place, request, token, route, resolved, frames, -, -, -, hadmits, hactive⟩
  · rw [hroutes] at hr
    exact h r (List.mem_filter.1 hr).1
  · rw [hactive] at hr
    rcases List.mem_append.1 hr with hr | hr
    · exact h r hr
    · rw [List.mem_singleton.1 hr]
      exact RouteCommand.hasEncodableLocks_of_setFrames hadmits.encoded

/-- **In every state of every run**, the locks of all active routes can be encoded. -/
theorem encodable_run (layout : Layout) (delay capacity : Nat) (faults : BusFaults)
    (moves : List Move) :
    ((start layout delay capacity faults).run moves).yard.active.Encodable :=
  run_induction (P := fun t ↦ t.yard.active.Encodable) (fun _ hr ↦ by cases hr)
    (fun m h ↦ encodable_move h m) moves

end Traffic

/-! ### What a release unlocks -/

theorem exists_unlockFrames {points : List PointCommand}
    (h : ∀ p ∈ points, ∃ frames, p.unlockFrames = .ok frames) :
    ∃ frames, unlockFrames points = .ok frames := by
  obtain ⟨unlocks, hunlocks⟩ := exists_mapM_eq_ok h
  exact ⟨unlocks.flatten, unlockFrames_eq_ok_iff.2 ⟨unlocks, mapM_eq_ok_iff.1 hunlocks, rfl⟩⟩

namespace Yard

variable {y : Yard} {job : Job}

/-- **What a release unlocks** has been locked for active routes, and can be encoded. -/
theorem Releases.encodes {removed : List RouteCommand} {remaining : Reservations}
    (h : y.Releases job removed remaining) (hactive : y.active.Encodable) :
    ∃ frames, unlockFrames (remaining.pointsToUnlock removed) = .ok frames := by
  refine exists_unlockFrames fun p hp ↦ ?_
  obtain ⟨r, hr, hp⟩ := Reservations.exists_of_mem_pointsToUnlock hp
  exact (hactive r (h.mem_routes_iff.2 (.inl hr)) p hp).releases

/-- A command that has begun has an outcome at once, or it has frames to deliver. -/
def EndsOrDelivers (p : Yard × Progress) : Prop :=
  (∃ z outcome, p = (z, .done (.ok outcome))) ∨
    ∃ (z : Yard) (token : Token) (purpose : Purpose) (frames : List Frame) (outcome : Outcome),
      purpose.outcome? = some outcome ∧ p = z.deliver token purpose frames

theorem endsOrDelivers_releaseRoute {token : Token} {request : RouteCommand}
    (hteardown : request.state.isTeardown = true) (hactive : y.active.Encodable) :
    EndsOrDelivers (y.releaseRoute token request) := by
  rcases y.releaseRoute_cases token request with
      ⟨-, h⟩ | ⟨-, ⟨cause, herror, -⟩ | ⟨frames, -, h⟩⟩
  · exact .inl ⟨_, _, h⟩
  · -- what is unlocked has been active in the yard before the release took it away
    have hreleases : y.Releases (.command (.route request) token) _ _ := .teardown hteardown
    obtain ⟨frames, hframes⟩ := hreleases.encodes hactive
    exact absurd (herror.symm.trans hframes) (by simp)
  · exact .inr ⟨_, token, _, frames, _, rfl, h⟩

theorem endsOrDelivers_clearAllRoutes {token : Token} (hactive : y.active.Encodable) :
    EndsOrDelivers (y.clearAllRoutes token) := by
  rcases y.clearAllRoutes_cases token with ⟨cause, herror, -⟩ | ⟨frames, -, h⟩
  · have hreleases : y.Releases (.command (.control .clearAllRoutes) token) _ _ := .clearAll
    obtain ⟨frames, hframes⟩ := hreleases.encodes hactive
    exact absurd (herror.symm.trans hframes) (by simp)
  · exact .inr ⟨_, token, _, frames, _, rfl, h⟩

/-- **A release that begins** is turned away, or it has its frames. -/
theorem endsOrDelivers_of_isRelease (hrelease : job.isRelease = true)
    (hactive : y.active.Encodable) :
    ∃ p, EndsOrDelivers p ∧ Task.begin y job = Task.ofProgress p := by
  cases job with
  | command c token =>
    refine ⟨y.startCommand token c, ?_, rfl⟩
    cases c with
    | route request =>
      have hteardown : request.state.isTeardown = true := hrelease
      rw [startCommand, startRoute_of_isTeardown _ _ hteardown]
      exact endsOrDelivers_releaseRoute hteardown hactive
    | control c =>
      cases c with
      | clearAllRoutes => exact endsOrDelivers_clearAllRoutes hactive
      | _ => cases hrelease
    | _ => cases hrelease
  | _ => cases hrelease

end Yard

namespace Traffic

variable {t : Traffic} {place : Nat} {moves : List Move}

/-- A delivery that has begun does not fail because of a frame that cannot be encoded. -/
theorem ne_protocol_of_deliver {y : Yard} {token : Token} {purpose : Purpose} {frames : List Frame}
    {outcome : Outcome} (ho : purpose.outcome? = some outcome)
    (hyard : t.yard = (Task.ofProgress (y.deliver token purpose frames)).1)
    (ht : t.tasks[place]? = some (Task.ofProgress (y.deliver token purpose frames)).2)
    (cause : AddressError) (time : Nat) :
    (t.run moves).result? place ≠ some (.command (.error (.protocol cause)), time) := by
  intro hresult
  obtain ⟨k, hdelivers⟩ := delivers_run hyard ht moves
  cases hdelivers.stage with
  | underWay _ hsending =>
    obtain ⟨a, alert, ha, -⟩ := isSending_iff.1 hsending
    exact absurd (ha.symm.trans (result?_eq_some_iff.1 hresult)) (by simp)
  | cancelled _ _ time' hresult' => exact absurd (hresult.symm.trans hresult') (by simp)
  | refused _ _ _ _ _ time' hresult' => exact absurd (hresult.symm.trans hresult') (by simp)
  | complete _ _ hresult' =>
    obtain ⟨time', hresult'⟩ := hresult' outcome ho
    exact absurd (hresult.symm.trans hresult') (by simp)

/-- A release that begins where all locks can be encoded does not fail because of a frame that
cannot be. -/
theorem ne_protocol_of_begins {job : Job} (hactive : t.yard.active.Encodable)
    (hbegins : t.Begins place job) (hrelease : job.isRelease = true) (cause : AddressError)
    (time : Nat) : (t.run (.go place :: moves)).result? place ≠
      some (.command (.error (.protocol cause)), time) := by
  obtain ⟨allowance, hyard, hafter⟩ := begin_of_begins hbegins
  obtain ⟨p, hp, hbegin⟩ :=
    Yard.endsOrDelivers_of_isRelease (y := { t.yard with allowance := allowance }) hrelease hactive
  rw [hbegin] at hyard hafter
  rcases hp with ⟨z, outcome, rfl⟩ | ⟨z, token, purpose, frames, outcome, ho, rfl⟩
  · intro hresult
    have hsame := (ended_run moves hafter).symm.trans (result?_eq_some_iff.1 hresult)
    simp at hsame
  · exact ne_protocol_of_deliver ho hyard hafter cause time

/-- **Releases can be encoded.** In every state of every run, the locks of all points of all active
routes can be encoded, and a release of routes that begins there does not fail because of a frame
that cannot be encoded, whatever happens until its end. -/
theorem releases_encode (layout : Layout) (delay capacity : Nat) (faults : BusFaults)
    (moves : List Move) :
    let t := (start layout delay capacity faults).run moves
    (∀ r ∈ t.yard.active.routes, ∀ p ∈ r.points, p.HasEncodableLocks) ∧
      ∀ place job, t.Begins place job → job.isRelease = true → ∀ since cause time,
        (t.run (.go place :: since)).result? place ≠
          some (.command (.error (.protocol cause)), time) := by
  intro t
  have hactive : t.yard.active.Encodable := encodable_run layout delay capacity faults moves
  exact ⟨hactive, fun place job hbegins hrelease since cause time ↦
    ne_protocol_of_begins hactive hbegins hrelease cause time⟩

/-- A route takes its reservation, and the layout is replaced by one in which the lock of its point
is not on the bus; then the release of the route joins. -/
def lockReplaced : List Move :=
  [.join 0 (.command (.route overOnePoint) .never), .go 0,
    .join 0 (.replaceLayout (.junction [.linked "27" [12] [13] 5000])), .go 1,
    .join 0 (.command (.route (.plain 64 72 .clear)) .never)]

/-- The release knows the lock that was engaged, and not the one of the layout. -/
theorem releases_encode_of_lockReplaced :
    let t := (start (.junction [.linked "27" [12] [13] 100]) 100 64 .none).run lockReplaced
    (∀ since cause time, (t.run (.go 2 :: since)).result? 2 ≠
        some (.command (.error (.protocol cause)), time)) ∧
      (t.run [.go 2, .go 2, .wait 100, .go 2, .go 2]).result? 2 =
        some (.command (.ok (.route .cleared)), 100) ∧
      (t.run [.go 2, .go 2, .wait 100, .go 2, .go 2]).yard.line.accepted.map (·.frame) =
        [.ofMagnitude .unlock 112 .thrown] := by
  intro t
  have hbegins : t.Begins 2 (.command (.route (.plain 64 72 .clear)) .never) :=
    ⟨.pending (.command (.route (.plain 64 72 .clear)) .never), by decide +kernel, rfl, rfl⟩
  have hencode := (releases_encode (.junction [.linked "27" [12] [13] 100]) 100 64 .none
    lockReplaced).2 2 _ hbegins rfl
  exact ⟨hencode, by decide +kernel, by decide +kernel⟩

end Traffic

end SignalBox
