import SignalBox.Proofs.Disturbances
import SignalBox.Proofs.Interlocking

/-!
# How calls for routes end

A request to set a route and a release of routes change the active routes first, and then make one
delivery. What has been changed is the same whatever becomes of the delivery, except that a request
gives its reservation back if it is disturbed.

* **Requests** (`Yard.requestEnds_of_completesIn`) are turned away, set their route, or are
  disturbed. The reservation is the only active route with its end signals, since it was admitted,
  so it is what the failure takes away (`Yard.Admits.without_insert`).
* **Releases** (`Yard.releaseEnds_of_completesIn`) find no route, release the locks of their routes,
  or are disturbed. Their routes stay away (`Yard.Releases.not_mem_remaining`).
-/

namespace SignalBox

/-- Whether a job is a call that takes routes away. -/
def Job.isRelease : Job → Bool
  | .command (.route request) _ => request.state.isTeardown
  | .command (.control .clearAllRoutes) _ => true
  | _ => false

/-- Whether a command is a release does not depend on what may cancel it. -/
theorem Job.isRelease_command (c : Command) (token token' : Token) :
    (Job.command c token).isRelease = (Job.command c token').isRelease := by
  cases c with
  | control c => cases c <;> rfl
  | _ => rfl

/-! ### What a release names -/

namespace RouteCommand

/-- A release names an active route: it gives its destination, and its start or none. -/
def Names (request active : RouteCommand) : Prop :=
  active.destination = request.destination ∧ (request.start ≠ 0 → active.start = request.start)

instance (request active : RouteCommand) : Decidable (request.Names active) :=
  inferInstanceAs (Decidable (_ ∧ _))

theorem releases_iff_names {request active : RouteCommand} :
    request.releases active = true ↔ request.Names active := by
  simp only [releases, Names, Bool.and_eq_true, Bool.or_eq_true, beq_iff_eq, or_iff_not_imp_left]
  exact and_congr eq_comm (imp_congr_right fun _ ↦ eq_comm)

end RouteCommand

namespace Reservations

variable {active : Reservations} {request : RouteCommand}

/-- The routes that a release leaves are those it does not name. -/
theorem routes_without (active : Reservations) (request : RouteCommand) :
    (active.without request).routes = active.routes.filter fun r ↦ ¬ request.Names r := by
  rw [without]
  refine List.filter_congr fun r _ ↦ ?_
  simp [← RouteCommand.releases_iff_names]

/-- A release that names no route leaves all of them. -/
theorem without_eq_self (h : ∀ r ∈ active.routes, ¬ request.Names r) :
    active.without request = active := by
  rw [without, List.filter_eq_self.2 fun r hr ↦ ?_]
  simpa [← RouteCommand.releases_iff_names] using h r hr

theorem matching_eq_nil_iff :
    active.matching request = [] ↔ ∀ r ∈ active.routes, ¬ request.Names r := by
  rw [matching, List.filter_eq_nil_iff]
  simp only [RouteCommand.releases_iff_names]

end Reservations

namespace Yard

variable {P : Yard → Prop} {y z w : Yard} {token : Token} {job : Job} {result : JobResult}

/-! ### Requests to set a route -/

section

variable {request route resolved : RouteCommand} {frames : List Frame}

/-- Whether a request is admitted depends on the layout and the active routes. -/
theorem Admits.of_eq (h : z.Admits request route resolved frames) (hplan : z.plan = y.plan)
    (hactive : z.active = y.active) : y.Admits request route resolved frames := by
  obtain ⟨hexpanded, hfree, hresolves, hencoded⟩ := h
  rw [withPoints, layout, hplan] at hexpanded
  rw [obstacle?, hplan, hactive] at hfree
  rw [layout, hplan] at hresolves
  exact ⟨hexpanded, hfree, hresolves, hencoded⟩

/-- **A reservation that is given back** leaves the other active routes, all of them and in their
order: no other one has its end signals. -/
theorem Admits.without_insert (h : y.Admits request route resolved frames)
    (hset : request.state.isSet = true) : (y.active.insert resolved).without route = y.active := by
  obtain ⟨hsame, hstart, hcontains⟩ := h.ends hset
  have hothers : ∀ r ∈ y.active.routes, (!route.releases r) = true := by
    intro r hr
    rw [Bool.not_eq_true', ← Bool.not_eq_true, RouteCommand.releases_iff_sameEnds hstart]
    exact fun hends ↦
      List.any_eq_false.1 hcontains r hr (RouteCommand.sameEnds_symm hends)
  rw [Reservations.without, Reservations.insert, List.filter_append, List.filter_eq_self.2 hothers,
    List.filter_cons_of_neg (by simp [(RouteCommand.releases_iff_sameEnds hstart).2 hsame]),
    List.filter_nil, List.append_nil]

/-- How a request to set a route ends, if the yard has a property whenever the request takes a step:
the frames that are accepted for it, its result, and the yard in the end. -/
inductive RequestEnds (P : Yard → Prop) (y : Yard) (request : RouteCommand) (token : Token) :
    List AcceptedFrame → JobResult → Yard → Prop
  /-- Something stands in the way of the route. -/
  | rejected {reason : RejectReason} {w : Yard}
      (hnot : ¬ ∃ route resolved frames, y.Admits request route resolved frames)
      (hw : y.Keeps w) :
      RequestEnds P y request token [] (.command (.ok (.route (.rejected reason)))) w
  /-- The frames of the route cannot be encoded. -/
  | unencodable {cause : AddressError} {w : Yard}
      (hnot : ¬ ∃ route resolved frames, y.Admits request route resolved frames)
      (hw : y.Keeps w) :
      RequestEnds P y request token [] (.command (.error (.protocol cause))) w
  /-- All frames are accepted. -/
  | set {route resolved : RouteCommand} {frames : List Frame} {sent : List AcceptedFrame} {w : Yard}
      (hadmits : y.Admits request route resolved frames) (hsent : sent.map (·.frame) = frames)
      (hw : y.After sent (y.active.insert resolved)
        (y.positionsAfter (.setRoute y.layout route resolved)) w) :
      RequestEnds P y request token sent (.command (.ok (.route .set))) w
  /-- Some yard disturbs the request, and its reservation is given back. -/
  | disturbed {route resolved : RouteCommand} {frames : List Frame} {sent : List AcceptedFrame}
      {x w : Yard} {failure : Failure} (hadmits : y.Admits request route resolved frames)
      (hx : P x) (hdisturbs : x.Disturbs token sent.length failure)
      (hpre : sent.map (·.frame) <+: frames) (hlt : sent.length < frames.length)
      (hw : y.Passes sent w) :
      RequestEnds P y request token sent (.command (.error failure)) w

/-- It does not matter for a request how long it has waited to begin. -/
theorem RequestEnds.of_keeps {sent : List AcceptedFrame} (hk : y.Keeps z)
    (h : RequestEnds P z request token sent result w) :
    RequestEnds P y request token sent result w := by
  have hto {route resolved : RouteCommand} {frames : List Frame}
      (h : y.Admits request route resolved frames) : z.Admits request route resolved frames :=
    h.of_eq hk.plan_eq.symm hk.active_eq.symm
  cases h with
  | rejected hnot hw =>
    exact .rejected (fun ⟨_, _, _, hadmits⟩ ↦ hnot ⟨_, _, _, hto hadmits⟩) (hk.trans hw)
  | unencodable hnot hw =>
    exact .unencodable (fun ⟨_, _, _, hadmits⟩ ↦ hnot ⟨_, _, _, hto hadmits⟩) (hk.trans hw)
  | set hadmits hsent hw =>
    have hw' := After.trans hk hw
    rw [hk.active_eq, positionsAfter_congr hk.positions_eq, layout, hk.plan_eq] at hw'
    exact .set (hadmits.of_eq hk.plan_eq hk.active_eq) hsent hw'
  | disturbed hadmits hx hdisturbs hpre hlt hw =>
    exact .disturbed (hadmits.of_eq hk.plan_eq hk.active_eq) hx hdisturbs hpre hlt
      (Passes.trans hk hw)

/-- A request that begins is turned away, or it is admitted and makes its delivery. -/
theorem requestEnds_setRoute (hset : request.state.isSet = true)
    (h : Task.CompletesIn P (Task.ofProgress (y.setRoute token request)).1
      (Task.ofProgress (y.setRoute token request)).2 result w) :
    ∃ sent, RequestEnds P y request token sent result w := by
  by_cases hadmits : ∃ route resolved frames, y.Admits request route resolved frames
  · obtain ⟨route, resolved, frames, hadmits⟩ := hadmits
    rw [setRoute_of_admits hadmits] at h
    obtain ⟨sent, ⟨hsent, rfl, hw⟩ | ⟨x, failure, hx, hdisturbs, hpre, hlt, rfl, hw⟩⟩ :=
      delivered_of_completesIn rfl h
    · exact ⟨sent, .set hadmits hsent hw.of_withActive⟩
    · have hback : afterFailure (y.withActive (y.active.insert resolved)).active
          (.setRoute y.layout route resolved) = y.active := hadmits.without_insert hset
      rw [hback] at hw
      exact ⟨sent, .disturbed hadmits hx hdisturbs hpre hlt hw.of_withActive⟩
  · rcases y.setRoute_cases token request with
        ⟨reason, hs⟩ | ⟨cause, hs⟩ | ⟨route, resolved, frames, hadmits', -⟩
    · rw [hs] at h
      obtain ⟨rfl, hw⟩ := Task.keeps_of_completesIn_done rfl h
      exact ⟨[], .rejected hadmits ((y.keeps_publish _).trans hw)⟩
    · rw [hs] at h
      obtain ⟨rfl, hw⟩ := Task.keeps_of_completesIn_done rfl h
      exact ⟨[], .unencodable hadmits ((y.keeps_publish _).trans hw)⟩
    · exact absurd ⟨route, resolved, frames, hadmits'⟩ hadmits

/-- **Requests to set a route** end in one of these ways, whatever happens while they wait. -/
theorem requestEnds_of_completesIn (hset : request.state.isSet = true)
    (h : Task.CompletesIn P y (.pending (.command (.route request) token)) result w) :
    ∃ sent, RequestEnds P y request token sent result w := by
  obtain ⟨z, hk, h⟩ := Task.begin_of_completesIn_pending h
  rw [Task.begin, startCommand, startRoute, if_pos hset] at h
  obtain ⟨sent, hends⟩ := requestEnds_setRoute hset h
  exact ⟨sent, hends.of_keeps hk⟩

end

/-! ### Releases -/

/-- The routes that a call takes away when it begins, and those that remain. -/
inductive Releases (y : Yard) : Job → List RouteCommand → Reservations → Prop
  | teardown {request : RouteCommand} {token : Token} (h : request.state.isTeardown = true) :
      Releases y (.command (.route request) token) (y.active.matching request)
        (y.active.without request)
  | clearAll {token : Token} :
      Releases y (.command (.control .clearAllRoutes) token) y.active.routes .empty

section

variable {c : Command} {removed : List RouteCommand} {remaining : Reservations}

theorem Releases.of_active_eq (h : z.Releases job removed remaining)
    (hactive : z.active = y.active) : y.Releases job removed remaining := by
  cases h with
  | teardown h =>
    rw [hactive]
    exact .teardown h
  | clearAll =>
    rw [hactive]
    exact .clearAll

/-- What a release takes away and what remains has been active, and nothing else has. -/
theorem Releases.mem_routes_iff (h : y.Releases job removed remaining) {r : RouteCommand} :
    r ∈ y.active.routes ↔ r ∈ removed ∨ r ∈ remaining.routes := by
  cases h with
  | clearAll => exact (or_iff_left List.not_mem_nil).symm
  | @teardown request token =>
    rw [Reservations.matching, Reservations.without, List.mem_filter, List.mem_filter,
      ← and_or_left]
    exact (and_iff_left (by cases request.releases r <;> simp)).symm

theorem Releases.isRelease (h : y.Releases job removed remaining) : job.isRelease = true := by
  cases h with
  | teardown h => exact h
  | clearAll => rfl

/-- What a release takes away is determined. -/
theorem Releases.unique {removed' : List RouteCommand} {remaining' : Reservations}
    (h : y.Releases job removed remaining) (h' : y.Releases job removed' remaining') :
    removed = removed' ∧ remaining = remaining' := by
  cases h <;> cases h' <;> exact ⟨rfl, rfl⟩

/-- What a release takes away does not remain. -/
theorem Releases.not_mem_remaining (h : y.Releases job removed remaining) {r : RouteCommand}
    (hr : r ∈ removed) : r ∉ remaining.routes := by
  cases h with
  | clearAll => exact List.not_mem_nil
  | teardown =>
    intro hremains
    have hmeans := (List.mem_filter.1 hr).2
    have hother := (List.mem_filter.1 hremains).2
    rw [hmeans] at hother
    cases hother

theorem exists_releases (hrelease : job.isRelease = true) (y : Yard) :
    ∃ removed remaining, y.Releases job removed remaining := by
  cases job with
  | command c token =>
    cases c with
    | route request => exact ⟨_, _, .teardown hrelease⟩
    | control c =>
      cases c with
      | clearAllRoutes => exact ⟨_, _, .clearAll⟩
      | _ => cases hrelease
    | _ => cases hrelease
  | _ => cases hrelease

/-- How a release ends, if the yard has a property whenever the release takes a step: the frames
that are accepted for it, its result, and the yard in the end. -/
inductive ReleaseEnds (P : Yard → Prop) (y : Yard) (c : Command) (token : Token) :
    List AcceptedFrame → JobResult → Yard → Prop
  /-- It means no active route. -/
  | notActive {remaining : Reservations} {w : Yard}
      (hreleases : y.Releases (.command c token) [] remaining)
      (hc : c ≠ .control .clearAllRoutes) (hw : y.After [] remaining y.positions w) :
      ReleaseEnds P y c token [] (.command (.ok (.route (.rejected .notActive)))) w
  /-- The frames for the locks cannot be encoded. -/
  | unencodable {removed : List RouteCommand} {remaining : Reservations} {cause : AddressError}
      {w : Yard} (hreleases : y.Releases (.command c token) removed remaining)
      (hframes : unlockFrames (remaining.pointsToUnlock removed) = .error cause)
      (hw : y.After [] remaining y.positions w) :
      ReleaseEnds P y c token [] (.command (.error (.protocol cause))) w
  /-- All locks are released. -/
  | released {removed : List RouteCommand} {remaining : Reservations} {frames : List Frame}
      {sent : List AcceptedFrame} {outcome : RouteOutcome} {w : Yard}
      (hreleases : y.Releases (.command c token) removed remaining)
      (hframes : unlockFrames (remaining.pointsToUnlock removed) = .ok frames)
      (houtcome : outcome = .cleared ∧ removed ≠ [] ∨
        outcome = .allCleared ∧ c = .control .clearAllRoutes)
      (hsent : sent.map (·.frame) = frames) (hw : y.After sent remaining y.positions w) :
      ReleaseEnds P y c token sent (.command (.ok (.route outcome))) w
  /-- Some yard disturbs the release, and its routes stay away. -/
  | disturbed {removed : List RouteCommand} {remaining : Reservations} {frames : List Frame}
      {sent : List AcceptedFrame} {x w : Yard} {failure : Failure}
      (hreleases : y.Releases (.command c token) removed remaining)
      (hframes : unlockFrames (remaining.pointsToUnlock removed) = .ok frames)
      (hx : P x) (hdisturbs : x.Disturbs token sent.length failure)
      (hpre : sent.map (·.frame) <+: frames) (hlt : sent.length < frames.length)
      (hw : y.After sent remaining y.positions w) :
      ReleaseEnds P y c token sent (.command (.error failure)) w

/-- It does not matter for a release how long it has waited to begin. -/
theorem ReleaseEnds.of_keeps {sent : List AcceptedFrame} (hk : y.Keeps z)
    (h : ReleaseEnds P z c token sent result w) : ReleaseEnds P y c token sent result w := by
  have hafter {sent : List AcceptedFrame} {remaining : Reservations} {w : Yard}
      (hw : z.After sent remaining z.positions w) : y.After sent remaining y.positions w :=
    hk.positions_eq ▸ After.trans hk hw
  cases h with
  | notActive hreleases hc hw =>
    exact .notActive (hreleases.of_active_eq hk.active_eq) hc (hafter hw)
  | unencodable hreleases hframes hw =>
    exact .unencodable (hreleases.of_active_eq hk.active_eq) hframes (hafter hw)
  | released hreleases hframes houtcome hsent hw =>
    exact .released (hreleases.of_active_eq hk.active_eq) hframes houtcome hsent (hafter hw)
  | disturbed hreleases hframes hx hdisturbs hpre hlt hw =>
    exact .disturbed (hreleases.of_active_eq hk.active_eq) hframes hx hdisturbs hpre hlt
      (hafter hw)

/-- A delivery for a release ends it. -/
theorem releaseEnds_of_deliver {purpose : Purpose} {frames : List Frame} {outcome : RouteOutcome}
    (hreleases : y.Releases (.command c token) removed remaining)
    (hframes : unlockFrames (remaining.pointsToUnlock removed) = .ok frames)
    (houtcome : outcome = .cleared ∧ removed ≠ [] ∨
      outcome = .allCleared ∧ c = .control .clearAllRoutes)
    (hpurpose : purpose.outcome? = some (.route outcome))
    (hactive : afterFailure remaining purpose = remaining)
    (hpositions : (y.withActive remaining).positionsAfter purpose = y.positions)
    (h : Task.CompletesIn P
      (Task.ofProgress ((y.withActive remaining).deliver token purpose frames)).1
      (Task.ofProgress ((y.withActive remaining).deliver token purpose frames)).2 result w) :
    ∃ sent, ReleaseEnds P y c token sent result w := by
  obtain ⟨sent, ⟨hsent, rfl, hw⟩ | ⟨x, failure, hx, hdisturbs, hpre, hlt, rfl, hw⟩⟩ :=
    delivered_of_completesIn hpurpose h
  · rw [hpositions] at hw
    exact ⟨sent, .released hreleases hframes houtcome hsent hw.of_withActive⟩
  · rw [show (y.withActive remaining).active = remaining from rfl, hactive] at hw
    exact ⟨sent, .disturbed hreleases hframes hx hdisturbs hpre hlt hw.of_withActive⟩

theorem releaseEnds_releaseRoute {request : RouteCommand}
    (hteardown : request.state.isTeardown = true)
    (h : Task.CompletesIn P (Task.ofProgress (y.releaseRoute token request)).1
      (Task.ofProgress (y.releaseRoute token request)).2 result w) :
    ∃ sent, ReleaseEnds P y (.route request) token sent result w := by
  have hreleases : y.Releases (.command (.route request) token) _ _ := .teardown hteardown
  rcases y.releaseRoute_cases token request with
      ⟨hnone, hs⟩ | ⟨hsome, ⟨cause, hframes, hs⟩ | ⟨frames, hframes, hs⟩⟩
  · rw [hs] at h
    obtain ⟨rfl, hk⟩ := Task.keeps_of_completesIn_done rfl h
    rw [hnone] at hreleases
    exact ⟨[], .notActive hreleases (by simp) (((keeps_publish _ _).trans hk).of_withActive)⟩
  · rw [hs] at h
    obtain ⟨rfl, hk⟩ := Task.keeps_of_completesIn_done rfl h
    exact ⟨[], .unencodable hreleases hframes (((keeps_publish _ _).trans hk).of_withActive)⟩
  · rw [hs] at h
    exact releaseEnds_of_deliver hreleases hframes (.inl ⟨rfl, hsome⟩) rfl rfl rfl h

theorem releaseEnds_clearAllRoutes
    (h : Task.CompletesIn P (Task.ofProgress (y.clearAllRoutes token)).1
      (Task.ofProgress (y.clearAllRoutes token)).2 result w) :
    ∃ sent, ReleaseEnds P y (.control .clearAllRoutes) token sent result w := by
  rcases y.clearAllRoutes_cases token with ⟨cause, hframes, hs⟩ | ⟨frames, hframes, hs⟩
  · rw [hs] at h
    obtain ⟨rfl, hk⟩ := Task.keeps_of_completesIn_done rfl h
    exact ⟨[], .unencodable .clearAll hframes (((keeps_publish _ _).trans hk).of_withActive)⟩
  · rw [hs] at h
    exact releaseEnds_of_deliver .clearAll hframes (.inr ⟨rfl, rfl⟩) rfl rfl rfl h

/-- **Releases** end in one of these ways, whatever happens while they wait. -/
theorem releaseEnds_of_completesIn (hrelease : (Job.command c token).isRelease = true)
    (h : Task.CompletesIn P y (.pending (.command c token)) result w) :
    ∃ sent, ReleaseEnds P y c token sent result w := by
  obtain ⟨z, hk, h⟩ := Task.begin_of_completesIn_pending h
  suffices hz : ∃ sent, ReleaseEnds P z c token sent result w from hz.imp fun _ hz ↦ hz.of_keeps hk
  cases c with
  | route request =>
    have hteardown : request.state.isTeardown = true := hrelease
    rw [Task.begin, startCommand, startRoute_of_isTeardown _ _ hteardown] at h
    exact releaseEnds_releaseRoute hteardown h
  | control c =>
    cases c with
    | clearAllRoutes => exact releaseEnds_clearAllRoutes h
    | _ => cases hrelease
  | _ => cases hrelease

end

end Yard

end SignalBox
