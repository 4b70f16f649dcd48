import SignalBox.Proofs.Footprint
import SignalBox.Proofs.Resolution

/-!
# How commands begin

A command is either turned away at once, which changes nothing but the channel, or it passes its
checks and its frames are delivered. What it means to pass is one structure for points (`Moves`) and
one for routes (`Admits`); a point command has nothing to do if its point is in position
(`InPosition`). A request to set a route takes its reservation in the step in which it is admitted;
a release takes routes away in its first step, whatever becomes of its frames.
-/

namespace SignalBox

/-- A route that is to be set is not to be released. -/
theorem RouteState.isTeardown_of_isSet {s : RouteState} (h : s.isSet = true) :
    s.isTeardown = false := by
  cases s with
  | setMain | setShunting => rfl
  | _ => cases h

namespace Yard

variable (y : Yard) (token : Token)

/-! ### Points -/

/-- A point command passes: it asks for a position, the layout has its point, no route holds the
point, some sub-point is not recorded in this position, and its frames can be encoded. -/
structure Moves (y : Yard) (command point : PointCommand) (frames : List Frame) : Prop where
  defined : command.isUndefined = false
  resolves : y.layout.resolvePoint? command = some point
  free : y.active.holds point.number = false
  elsewhere : y.positions.allAt point.position (Positions.keysOf y.layout command) = false
  encoded : point.setFrames = .ok frames

/-- **Point commands** are turned away or move their point. -/
theorem startPoint_cases (command : PointCommand) :
    (∃ outcome, outcome ≠ .set ∧ y.startPoint token command = y.endPoint command.number outcome) ∨
      (∃ cause, y.startPoint token command = y.failPoint command.number (.protocol cause)) ∨
      ∃ point frames, y.Moves command point frames ∧
        y.startPoint token command = y.deliver token
          (.movePoint command.number (Positions.keysOf y.layout command) command.position)
          frames := by
  rw [startPoint]
  split
  · exact .inl ⟨_, by simp, rfl⟩
  next hdefined =>
    split
    · exact .inl ⟨_, by simp, rfl⟩
    next point hresolves =>
      have hsame := Layout.sameRequest_of_resolvePoint? hresolves
      split
      · exact .inl ⟨_, by simp, rfl⟩
      next hfree =>
        rw [movePoint, hsame.number, hsame.position]
        split
        · exact .inl ⟨_, by simp, rfl⟩
        next helsewhere =>
          split
          · exact .inr (.inl ⟨_, rfl⟩)
          next frames hframes =>
            exact .inr (.inr ⟨point, frames, ⟨by simpa using hdefined, hresolves,
              by simpa using hfree, by simpa [hsame.position] using helsewhere, hframes⟩, rfl⟩)

/-- A point command finds its point in position: it asks for a position, the layout has its point,
no route holds the point, and every sub-point it covers is recorded in this position. -/
structure InPosition (y : Yard) (command : PointCommand) : Prop where
  defined : command.isUndefined = false
  known : ∃ point, y.layout.resolvePoint? command = some point
  free : y.active.holds command.number = false
  there : y.positions.allAt command.position (Positions.keysOf y.layout command) = true

/-- **Points in position** are told as such, and no others. -/
theorem inPosition_iff {command : PointCommand} :
    y.InPosition command ↔
      y.startPoint token command = y.endPoint command.number .alreadyInPosition := by
  constructor
  · rintro ⟨hdefined, ⟨point, hresolves⟩, hfree, hthere⟩
    have hsame := Layout.sameRequest_of_resolvePoint? hresolves
    rw [startPoint, if_neg (by simp [hdefined]), hresolves]
    dsimp only
    rw [if_neg (by simp [hsame.number, hfree]), movePoint, hsame.position, if_pos hthere,
      hsame.number]
  · intro h
    rw [startPoint] at h
    split at h
    · simp [endPoint] at h
    next hdefined =>
      split at h
      · simp [endPoint] at h
      next point hresolves =>
        have hsame := Layout.sameRequest_of_resolvePoint? hresolves
        split at h
        · simp [endPoint] at h
        next hfree =>
          rw [movePoint] at h
          split at h
          next hthere =>
            exact ⟨by simpa using hdefined, ⟨point, hresolves⟩, by simpa [hsame.number] using hfree,
              hsame.position ▸ hthere⟩
          next =>
            split at h
            · simp [failPoint, endPoint] at h
            next frames _ => cases frames <;> simp [deliver, finish, endPoint] at h

/-! ### Routes -/

/-- The request with its points: one without points, and with a start, gets those of its legs. -/
def withPoints (y : Yard) (request : RouteCommand) : Except (UInt32 × UInt32) RouteCommand :=
  if request.points.isEmpty && request.start != 0 then y.layout.expandRoute request
  else .ok request

/-- A request to set a route passes: it has its points as `route`, nothing stands in the way of
these, and with their addresses, as `resolved`, they can be encoded. -/
structure Admits (y : Yard) (request route resolved : RouteCommand) (frames : List Frame) :
    Prop where
  expanded : y.withPoints request = .ok route
  free : y.obstacle? route = none
  resolves : y.layout.resolveRoute route = .ok resolved
  encoded : resolved.setFrames = .ok frames

/-- A request keeps its signals and its state when it gets its points. -/
theorem eq_of_withPoints {y : Yard} {request route : RouteCommand}
    (h : y.withPoints request = .ok route) : route = { request with points := route.points } := by
  rw [withPoints] at h
  split at h
  · obtain ⟨points, -, rfl⟩ := map_eq_ok_iff.1 h
    rfl
  · exact (Except.ok.inj h) ▸ rfl

/-- The points of a route are those of the request or those of its legs. -/
theorem mem_points_of_withPoints {y : Yard} {request route : RouteCommand} {c : PointCommand}
    (h : y.withPoints request = .ok route) (hc : c ∈ route.points) :
    c ∈ request.points ∨ ∃ d ∈ y.layout.routes, ∃ p ∈ d.points, c = p.command := by
  rw [withPoints] at h
  split at h
  · exact .inr (Layout.mem_points_of_expandRoute h hc)
  · exact .inl (Except.ok.inj h ▸ hc)

/-- What is reserved has the end signals of the request. -/
theorem Admits.ends_eq {y : Yard} {request route resolved : RouteCommand} {frames : List Frame}
    (h : y.Admits request route resolved frames) :
    (route.start = request.start ∧ route.destination = request.destination) ∧
      resolved.start = request.start ∧ resolved.destination = request.destination := by
  obtain ⟨points, -, rfl⟩ := Layout.resolveRoute_eq_ok_iff.1 h.resolves
  rw [eq_of_withPoints h.expanded]
  exact ⟨⟨rfl, rfl⟩, rfl, rfl⟩

/-- What a request is admitted with is determined. -/
theorem Admits.unique {y : Yard} {request route resolved route' resolved' : RouteCommand}
    {frames frames' : List Frame} (h : y.Admits request route resolved frames)
    (h' : y.Admits request route' resolved' frames') : route = route' ∧ resolved = resolved' := by
  obtain rfl := Except.ok.inj (h.expanded.symm.trans h'.expanded)
  exact ⟨rfl, Except.ok.inj (h.resolves.symm.trans h'.resolves)⟩

theorem reserveRoute_cases (route : RouteCommand) :
    (∃ reason, y.reserveRoute token route = y.endRoute route (.rejected reason)) ∨
      (∃ cause, y.reserveRoute token route = y.failRoute route (.protocol cause)) ∨
      ∃ resolved frames, y.obstacle? route = none ∧ y.layout.resolveRoute route = .ok resolved ∧
        resolved.setFrames = .ok frames ∧
        y.reserveRoute token route = (y.withActive (y.active.insert resolved)).deliver token
          (.setRoute y.layout route resolved) frames := by
  rw [reserveRoute]
  split
  · exact .inl ⟨_, rfl⟩
  next hfree =>
    split
    · exact .inl ⟨_, rfl⟩
    next resolved hresolves =>
      split
      · exact .inr (.inl ⟨_, rfl⟩)
      next frames hframes => exact .inr (.inr ⟨resolved, frames, hfree, hresolves, hframes, rfl⟩)

/-- **Requests to set a route** are turned away or take their reservation. -/
theorem setRoute_cases (request : RouteCommand) :
    (∃ reason, y.setRoute token request = y.endRoute request (.rejected reason)) ∨
      (∃ cause, y.setRoute token request = y.failRoute request (.protocol cause)) ∨
      ∃ route resolved frames, y.Admits request route resolved frames ∧
        y.setRoute token request = (y.withActive (y.active.insert resolved)).deliver token
          (.setRoute y.layout route resolved) frames := by
  have hroute : (∃ leg, y.withPoints request = .error leg ∧ y.setRoute token request =
        y.endRoute request (.rejected (.unknownRoute leg.1 leg.2))) ∨
      ∃ route, y.withPoints request = .ok route ∧
        y.setRoute token request = y.reserveRoute token route := by
    rw [setRoute, withPoints]
    split
    · cases y.layout.expandRoute request with
      | error leg => exact .inl ⟨leg, rfl, rfl⟩
      | ok route => exact .inr ⟨route, rfl, rfl⟩
    · exact .inr ⟨request, rfl, rfl⟩
  -- what is announced of the route with its points is announced of the request
  rcases hroute with ⟨leg, -, h⟩ | ⟨route, hexpanded, h⟩
  · exact .inl ⟨_, h⟩
  · rcases y.reserveRoute_cases token route with
        ⟨reason, hr⟩ | ⟨cause, hr⟩ | ⟨resolved, frames, hfree, hresolves, hframes, hr⟩
    · refine .inl ⟨reason, ?_⟩
      rw [h, hr, eq_of_withPoints hexpanded]
      rfl
    · refine .inr (.inl ⟨cause, ?_⟩)
      rw [h, hr, eq_of_withPoints hexpanded]
      rfl
    · exact .inr (.inr ⟨route, resolved, frames, ⟨hexpanded, hfree, hresolves, hframes⟩,
        h.trans hr⟩)

/-- A request to set a route that is admitted takes its reservation. -/
theorem setRoute_of_admits {y : Yard} {token : Token} {request route resolved : RouteCommand}
    {frames : List Frame} (h : y.Admits request route resolved frames) :
    y.setRoute token request = (y.withActive (y.active.insert resolved)).deliver token
      (.setRoute y.layout route resolved) frames := by
  have hreserve : y.setRoute token request = y.reserveRoute token route := by
    have hexpanded := h.expanded
    rw [withPoints] at hexpanded
    rw [setRoute]
    split at hexpanded
    next hexpands => rw [if_pos hexpands, hexpanded]
    next hexpands => rw [if_neg hexpands, Except.ok.inj hexpanded]
  rw [hreserve, reserveRoute, h.free]
  dsimp only
  rw [h.resolves]
  dsimp only
  rw [h.encoded]

theorem startRoute_of_isTeardown {request : RouteCommand}
    (h : request.state.isTeardown = true) :
    y.startRoute token request = y.releaseRoute token request := by
  have hset : ¬ request.state.isSet = true := fun hset ↦
    Bool.false_ne_true ((RouteState.isTeardown_of_isSet hset).symm.trans h)
  rw [startRoute, if_neg hset, if_pos h]

/-- **Releases** are turned away if they mean no active route. Otherwise the routes are gone at
once, and the locks that no other route needs are released. -/
theorem releaseRoute_cases (request : RouteCommand) :
    (y.active.matching request = [] ∧
        y.releaseRoute token request =
          (y.withActive (y.active.without request)).endRoute request (.rejected .notActive)) ∨
      y.active.matching request ≠ [] ∧
        ((∃ cause, unlockFrames ((y.active.without request).pointsToUnlock
              (y.active.matching request)) = .error cause ∧
            y.releaseRoute token request =
              (y.withActive (y.active.without request)).failRoute request (.protocol cause)) ∨
          ∃ frames, unlockFrames ((y.active.without request).pointsToUnlock
              (y.active.matching request)) = .ok frames ∧
            y.releaseRoute token request =
              (y.withActive (y.active.without request)).deliver token
                (.release request (y.active.matching request)) frames) := by
  rw [releaseRoute]
  split
  next h => exact .inl ⟨by simpa using h, rfl⟩
  next h =>
    refine .inr ⟨by simpa using h, ?_⟩
    split
    next cause hc => exact .inl ⟨cause, hc, rfl⟩
    next frames hf => exact .inr ⟨frames, hf, rfl⟩

theorem clearAllRoutes_cases :
    (∃ cause, unlockFrames (Reservations.empty.pointsToUnlock y.active.routes) = .error cause ∧
        y.clearAllRoutes token =
          (y.withActive .empty).failRoute allRoutes (.protocol cause)) ∨
      ∃ frames, unlockFrames (Reservations.empty.pointsToUnlock y.active.routes) = .ok frames ∧
        y.clearAllRoutes token = (y.withActive .empty).deliver token .clearAll frames := by
  rw [clearAllRoutes]
  split
  next cause hc => exact .inl ⟨cause, hc, rfl⟩
  next frames hf => exact .inr ⟨frames, hf, rfl⟩

end Yard

end SignalBox
