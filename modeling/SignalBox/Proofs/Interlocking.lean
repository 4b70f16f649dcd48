import SignalBox.Proofs.ActiveRoutes

/-!
# Interlocking

The active routes, those on their way to being set among them, may stand side by side: no two have
the same end signals, no two want one point in different positions, and each is a route that can be
set. This holds in every state of every run (`interlocked_run`), whatever commands interleave, are
cancelled or refused by the bus, and however often the layout is replaced.

* **Withdrawals** keep it because they only filter the list (`Interlocked.of_sublist`).
* **Reservations** keep it because the check and the insertion are one step. The check is made on
  the request and the route that is inserted is the resolved one, but resolution keeps signals,
  state, numbers and positions, and nothing else is checked (`Interlocked.insert`).
-/

namespace SignalBox

/-- Active routes that may stand side by side. -/
structure Reservations.Interlocked (a : Reservations) : Prop where
  /-- No two have the same end signals. -/
  ends_ne : a.routes.Pairwise fun r s ↦ (r.start, r.destination) ≠ (s.start, s.destination)
  /-- No two want a point in different positions. -/
  agree : a.routes.Pairwise fun r s ↦
    ∀ p ∈ r.points, ∀ q ∈ s.points, p.number = q.number → p.position = q.position
  /-- Each has both signals, is to be set, and has a point with a position. -/
  proper : ∀ r ∈ a.routes, r.start ≠ 0 ∧ r.destination ≠ 0 ∧
    (r.state = .setMain ∨ r.state = .setShunting) ∧ ∃ p ∈ r.points, p.position ≠ .undefined

/-! ### What the checks say -/

namespace RouteCommand

theorem sameEnds_eq_false_iff {r s : RouteCommand} :
    r.sameEnds s = false ↔ (r.start, r.destination) ≠ (s.start, s.destination) := by
  simp [sameEnds]

/-- End signals in one direction. -/
theorem sameEnds_iff {r s : RouteCommand} :
    r.sameEnds s = true ↔ r.start = s.start ∧ r.destination = s.destination := by
  simp [sameEnds]

theorem sameEnds_trans {r s q : RouteCommand} (h₁ : r.sameEnds s = true)
    (h₂ : s.sameEnds q = true) : r.sameEnds q = true := by
  rw [sameEnds_iff] at *
  exact ⟨h₁.1.trans h₂.1, h₁.2.trans h₂.2⟩

theorem sameEnds_symm {r s : RouteCommand} (h : r.sameEnds s = true) :
    s.sameEnds r = true := by
  rw [sameEnds_iff] at *
  exact ⟨h.1.symm, h.2.symm⟩

/-- A request with a start means the routes with its end signals. -/
theorem releases_iff_sameEnds {r s : RouteCommand} (h : r.start ≠ 0) :
    r.releases s = true ↔ r.sameEnds s = true := by
  simp [releases, sameEnds_iff, h, and_comm]

theorem conflictingPoint_eq_none_iff {r other : RouteCommand} :
    r.conflictingPoint other = none ↔
      ∀ p ∈ r.points, ∀ q ∈ other.points, q.number = p.number → q.position = p.position := by
  simp [conflictingPoint]

/-- A route to be set is not undefined if it has its signals and a point with a position. -/
theorem isUndefined_eq_false_iff {r : RouteCommand} (hset : r.state.isSet = true) :
    r.isUndefined = false ↔
      r.start ≠ 0 ∧ r.destination ≠ 0 ∧ ∃ p ∈ r.points, p.position ≠ .undefined := by
  simp [isUndefined, hset, PointCommand.isUndefined, and_assoc]

end RouteCommand

theorem Reservations.contains_eq_false_iff {a : Reservations} {route : RouteCommand} :
    a.contains route = false ↔
      ∀ r ∈ a.routes, ¬ (r.start = route.start ∧ r.destination = route.destination) := by
  simp [contains, RouteCommand.sameEnds]

theorem Reservations.conflict?_eq_none_iff {a : Reservations} {route : RouteCommand} :
    a.conflict? route = none ↔ ∀ r ∈ a.routes, route.conflictingPoint r = none := by
  simp [conflict?, conflictWith?]

/-- A point is held if an active route has it. -/
theorem Reservations.holds_iff {a : Reservations} {number : UInt32} :
    a.holds number = true ↔ ∃ r ∈ a.routes, ∃ p ∈ r.points, p.number = number := by
  simp [holds, holder?, RouteCommand.hasPoint]

/-- What is known of a route that nothing stands in the way of. -/
theorem Yard.of_obstacle?_eq_none {y : Yard} {route : RouteCommand} (h : y.obstacle? route = none) :
    route.isUndefined = false ∧ y.active.contains route = false ∧
      y.active.conflict? route = none ∧ y.plan.index.violation? route = none := by
  rw [obstacle?] at h
  split at h
  · cases h
  next hdefined =>
    split at h
    · cases h
    next hcontains =>
      split at h
      · cases h
      next hconflict =>
        exact ⟨by simpa using hdefined, by simpa using hcontains, hconflict, by simpa using h⟩

theorem Yard.obstacle?_eq_none {y : Yard} {route : RouteCommand}
    (hdefined : route.isUndefined = false)
    (hcontains : y.active.contains route = false) (hconflict : y.active.conflict? route = none)
    (hfits : y.plan.index.violation? route = none) : y.obstacle? route = none := by
  rw [obstacle?, hdefined, hcontains, hconflict, hfits]
  rfl

/-- A route that is admitted has the end signals of the route with its addresses, and a start; no
active route has these end signals. -/
theorem Yard.Admits.ends {y : Yard} {request route resolved : RouteCommand} {frames : List Frame}
    (h : y.Admits request route resolved frames) (hset : request.state.isSet = true) :
    route.sameEnds resolved = true ∧ route.start ≠ 0 ∧ y.active.contains route = false := by
  obtain ⟨hdefined, hcontains, -, -⟩ := Yard.of_obstacle?_eq_none h.free
  obtain ⟨⟨hstart, hdestination⟩, hstart', hdestination'⟩ := h.ends_eq
  have hstate : route.state = request.state := by rw [Yard.eq_of_withPoints h.expanded]
  exact ⟨RouteCommand.sameEnds_iff.2
      ⟨hstart.trans hstart'.symm, hdestination.trans hdestination'.symm⟩,
    ((RouteCommand.isUndefined_eq_false_iff (hstate ▸ hset)).1 hdefined).1, hcontains⟩

/-! ### What keeps the routes interlocked -/

namespace Reservations.Interlocked

variable {a b : Reservations}

theorem empty : Interlocked .empty := ⟨.nil, .nil, nofun⟩

/-- Taking routes away keeps the others interlocked. -/
theorem of_sublist (h : a.Interlocked) (hs : b.routes.Sublist a.routes) : b.Interlocked :=
  ⟨h.ends_ne.sublist hs, h.agree.sublist hs, fun r hr ↦ h.proper r (hs.subset hr)⟩

/-- A route may be added if it is proper and compatible with each active route. -/
theorem insert (h : a.Interlocked) {route : RouteCommand}
    (hends : ∀ r ∈ a.routes, (r.start, r.destination) ≠ (route.start, route.destination))
    (hagree : ∀ r ∈ a.routes, ∀ p ∈ r.points, ∀ q ∈ route.points,
      p.number = q.number → p.position = q.position)
    (hproper : route.start ≠ 0 ∧ route.destination ≠ 0 ∧
      (route.state = .setMain ∨ route.state = .setShunting) ∧
      ∃ p ∈ route.points, p.position ≠ .undefined) :
    (a.insert route).Interlocked where
  ends_ne := List.pairwise_append.2 ⟨h.ends_ne, List.pairwise_singleton _ _, by simpa using hends⟩
  agree := List.pairwise_append.2 ⟨h.agree, List.pairwise_singleton _ _, by simpa using hagree⟩
  proper r hr := by
    rcases List.mem_append.1 hr with hr | hr
    · exact h.proper r hr
    · rwa [List.mem_singleton.1 hr]

end Reservations.Interlocked

/-! ### The invariant -/

/-- A route that is admitted wants no point in another position than an active route: the check was
made on the points of the request, and resolution keeps their numbers and positions. -/
theorem Yard.Admits.agrees {y : Yard} {request route resolved : RouteCommand}
    {frames : List Frame} (h : y.Admits request route resolved frames) :
    ∀ r ∈ y.active.routes, ∀ p ∈ r.points, ∀ q ∈ resolved.points,
      p.number = q.number → p.position = q.position := by
  obtain ⟨-, -, hconflict, -⟩ := Yard.of_obstacle?_eq_none h.free
  obtain ⟨points, hpoints, rfl⟩ := Layout.resolveRoute_eq_ok_iff.1 h.resolves
  intro r hr p hp q hq hn
  obtain ⟨q₀, hq₀, hresolves⟩ := exists_left_of_mem_right hpoints hq
  have hsame := hresolves.sameRequest
  have hnone := Reservations.conflict?_eq_none_iff.1 hconflict r hr
  rw [hsame.position]
  exact RouteCommand.conflictingPoint_eq_none_iff.1 hnone q₀ hq₀ p hp (hn.trans hsame.number)

/-- **Reservations** keep the routes interlocked: resolution keeps everything that was checked. -/
theorem Yard.Admits.interlocked {y : Yard} {request route resolved : RouteCommand}
    {frames : List Frame} (h : y.Admits request route resolved frames)
    (hset : request.state.isSet = true) (ha : y.active.Interlocked) :
    (y.active.insert resolved).Interlocked := by
  obtain ⟨hdefined, hcontains, -, -⟩ := Yard.of_obstacle?_eq_none h.free
  have hagree := h.agrees
  obtain ⟨points, hpoints, rfl⟩ := Layout.resolveRoute_eq_ok_iff.1 h.resolves
  have hroute := Yard.eq_of_withPoints h.expanded
  have hstate : route.state = request.state := by rw [hroute]
  obtain ⟨hstart, hdestination, p, hp, hposition⟩ :=
    (RouteCommand.isUndefined_eq_false_iff (hstate ▸ hset)).1 hdefined
  refine ha.insert (fun r hr ↦ ?_) hagree ⟨hstart, hdestination, ?_, ?_⟩
  · have hne : r.sameEnds route = false := by
      simp only [Reservations.contains, List.any_eq_false] at hcontains
      exact Bool.eq_false_iff.2 (hcontains r hr)
    exact RouteCommand.sameEnds_eq_false_iff.1 hne
  · show route.state = .setMain ∨ route.state = .setShunting
    rw [hstate]
    revert hset
    cases request.state <;> simp [RouteState.isSet]
  · obtain ⟨q, hq, hresolves⟩ := exists_right_of_mem_left hpoints hp
    exact ⟨q, hq, hresolves.sameRequest.position ▸ hposition⟩

namespace Traffic

/-- **Step.** Every move keeps the active routes interlocked. -/
theorem interlocked_move {t : Traffic} (m : Move) (h : t.yard.active.Interlocked) :
    (t.move m).yard.active.Interlocked := by
  rcases t.routes_move m with
      hroutes | ⟨place, request, token, route, resolved, frames, -, -, hset, ha, hroutes⟩
  · exact h.of_sublist (hroutes ▸ List.filter_sublist)
  · exact hroutes ▸ ha.interlocked hset h

/-- **Run.** In every state of every run, the active routes are interlocked. -/
theorem interlocked_run (layout : Layout) (delay capacity : Nat) (faults : BusFaults)
    (moves : List Move) :
    ((start layout delay capacity faults).run moves).yard.active.Interlocked :=
  run_induction (P := fun t ↦ t.yard.active.Interlocked) .empty interlocked_move moves

end Traffic

end SignalBox
