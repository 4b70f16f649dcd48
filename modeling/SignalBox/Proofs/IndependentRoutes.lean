import SignalBox.Proofs.HeldPositions
import SignalBox.Proofs.PerformedCalls

/-!
# Routes that can be set in either order

Two requests to set a route do not depend on each other if they have different end signals and want
no point in different positions. The main statement (`Yard.set_in_either_order`) is that such
requests, each of which sets its route where it is the first, set both routes in either order, and
that it does not matter later in which.

* **Admission persists** (`Yard.Admits.of_set`): what the first request changes is one reservation
  and some records. The second request is not in conflict with the former, and its points are found
  and encoded by the layout alone.
* **Records agree** (`Yard.recorded?_eq_of_admits`): where both routes record a position for a
  sub-point, they record the same one, so the order of the records does not matter.
-/

namespace SignalBox

/-- Of two routes, neither is in conflict with the other or both are. -/
theorem RouteCommand.conflicts_eq_false_comm {r s : RouteCommand} :
    r.conflicts s = false ↔ s.conflicts r = false := by
  simp only [conflicts, Option.isSome_eq_false_iff, Option.isNone_iff_eq_none,
    conflictingPoint_eq_none_iff]
  exact ⟨fun h p hp q hq hn ↦ (h q hq p hp hn.symm).symm,
    fun h p hp q hq hn ↦ (h q hq p hp hn.symm).symm⟩

/-- What a route records for a key: the position of the last of its points that covers the key. -/
def RouteCommand.recorded? (r : RouteCommand) (layout : Layout) (key : PointKey) :
    Option Position :=
  (latest? (PointCommand.covers layout key) r.points).map (·.position)

namespace Yard

variable {y z w : Yard} {token ta tb : Token} {result : JobResult} {results : List JobResult}
  {request route resolved : RouteCommand} {frames : List Frame}

/-! ### One request -/

/-- A yard after a route has been set: the route is the last one, and its positions are recorded. -/
structure SetsTo (y : Yard) (resolved : RouteCommand) (z : Yard) : Prop where
  plan_eq : z.plan = y.plan
  active_eq : z.active = y.active.insert resolved
  get?_eq : ∀ key, z.positions.get? key =
    (resolved.recorded? y.layout key).or (y.positions.get? key)

theorem SetsTo.of_after {sent : List AcceptedFrame}
    (h : y.After sent (y.active.insert resolved)
      (y.positionsAfter (.setRoute y.layout route resolved)) w) : y.SetsTo resolved w where
  plan_eq := h.plan_eq
  active_eq := h.active_eq
  get?_eq key := by
    rw [h.positions_eq]
    exact Positions.get?_recordPoints

/-- **A request that is admitted** and not disturbed sets its route. -/
theorem setsTo_of_performs (hset : request.state.isSet = true)
    (hadmits : y.Admits request route resolved frames)
    (h : y.Performs (.route request) token result w) :
    result = .command (.ok (.route .set)) ∧ y.SetsTo resolved w := by
  obtain ⟨sent, hends⟩ := requestEnds_of_completesIn hset h
  cases hends with
  | rejected hnot | unencodable hnot => exact absurd ⟨_, _, _, hadmits⟩ hnot
  | disturbed _ hx hdisturbs => exact absurd hdisturbs hx.not_disturbs
  | set hadmits' _ hw =>
    obtain ⟨rfl, rfl⟩ := hadmits.unique hadmits'
    exact ⟨rfl, .of_after hw⟩

/-- **A request that sets its route** has been admitted. -/
theorem exists_setsTo_of_completes (hset : request.state.isSet = true)
    (h : Task.Completes y (.pending (.command (.route request) token))
      (.command (.ok (.route .set))) w) :
    ∃ route resolved frames, y.Admits request route resolved frames ∧ y.SetsTo resolved w := by
  obtain ⟨sent, hends⟩ := requestEnds_of_completesIn hset (Task.completesIn_true_iff.2 h)
  cases hends with
  | set hadmits _ hw => exact ⟨_, _, _, hadmits, .of_after hw⟩

theorem admits_of_performs (hset : request.state.isSet = true)
    (h : y.Performs (.route request) token (.command (.ok (.route .set))) w) :
    ∃ route resolved frames, y.Admits request route resolved frames := by
  obtain ⟨route, resolved, frames, hadmits, -⟩ := exists_setsTo_of_completes hset h.completes
  exact ⟨route, resolved, frames, hadmits⟩

/-- A request that is admitted in a sound yard can be performed. -/
theorem exists_performs_of_admits (hset : request.state.isSet = true)
    (hadmits : y.Admits request route resolved frames) (hy : y.Sound token) :
    ∃ w, y.Performs (.route request) token (.command (.ok (.route .set))) w := by
  obtain ⟨result, w, h, -⟩ := exists_performs hy (.route request)
  obtain ⟨rfl, -⟩ := setsTo_of_performs hset hadmits h
  exact ⟨w, h⟩

/-! ### Two requests -/

section

variable {a b routeA routeB resolvedA resolvedB : RouteCommand} {framesA framesB : List Frame}

/-- **Admission persists** when another route has been set that has other end signals and is not in
conflict. -/
theorem Admits.of_set (hb : y.Admits b routeB resolvedB framesB)
    (ha : y.Admits a routeA resolvedA framesA) (hne : a.sameEnds b = false)
    (hapart : routeA.conflicts routeB = false) (hz : y.SetsTo resolvedA z) :
    z.Admits b routeB resolvedB framesB := by
  obtain ⟨hexpanded, hfree, hresolves, hencoded⟩ := hb
  obtain ⟨hdefined, hcontains, hconflict, hfits⟩ := of_obstacle?_eq_none hfree
  have hends : resolvedA.sameEnds routeB = false := by
    obtain ⟨-, hstart, hdestination⟩ := ha.ends_eq
    rw [eq_of_withPoints hexpanded, RouteCommand.sameEnds, hstart, hdestination]
    exact hne
  have hagree : routeB.conflictingPoint resolvedA = none := by
    obtain ⟨points, hpoints, rfl⟩ := Layout.resolveRoute_eq_ok_iff.1 ha.resolves
    have hnone := Option.isNone_iff_eq_none.1 (Option.isSome_eq_false_iff.1
      (RouteCommand.conflicts_eq_false_comm.1 hapart))
    -- the resolved points have the numbers and positions of those that were compared
    refine RouteCommand.conflictingPoint_eq_none_iff.2 fun p hp q hq hn ↦ ?_
    obtain ⟨q', hq', hresolved⟩ := exists_left_of_mem_right hpoints hq
    have hsame := hresolved.sameRequest
    rw [hsame.position]
    exact RouteCommand.conflictingPoint_eq_none_iff.1 hnone p hp q' hq' (hsame.number ▸ hn)
  refine ⟨?_, obstacle?_eq_none hdefined ?_ ?_ (hz.plan_eq ▸ hfits), ?_, hencoded⟩
  · rw [withPoints, layout, hz.plan_eq]
    exact hexpanded
  · rw [hz.active_eq, Reservations.contains, Reservations.insert, List.any_append,
      show y.active.routes.any _ = false from hcontains]
    simpa using hends
  · rw [hz.active_eq, Reservations.conflict?_eq_none_iff]
    intro r hr
    rcases List.mem_append.1 hr with hr | hr
    · exact Reservations.conflict?_eq_none_iff.1 hconflict r hr
    · rwa [List.mem_singleton.1 hr]
  · rw [layout, hz.plan_eq]
    exact hresolves

/-- **Records agree**: a route that is admitted beside another records the same positions. -/
theorem recorded?_eq_of_admits (hb : z.Admits b routeB resolvedB framesB)
    (hz : y.SetsTo resolvedA z) {key : PointKey} {p q : Position}
    (hp : resolvedA.recorded? y.layout key = some p)
    (hq : resolvedB.recorded? y.layout key = some q) : p = q := by
  obtain ⟨c, hc, rfl⟩ := Option.map_eq_some_iff.1 hp
  obtain ⟨d, hd, rfl⟩ := Option.map_eq_some_iff.1 hq
  obtain ⟨hcmem, hccovers⟩ := of_latest?_eq_some hc
  obtain ⟨hdmem, hdcovers⟩ := of_latest?_eq_some hd
  have hactive : resolvedA ∈ z.active.routes :=
    hz.active_eq ▸ List.mem_append_right _ (List.mem_singleton_self _)
  have hnumber : c.number = d.number :=
    (Positions.number_of_mem_keysOf (PointCommand.covers_iff.1 hccovers).2).symm.trans
      (Positions.number_of_mem_keysOf (PointCommand.covers_iff.1 hdcovers).2)
  exact hb.agrees resolvedA hactive c hcmem d hdmem hnumber

/-- **Two requests, one after the other**, set both routes. -/
theorem setsTo_of_performsAll (haset : a.state.isSet = true) (hbset : b.state.isSet = true)
    (hne : a.sameEnds b = false) (hapart : routeA.conflicts routeB = false)
    (ha : y.Admits a routeA resolvedA framesA) (hb : y.Admits b routeB resolvedB framesB)
    (h : y.PerformsAll [(.route a, ta), (.route b, tb)] results w) :
    results = [.command (.ok (.route .set)), .command (.ok (.route .set))] ∧
      ∃ z, y.SetsTo resolvedA z ∧ z.Admits b routeB resolvedB framesB ∧ z.SetsTo resolvedB w := by
  cases h with
  | @cons _ z _ _ _ _ _ _ hfirst hrest =>
    cases hrest with
    | cons hsecond hnil =>
      cases hnil
      obtain ⟨rfl, hz⟩ := setsTo_of_performs haset ha hfirst
      have hb' := hb.of_set ha hne hapart hz
      obtain ⟨rfl, hw⟩ := setsTo_of_performs hbset hb' hsecond
      exact ⟨rfl, z, hz, hb', hw⟩

/-- The positions and the active routes after two routes have been set. -/
theorem SetsTo.then_sets (hz : y.SetsTo resolvedA z) (hw : z.SetsTo resolvedB w) :
    w.active.routes = y.active.routes ++ [resolvedA, resolvedB] ∧
      ∀ key, w.positions.get? key = (resolvedB.recorded? y.layout key).or
        ((resolvedA.recorded? y.layout key).or (y.positions.get? key)) := by
  constructor
  · rw [hw.active_eq, hz.active_eq]
    exact List.append_assoc _ _ _
  · intro key
    rw [hw.get?_eq, hz.get?_eq, layout, hz.plan_eq]
    rfl

end

/-- **Independent routes can be set in either order.** Of two requests with different end signals,
whose points are not in conflict, let each set its route where it is the first. Then in a sound yard
they can be performed in either order, and however they are performed, both routes are set. In the
end the recorded positions are the same, and so are the active routes but for the order of the last
two. -/
theorem set_in_either_order {a b : RouteCommand} (haset : a.state.isSet = true)
    (hbset : b.state.isSet = true) (hne : a.sameEnds b = false)
    (hapart : ∀ routeA routeB, y.withPoints a = .ok routeA → y.withPoints b = .ok routeB →
      routeA.conflicts routeB = false)
    (ha : ∃ u, y.Performs (.route a) ta (.command (.ok (.route .set))) u)
    (hb : ∃ u, y.Performs (.route b) tb (.command (.ok (.route .set))) u)
    (hta : y.Sound ta) (htb : y.Sound tb) :
    (∃ results w, y.PerformsAll [(.route a, ta), (.route b, tb)] results w) ∧
      (∃ results w, y.PerformsAll [(.route b, tb), (.route a, ta)] results w) ∧
      ∀ results w results' w', y.PerformsAll [(.route a, ta), (.route b, tb)] results w →
        y.PerformsAll [(.route b, tb), (.route a, ta)] results' w' →
        results = [.command (.ok (.route .set)), .command (.ok (.route .set))] ∧
          results' = [.command (.ok (.route .set)), .command (.ok (.route .set))] ∧
          (∀ key, w.positions.get? key = w'.positions.get? key) ∧
          ∃ resolvedA resolvedB,
            w.active.routes = y.active.routes ++ [resolvedA, resolvedB] ∧
            w'.active.routes = y.active.routes ++ [resolvedB, resolvedA] := by
  refine ⟨exists_performsAll (by simp [hta, htb]), exists_performsAll (by simp [hta, htb]), ?_⟩
  intro results w results' w' hrun hrun'
  obtain ⟨u, hu⟩ := ha
  obtain ⟨v, hv⟩ := hb
  obtain ⟨routeA, resolvedA, framesA, ha⟩ := admits_of_performs haset hu
  obtain ⟨routeB, resolvedB, framesB, hb⟩ := admits_of_performs hbset hv
  have hne' : b.sameEnds a = false := by
    rw [← Bool.not_eq_true] at hne ⊢
    exact mt RouteCommand.sameEnds_symm hne
  have hapart := hapart routeA routeB ha.expanded hb.expanded
  have hapart' := RouteCommand.conflicts_eq_false_comm.1 hapart
  obtain ⟨rfl, z, hz, hbz, hw⟩ := setsTo_of_performsAll haset hbset hne hapart ha hb hrun
  obtain ⟨rfl, z', hz', -, hw'⟩ := setsTo_of_performsAll hbset haset hne' hapart' hb ha hrun'
  obtain ⟨hactive, hget⟩ := hz.then_sets hw
  obtain ⟨hactive', hget'⟩ := hz'.then_sets hw'
  refine ⟨rfl, rfl, fun key ↦ ?_, resolvedA, resolvedB, hactive, hactive'⟩
  rw [hget, hget']
  have hagree (p q : Position) : resolvedA.recorded? y.layout key = some p →
      resolvedB.recorded? y.layout key = some q → p = q := recorded?_eq_of_admits hbz hz
  cases hp : resolvedA.recorded? y.layout key with
  | none => rfl
  | some p =>
    cases hq : resolvedB.recorded? y.layout key with
    | none => rfl
    | some q => exact congrArg some (hagree p q hp hq).symm

/-- Two routes share a point of two sub-points, of which the second one names only the first. -/
theorem set_in_either_order_of_shared_point :
    let y := Yard.start (.junction [.linked "27a" [12] [13] 100, .linked "27b" [14] [15] 100,
      .linked "28" [16] [17] 0]) 100 64 .none
    let a : RouteCommand :=
      { RouteCommand.plain 64 72 .setMain with points := [.plain 27 .straight] }
    let b : RouteCommand :=
      { RouteCommand.plain 60 80 .setShunting with
        points := [(PointCommand.plain 27 .straight).withSubPoint 'a', .plain 28 .diverging] }
    (∃ results w, y.PerformsAll [(.route a, .on 0), (.route b, .never)] results w) ∧
      (∃ results w, y.PerformsAll [(.route b, .never), (.route a, .on 0)] results w) ∧
      ∀ results w results' w', y.PerformsAll [(.route a, .on 0), (.route b, .never)] results w →
        y.PerformsAll [(.route b, .never), (.route a, .on 0)] results' w' →
        results = [.command (.ok (.route .set)), .command (.ok (.route .set))] ∧
          results' = [.command (.ok (.route .set)), .command (.ok (.route .set))] ∧
          (∀ key, w.positions.get? key = w'.positions.get? key) ∧
          ∃ resolvedA resolvedB,
            w.active.routes = y.active.routes ++ [resolvedA, resolvedB] ∧
            w'.active.routes = y.active.routes ++ [resolvedB, resolvedA] := by
  intro y a b
  have hsound (token : Token) : y.Sound token := ⟨by cases token <;> rfl, rfl, nofun⟩
  have hplain : y.withPoints a = .ok a ∧ y.withPoints b = .ok b := by decide +kernel
  have ha : y.Admits a a
      { a with points := [{ PointCommand.plain 27 .straight with
        lockOffset := some 100, addresses := [12, 14] }] }
      [.ofMagnitude .set 12 .closed, .ofMagnitude .set 14 .closed, .ofMagnitude .lock 112 .closed,
        .ofMagnitude .lock 114 .closed] :=
    ⟨hplain.1, by decide +kernel, by decide +kernel, by decide +kernel⟩
  have hb : y.Admits b b
      { b with points := [{ (PointCommand.plain 27 .straight).withSubPoint 'a' with
        lockOffset := some 100, addresses := [12] },
        { PointCommand.plain 28 .diverging with addresses := [17] }] }
      [.ofMagnitude .set 12 .closed, .ofMagnitude .set 17 .thrown,
        .ofMagnitude .lock 112 .closed] :=
    ⟨hplain.2, by decide +kernel, by decide +kernel, by decide +kernel⟩
  refine set_in_either_order rfl rfl (by decide) (fun routeA routeB hA hB ↦ ?_)
    (exists_performs_of_admits rfl ha (hsound _)) (exists_performs_of_admits rfl hb (hsound _))
    (hsound _) (hsound _)
  obtain rfl := Except.ok.inj (hplain.1.symm.trans hA)
  obtain rfl := Except.ok.inj (hplain.2.symm.trans hB)
  decide

end Yard

end SignalBox
