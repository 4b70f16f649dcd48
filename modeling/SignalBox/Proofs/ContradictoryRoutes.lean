import SignalBox.Proofs.Admission

/-!
# Routes that contradict themselves

A route may ask for a point in two positions, if two of its legs do or if it names a point and one
of its sub-points. It is compared with the active routes and never with itself, so it is admitted
and set, and only the last of the positions can be the recorded one. The main statement
(`Yard.recordsPoints_iff`) is that after a route has been set, all of its points are recorded as it
asks if and only if it does not contradict itself.

* **What is recorded** for a sub-point is the position of the last point that covers it
  (`Yard.SetsTo.get?_eq`). This is the position of each of them exactly if they agree
  (`RouteCommand.not_contradicts_iff`).
* **Resolution** does not matter for this: it keeps what the points cover
  (`RouteCommand.contradicts_resolvedRoute`).
-/

namespace SignalBox

namespace RouteCommand

variable {layout : Layout} {r : RouteCommand}

/-- Two points of a route have different positions and cover one sub-point. -/
def Contradicts (layout : Layout) (r : RouteCommand) : Prop :=
  ∃ p ∈ r.points, ∃ q ∈ r.points,
    p.isUndefined = false ∧ q.isUndefined = false ∧ p.position ≠ q.position ∧
      ∃ key ∈ Positions.keysOf layout p, key ∈ Positions.keysOf layout q

instance (layout : Layout) (r : RouteCommand) : Decidable (r.Contradicts layout) :=
  inferInstanceAs (Decidable (∃ p ∈ r.points, ∃ q ∈ r.points, _ ∧ _ ∧ _ ∧ _))

/-- **A route agrees with itself** if each of its points is in the position that is recorded for the
sub-points it covers. -/
theorem not_contradicts_iff :
    ¬ r.Contradicts layout ↔
      ∀ p ∈ r.points, ∀ key, p.covers layout key = true →
        r.recorded? layout key = some p.position := by
  constructor
  · intro hagree p hp key hcovers
    cases hlatest : latest? (PointCommand.covers layout key) r.points with
    | none => exact absurd hcovers (by simp [latest?_eq_none_iff.1 hlatest p hp])
    | some q =>
      obtain ⟨hq, hcovers'⟩ := of_latest?_eq_some hlatest
      obtain ⟨hdefined, hkey⟩ := PointCommand.covers_iff.1 hcovers
      obtain ⟨hdefined', hkey'⟩ := PointCommand.covers_iff.1 hcovers'
      rw [recorded?, hlatest, Option.map_some]
      by_contra hne
      exact hagree ⟨p, hp, q, hq, hdefined, hdefined', fun he ↦ hne (congrArg some he.symm), key,
        hkey, hkey'⟩
  · rintro h ⟨p, hp, q, hq, hdefined, hdefined', hne, key, hkey, hkey'⟩
    have hrecorded := h p hp key (PointCommand.covers_iff.2 ⟨hdefined, hkey⟩)
    have hrecorded' := h q hq key (PointCommand.covers_iff.2 ⟨hdefined', hkey'⟩)
    exact hne (Option.some.inj (hrecorded.symm.trans hrecorded'))

/-- **Resolution** does not change whether a route contradicts itself. -/
theorem contradicts_resolvedRoute :
    (layout.resolvedRoute r).Contradicts layout ↔ r.Contradicts layout := by
  rw [← not_iff_not, not_contradicts_iff, not_contradicts_iff]
  simp only [Layout.recorded?_resolvedRoute]
  simp only [Layout.resolvedRoute, List.forall_mem_map, Layout.covers_resolvedPoint,
    (layout.sameRequest_resolvedPoint _).position]

end RouteCommand

namespace Yard

variable {y w : Yard} {token : Token} {request : RouteCommand}

/-- All points of a route that have a position are recorded in it, for each sub-point they cover. -/
def RecordsPoints (y : Yard) (r : RouteCommand) : Prop :=
  ∀ p ∈ r.points, p.isUndefined = false → ∀ key ∈ Positions.keysOf y.layout p,
    y.positions.get? key = some p.position

/-- A route that has been set is recorded if it does not contradict itself. -/
theorem SetsTo.recordsPoints_iff_not_contradicts {resolved : RouteCommand}
    (h : y.SetsTo resolved w) :
    w.RecordsPoints resolved ↔ ¬ resolved.Contradicts y.layout := by
  rw [RouteCommand.not_contradicts_iff, RecordsPoints, show w.layout = y.layout by
    rw [layout, h.plan_eq, layout]]
  refine forall₂_congr fun p hp ↦ ?_
  -- a point that covers a key has a record of its own route for it
  have hrecorded (key : PointKey) (hcovers : p.covers y.layout key = true) :
      w.positions.get? key = resolved.recorded? y.layout key := by
    obtain ⟨q, hq⟩ := Option.isSome_iff_exists.1 <| Option.isSome_iff_ne_none.2 fun hnone ↦
      Bool.false_ne_true ((latest?_eq_none_iff.1 hnone p hp).symm.trans hcovers)
    rw [h.get?_eq, RouteCommand.recorded?, hq]
    rfl
  constructor
  · intro hall key hcovers
    obtain ⟨hdefined, hkey⟩ := PointCommand.covers_iff.1 hcovers
    rw [← hrecorded key hcovers]
    exact hall hdefined key hkey
  · intro hall hdefined key hkey
    have hcovers := PointCommand.covers_iff.2 ⟨hdefined, hkey⟩
    rw [hrecorded key hcovers]
    exact hall key hcovers

/-- **Routes that are set.** Let a request have the yard to itself and set its route. The route is
the last active one, a sub-point has the position that the last of its points asks for, and one that
no point covers is where it was. All points are as the route asks if and only if the points of the
request, or of its legs, do not contradict each other. -/
theorem recordsPoints_iff (hset : request.state.isSet = true)
    (h : Task.Completes y (.pending (.command (.route request) token))
      (.command (.ok (.route .set))) w) :
    ∃ resolved, y.layout.resolvedRoute (y.layout.routeOf request) = resolved ∧
      w.active.routes = y.active.routes ++ [resolved] ∧
      (∀ key, w.positions.get? key =
        (resolved.recorded? y.layout key).or (y.positions.get? key)) ∧
      (w.RecordsPoints resolved ↔ ¬ (y.layout.routeOf request).Contradicts y.layout) := by
  obtain ⟨route, resolved, frames, hadmits, hw⟩ := exists_setsTo_of_completes hset h
  obtain ⟨-, rfl, rfl, -⟩ := (admits_iff hset).1 hadmits
  refine ⟨_, rfl, ?_, hw.get?_eq, ?_⟩
  · rw [hw.active_eq, Reservations.insert]
  · rw [hw.recordsPoints_iff_not_contradicts, RouteCommand.contradicts_resolvedRoute]

/-- A junction with two legs, from 64 to 60 and from 60 to 72, that need a point each. -/
def twoLegs (points : List PointDefinition) (first second : RoutePoint) : Layout :=
  { Layout.junction points with routes := [⟨64, 60, [first]⟩, ⟨60, 72, [second]⟩] }

/-- The request for both legs. -/
def overBothLegs : RouteCommand :=
  { RouteCommand.plain 64 72 .setMain with via := [60] }

/-- The legs need the sub-points of one point, in different positions. -/
theorem recordsPoints_iff_of_letters :
    let y := Yard.start (twoLegs [.linked "27a" [12] [13] 0, .linked "27b" [14] [15] 0]
      ⟨"27a", .straight, false⟩ ⟨"27b", .diverging, false⟩) 0 64 .none
    ∃ w resolved, Task.Completes y (.pending (.command (.route overBothLegs) .never))
        (.command (.ok (.route .set))) w ∧
      w.active.routes = [resolved] ∧ w.RecordsPoints resolved := by
  intro y
  have hset : Task.Completes y (.pending (.command (.route overBothLegs) .never))
      (.command (.ok (.route .set))) _ :=
    Traffic.completes_of_run
      (show (Traffic.run ⟨y, [.pending _]⟩ (List.replicate 7 (.go 0))).tasks = [Task.ended _ 0] by
        decide +kernel)
  obtain ⟨resolved, -, hactive, -, hrecords⟩ := recordsPoints_iff rfl hset
  exact ⟨_, resolved, hset, hactive, hrecords.2 (by decide +kernel)⟩

/-- The legs need one point in different positions, and the route is set all the same. -/
theorem not_recordsPoints_of_opposed_legs :
    let y := Yard.start (twoLegs [.linked "27" [12] [13] 0] ⟨"27", .straight, false⟩
      ⟨"27", .diverging, false⟩) 0 64 .none
    ∃ w resolved point, Task.Completes y (.pending (.command (.route overBothLegs) .never))
        (.command (.ok (.route .set))) w ∧
      w.active.routes = [resolved] ∧ point ∈ resolved.points ∧ point.number = 27 ∧
      point.position = .straight ∧ w.positions.get? ⟨27, none⟩ = some .diverging ∧
      ¬ w.RecordsPoints resolved := by
  intro y
  let after := Traffic.run ⟨y, [.pending (.command (.route overBothLegs) .never)]⟩
    (List.replicate 7 (.go 0))
  let straight := { PointCommand.plain 27 .straight with addresses := [12] }
  let diverging := { PointCommand.plain 27 .diverging with addresses := [13] }
  have hset : Task.Completes y (.pending (.command (.route overBothLegs) .never))
      (.command (.ok (.route .set))) after.yard :=
    Traffic.completes_of_run (show after.tasks = [Task.ended _ 0] by decide +kernel)
  have hkey : (⟨27, none⟩ : PointKey) ∈ Positions.keysOf after.yard.layout straight := by
    decide +kernel
  have hget : after.yard.positions.get? ⟨27, none⟩ = some .diverging := by decide +kernel
  refine ⟨after.yard, { overBothLegs with points := [straight, diverging] }, straight, hset,
    by decide +kernel, List.mem_cons_self, rfl, rfl, hget, fun hrecords ↦ ?_⟩
  cases hget.symm.trans (hrecords straight List.mem_cons_self rfl _ hkey)

end Yard

end SignalBox
