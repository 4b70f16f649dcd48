import Mathlib.Data.List.Induction
import SignalBox.Proofs.EngagedLocks
import SignalBox.Proofs.Interlocking
import SignalBox.Proofs.SubPoints

/-!
# Recorded positions of active routes

The record has the points of the active routes where these want them. The main statement
(`get?_of_active`) says so in every state of a sequential run, whatever calls have failed: for each
sub-point of an active route, the recorded position is that of the last of the route's points that
covers the sub-point.

* **A route that is set** is recorded point after point, so the last point that covers a key counts
  (`get?_recordPoints`).
* **Other routes** that have a point of the same number want it in the same position, because the
  new one has been admitted beside them (`Yard.Admits.agrees`).
* **A point that is moved** is held by no route, so its keys are those of none.
* **All other calls** leave the record as it is. A failed call records nothing, and its route does
  not stay.
-/

namespace SignalBox

/-- A point command has a position and covers a key. -/
def PointCommand.covers (layout : Layout) (key : PointKey) (c : PointCommand) : Bool :=
  !c.isUndefined && (Positions.keysOf layout c).contains key

section

variable {layout : Layout} {key : PointKey} {c : PointCommand} {points : List PointCommand}

theorem PointCommand.covers_iff :
    c.covers layout key = true ↔ c.isUndefined = false ∧ key ∈ Positions.keysOf layout c := by
  simp [covers]

/-- A key has the number of the commands that cover it. -/
theorem Positions.number_of_mem_keysOf (h : key ∈ keysOf layout c) : key.number = c.number := by
  obtain ⟨letter, -, rfl⟩ := List.mem_map.1 h
  rfl

/-- **Records of several points**, one after another: the last one that covers a key counts. -/
theorem Positions.get?_recordPoints {p : Positions} :
    ((points.filter fun c ↦ !c.isUndefined).foldl (Yard.recordPoint layout) p).get? key =
      ((latest? (PointCommand.covers layout key) points).map (·.position)).or (p.get? key) := by
  induction points using List.reverseRecOn with
  | nil => rfl
  | append_singleton points c ih =>
    rw [List.filter_append, List.foldl_append]
    cases hcovers : c.covers layout key with
    | true =>
      obtain ⟨hdefined, hkey⟩ := PointCommand.covers_iff.1 hcovers
      have hlatest : latest? (PointCommand.covers layout key) [c] = some c := by
        simp [latest?, hcovers]
      rw [latest?_append, hlatest, List.filter_cons_of_pos (by simp [hdefined])]
      show (Yard.recordPoint layout _ c).get? key = _
      rw [Yard.recordPoint, get?_recordAll, if_pos hkey]
      rfl
    | false =>
      rw [latest?_append_of_forall (by simpa using hcovers), ← ih]
      cases hdefined : c.isUndefined with
      | true => rw [List.filter_cons_of_neg (by simp [hdefined])]; rfl
      | false =>
        have hkey : key ∉ keysOf layout c := fun hkey ↦
          Bool.false_ne_true (hcovers.symm.trans (PointCommand.covers_iff.2 ⟨hdefined, hkey⟩))
        rw [List.filter_cons_of_pos (by simp [hdefined])]
        show (Yard.recordPoint layout _ c).get? key = _
        rw [Yard.recordPoint, get?_recordAll, if_neg hkey]

end

/-! ### One call -/

namespace Yard

variable {y w : Yard} {job : Job} {sent : List AcceptedFrame} {result : JobResult}

/-- Each key that points of an active route cover is recorded in the position of the last of them.
-/
def RecordsRoutes (y : Yard) : Prop :=
  ∀ r ∈ y.active.routes, ∀ key c, latest? (PointCommand.covers y.layout key) r.points = some c →
    y.positions.get? key = some c.position

/-- Where nothing is recorded and no route comes, the active routes stay recorded. -/
theorem RecordsRoutes.of_subset (h : y.RecordsRoutes) (hplan : w.plan = y.plan)
    (hpositions : w.positions = y.positions)
    (hactive : ∀ r ∈ w.active.routes, r ∈ y.active.routes) : w.RecordsRoutes := by
  intro r hr key c hc
  rw [layout, hplan] at hc
  rw [hpositions]
  exact h r (hactive r hr) key c hc

/-- **A point that is moved** has no key of a point that a route holds. -/
theorem Moves.not_mem_keysOf {c point held : PointCommand} {frames : List Frame}
    (h : y.Moves c point frames) {r : RouteCommand} (hr : r ∈ y.active.routes)
    (hheld : held ∈ r.points) {key : PointKey} (hkey : key ∈ Positions.keysOf y.layout held) :
    key ∉ Positions.keysOf y.layout c := by
  intro hmoved
  have hnumber : held.number = point.number :=
    calc held.number = key.number := (Positions.number_of_mem_keysOf hkey).symm
      _ = c.number := Positions.number_of_mem_keysOf hmoved
      _ = point.number := (Layout.sameRequest_of_resolvePoint? h.resolves).number.symm
  have hholds := Reservations.holds_iff.2 ⟨r, hr, held, hheld, hnumber⟩
  exact Bool.false_ne_true (h.free.symm.trans hholds)

/-- **A route that is set** is recorded, and agrees with the records of the others. -/
theorem Admits.recordsRoutes {request route resolved : RouteCommand} {frames : List Frame}
    (h : y.Admits request route resolved frames) (hy : y.RecordsRoutes) (hplan : w.plan = y.plan)
    (hactive : w.active = y.active.insert resolved)
    (hpositions : w.positions = y.positionsAfter (.setRoute y.layout route resolved)) :
    w.RecordsRoutes := by
  intro r hr key c hc
  rw [layout, hplan] at hc
  have hget : w.positions.get? key = ((latest? (PointCommand.covers y.layout key)
      resolved.points).map (·.position)).or (y.positions.get? key) := by
    rw [hpositions]
    exact Positions.get?_recordPoints
  rw [hget]
  rw [hactive] at hr
  rcases List.mem_append.1 hr with hr | hr
  · have hbefore : y.positions.get? key = some c.position := hy r hr key c hc
    cases hlatest : latest? (PointCommand.covers y.layout key) resolved.points with
    | none => exact hbefore
    | some d =>
      -- both routes have a point for this key, so both want it in one position
      obtain ⟨hcmem, hccovers⟩ := of_latest?_eq_some hc
      obtain ⟨hdmem, hdcovers⟩ := of_latest?_eq_some hlatest
      have hnumber : c.number = d.number :=
        (Positions.number_of_mem_keysOf (PointCommand.covers_iff.1 hccovers).2).symm.trans
          (Positions.number_of_mem_keysOf (PointCommand.covers_iff.1 hdcovers).2)
      exact congrArg some (h.agrees r hr c hcmem d hdmem hnumber).symm
  · rw [List.mem_singleton.1 hr] at hc
    rw [show latest? (PointCommand.covers y.layout key) resolved.points = some c from hc]
    rfl

/-- **One call** keeps the active routes recorded. -/
theorem Effect.recordsRoutes (h : y.Effect job sent result w) (hy : y.RecordsRoutes) :
    w.RecordsRoutes := by
  cases h with
  | idle _ _ hw | inPosition _ _ hw | shown _ _ _ hw =>
    exact hy.of_subset hw.plan_eq hw.positions_eq fun r hr ↦ hw.active_eq ▸ hr
  | released hreleases _ _ hw | stuck hreleases _ hw =>
    exact hy.of_subset hw.plan_eq hw.positions_eq fun r hr ↦
      hreleases.mem_routes_iff.2 (.inr (hw.active_eq ▸ hr))
  | failed _ hactive hw =>
    exact hy.of_subset hw.plan_eq hw.positions_eq fun r hr ↦ hactive r (hw.active_eq ▸ hr)
  | moved hmoves _ hw =>
    intro r hr key c hc
    rw [layout, hw.plan_eq] at hc
    rw [hw.active_eq] at hr
    obtain ⟨hmem, hcovers⟩ := of_latest?_eq_some hc
    rw [hw.positions_eq, Positions.get?_recordAll,
      if_neg (hmoves.not_mem_keysOf hr hmem (PointCommand.covers_iff.1 hcovers).2)]
    exact hy r hr key c hc
  | set _ hadmits _ hw => exact hadmits.recordsRoutes hy hw.plan_eq hw.active_eq hw.positions_eq

end Yard

/-! ### Sequential runs -/

namespace Turns

/-- **Recorded positions of active routes** in a sequential run: each key that points of an active
route cover is recorded in the position of the last of them. -/
theorem get?_of_active (layout : Layout) (delay capacity : Nat) (faults : BusFaults)
    {turns : List Turn} {y : Yard} (h : Turns (.start layout delay capacity faults) turns y) :
    ∀ r ∈ y.active.routes, ∀ key c,
      latest? (PointCommand.covers layout key) r.points = some c →
        y.positions.get? key = some c.position := by
  have hrecords : y.RecordsRoutes := by
    induction h with
    | nil => exact fun r hr ↦ absurd hr List.not_mem_nil
    | concat _ hturn ih => exact hturn.effect.recordsRoutes ih
  rw [← h.layout_eq]
  exact hrecords

/-- A point of two sub-points, on a link. -/
def twoSubPoints : Layout :=
  .junction [.linked "27a" [12] [13] 0, .linked "27b" [14] [15] 0]

/-- A route asks for both sub-points and then for one of them in the other position, and the point
is not moved afterwards. -/
theorem get?_of_active_twice :
    let sub (letter : Char) := (PointCommand.plain 27 .straight).withSubPoint letter
    let y := Yard.start twoSubPoints 0 64 .none
    let first := Turn.ofMoves y (routeJob 64 72 .setMain [.plain 27 .diverging, sub 'a'])
      (List.replicate 10 (.go 0)) (.command (.ok (.route .set)))
    let second := Turn.ofMoves first.after (.command (.point (sub 'b')) .never) [.go 0]
      (.command (.ok (.point .locked)))
    second.after.positions.get? ⟨27, some 'a'⟩ = some .straight ∧
      second.after.positions.get? ⟨27, some 'b'⟩ = some .diverging := by
  intro sub y first second
  have hfirst : Turns y [first] first.after :=
    Turns.nil.ofMoves rfl (show _ = [Task.ended _ 0] by decide +kernel)
  have hsecond : Turns y ([first] ++ [second]) second.after :=
    hfirst.ofMoves rfl (show _ = [Task.ended _ 0] by decide +kernel)
  obtain ⟨r, hr, ha, hb⟩ : ∃ r ∈ second.after.active.routes,
      latest? (PointCommand.covers twoSubPoints ⟨27, some 'a'⟩) r.points =
        some { sub 'a' with addresses := [12] } ∧
      latest? (PointCommand.covers twoSubPoints ⟨27, some 'b'⟩) r.points =
        some { PointCommand.plain 27 .diverging with addresses := [13, 15] } := by
    decide +kernel
  exact ⟨get?_of_active twoSubPoints 0 64 .none hsecond r hr _ _ ha,
    get?_of_active twoSubPoints 0 64 .none hsecond r hr _ _ hb⟩

end Turns

end SignalBox
