import SignalBox.Proofs.FrameEncoding
import SignalBox.Proofs.IndependentRoutes

/-!
# Which routes are set

A request to set a route passes checks in several places, some on the route as it is asked for, some
on its points with their addresses. The main statement (`Yard.set_iff_accepts`) is that a request
that nothing disturbs sets its route if and only if all conditions of `Yard.Accepts` hold, and which
frames are sent then.

Each of the computations that may fail has its result known in advance: it succeeds exactly under
some condition, and then there is one result it can have. Of such computations over a list the same
can be said (`forall₂_iff_map`), so each stage of the request has one lemma:

* **Legs** give a request its points if all of them are defined
  (`Layout.legPoints_eq_ok_iff`).
* **Resolution** finds the definitions of the points with a position
  (`Layout.resolveRoute_eq_ok_iff_known`).
* **Frames** are there if all addresses are on the bus
  (`RouteCommand.setFrames_eq_ok_iff_fitsBus`).
-/

namespace SignalBox

/-- Where each member of a list has at most one partner, and one exactly under a condition. -/
theorem forall₂_iff_map {α β : Type} {R : α → β → Prop} {possible : α → Prop} {g : α → β}
    (h : ∀ a b, R a b ↔ possible a ∧ g a = b) {as : List α} {bs : List β} :
    List.Forall₂ R as bs ↔ (∀ a ∈ as, possible a) ∧ as.map g = bs := by
  have hR : R = fun a b ↦ possible a ∧ g a = b := funext₂ fun a b ↦ propext (h a b)
  rw [hR, List.forall₂_and_left]
  refine and_congr_right fun _ ↦ ?_
  rw [← List.forall₂_eq_eq_eq, List.forall₂_map_left_iff]

/-! ### The points of legs -/

namespace Layout

variable {l : Layout}

/-- A leg of a route is defined. -/
def DefinesLeg (l : Layout) (leg : UInt32 × UInt32) : Prop :=
  ∃ d ∈ l.routes, d.start = leg.1 ∧ d.destination = leg.2

/-- The points that a leg needs; none if it is not defined. -/
def pointsOfLeg (l : Layout) (leg : UInt32 × UInt32) : List PointCommand :=
  ((l.route? leg.1 leg.2).map fun d ↦ d.points.map RoutePoint.command).getD []

/-- The points that a chain of signals needs, in the order of its legs and each of them once. -/
def pointsAlong (l : Layout) (chain : List UInt32) : List PointCommand :=
  joinPoints [] ((legs chain).flatMap l.pointsOfLeg)

/-- A request with a start and without points has the points of its legs. -/
def routeOf (l : Layout) (request : RouteCommand) : RouteCommand :=
  if request.points = [] ∧ request.start ≠ 0 then
    { request with points := l.pointsAlong request.signalChain }
  else request

theorem definesLeg_iff {leg : UInt32 × UInt32} :
    l.DefinesLeg leg ↔ ∃ d, l.route? leg.1 leg.2 = some d := by
  rw [← Option.isSome_iff_exists, route?, List.find?_isSome]
  simp [DefinesLeg]

theorem joinPoints_append (known first second : List PointCommand) :
    joinPoints known (first ++ second) = joinPoints (joinPoints known first) second :=
  List.foldl_append

/-- **Legs** give their points if all of them are defined. -/
theorem legPoints_eq_ok_iff {known points : List PointCommand} {legs : List (UInt32 × UInt32)} :
    l.legPoints known legs = .ok points ↔
      (∀ leg ∈ legs, l.DefinesLeg leg) ∧
        joinPoints known (legs.flatMap l.pointsOfLeg) = points := by
  induction legs generalizing known with
  | nil => simp [legPoints, joinPoints]
  | cons leg rest ih =>
    rw [legPoints, List.forall_mem_cons, definesLeg_iff, List.flatMap_cons, joinPoints_append,
      pointsOfLeg]
    split
    next hnone => simp [hnone]
    next d hd => simp [hd, ih]

end Layout

/-! ### Points with their addresses -/

namespace Layout

variable {l : Layout} {c r : PointCommand}

/-- A definition has the number of a command, and its letter if it names one. -/
def Knows (l : Layout) (c : PointCommand) : Prop :=
  ∃ d ∈ l.points, d.number = c.number ∧ (c.subPoint = none ∨ d.subPoint = c.subPoint)

instance (l : Layout) (c : PointCommand) : Decidable (l.Knows c) :=
  inferInstanceAs (Decidable (∃ d ∈ l.points, _ ∧ _))

/-- A point with the addresses and the lock of all definitions that it means; a point without a
position stays as it is. -/
def resolvedPoint (l : Layout) (c : PointCommand) : PointCommand :=
  if c.isUndefined then c else (l.points.filter (means c)).foldl absorb c

/-- A route whose points have their addresses. -/
def resolvedRoute (l : Layout) (route : RouteCommand) : RouteCommand :=
  { route with points := route.points.map l.resolvedPoint }

theorem knows_iff : l.Knows c ↔ l.points.filter (means c) ≠ [] := by
  simp [Knows, means, List.filter_eq_nil_iff, or_iff_not_imp_left]

theorem knows_iff_exists_resolvePoint? : l.Knows c ↔ ∃ r, l.resolvePoint? c = some r := by
  simp only [knows_iff, resolvePoint?_eq_some_iff, exists_and_left, exists_eq', and_true]

theorem resolves_iff_knows (l : Layout) (c r : PointCommand) :
    l.Resolves c r ↔ (c.position ≠ .undefined → l.Knows c) ∧ l.resolvedPoint c = r := by
  rw [Resolves, resolvedPoint, resolvePoint?_eq_some_iff, ← knows_iff]
  cases hdefined : c.isUndefined with
  | true =>
    have hposition := PointCommand.isUndefined_iff.1 hdefined
    simp [hposition, eq_comm]
  | false =>
    have hposition := PointCommand.isUndefined_eq_false_iff.1 hdefined
    simp [hposition]

/-- **Resolution** succeeds if all points with a position are known. -/
theorem resolveRoute_eq_ok_iff_known {route resolved : RouteCommand} :
    l.resolveRoute route = .ok resolved ↔
      (∀ p ∈ route.points, p.position ≠ .undefined → l.Knows p) ∧
        l.resolvedRoute route = resolved := by
  rw [resolveRoute_eq_ok_iff]
  constructor
  · rintro ⟨points, hpoints, rfl⟩
    obtain ⟨hknown, rfl⟩ := (forall₂_iff_map l.resolves_iff_knows).1 hpoints
    exact ⟨hknown, rfl⟩
  · rintro ⟨hknown, rfl⟩
    exact ⟨_, (forall₂_iff_map l.resolves_iff_knows).2 ⟨hknown, rfl⟩, rfl⟩

theorem sameRequest_resolvedPoint (l : Layout) (c : PointCommand) :
    (l.resolvedPoint c).SameRequest c := by
  rw [resolvedPoint]
  split
  · exact .refl c
  · exact foldl_absorb_sameRequest _ c

theorem covers_resolvedPoint (l : Layout) (key : PointKey) (c : PointCommand) :
    (l.resolvedPoint c).covers l key = c.covers l key := by
  have hsame := l.sameRequest_resolvedPoint c
  rw [PointCommand.covers, PointCommand.covers, hsame.isUndefined_eq, keysOf_of_sameRequest hsame]

/-- **Resolution** does not change what a route records. -/
theorem recorded?_resolvedRoute (l : Layout) (r : RouteCommand) (key : PointKey) :
    (l.resolvedRoute r).recorded? l key = r.recorded? l key := by
  have hcovers : PointCommand.covers l key ∘ l.resolvedPoint = PointCommand.covers l key :=
    funext (l.covers_resolvedPoint key)
  rw [RouteCommand.recorded?, RouteCommand.recorded?, resolvedRoute, latest?_map, hcovers,
    Option.map_map]
  exact congrArg (Option.map · _) (funext fun c ↦ (l.sameRequest_resolvedPoint c).position)

end Layout

/-! ### Frames -/

namespace PointCommand

/-- The addresses of a point that is to be moved, and those of its locks, are on the bus. -/
structure FitsBus (c : PointCommand) : Prop where
  moves : c.position ≠ .undefined → ∀ a ∈ c.addresses, OnBus a.toInt.natAbs
  locks : ∀ offset, c.lockOffset = some offset → ∀ a ∈ c.addresses,
    OnBus (a.toInt.natAbs + offset.toNat)

/-- The frames that move a point, if its addresses are on the bus. -/
def moveFrames (c : PointCommand) : List Frame :=
  if c.isUndefined then []
  else c.addresses.map fun a ↦
    .ofMagnitude .set a.toInt.natAbs (WirePosition.ofPosition (c.position.forAddress a))

/-- The frames that engage the locks of a point, if these are on the bus. -/
def lockingFrames (c : PointCommand) : List Frame :=
  match c.lockOffset with
  | some offset => c.addresses.map fun a ↦
    .ofMagnitude .lock (a.toInt.natAbs + offset.toNat) .closed
  | none => []

theorem setFrames_eq_ok_iff_onBus (c : PointCommand) (frames : List Frame) :
    c.setFrames = .ok frames ↔
      (c.position ≠ .undefined → ∀ a ∈ c.addresses, OnBus a.toInt.natAbs) ∧
        c.moveFrames = frames := by
  rw [setFrames, moveFrames]
  cases hdefined : c.isUndefined with
  | true =>
    have hposition := isUndefined_iff.1 hdefined
    simp [hposition]
  | false =>
    have hposition := isUndefined_eq_false_iff.1 hdefined
    simp only [Bool.false_eq_true, if_false, mapM_eq_ok_iff]
    rw [imp_iff_right hposition]
    exact forall₂_iff_map fun a f ↦ Frame.encode_eq_ok_iff .set a.toInt _ f

theorem encode_lockAddress_eq_ok_iff (kind : FrameKind) (position : WirePosition)
    (offset : UInt32) (a : Int32) (f : Frame) :
    Frame.encode kind (lockAddress offset a).toInt position = .ok f ↔
      OnBus (a.toInt.natAbs + offset.toNat) ∧
        Frame.ofMagnitude kind (a.toInt.natAbs + offset.toNat) position = f := by
  rw [Frame.encode_eq_ok_iff, ← onBus_lockAddress_iff]
  exact and_congr_right fun hbus ↦ by rw [natAbs_lockAddress offset hbus]

theorem lockFrames_eq_ok_iff_onBus (c : PointCommand) (frames : List Frame) :
    c.lockFrames = .ok frames ↔
      (∀ offset, c.lockOffset = some offset → ∀ a ∈ c.addresses,
        OnBus (a.toInt.natAbs + offset.toNat)) ∧ c.lockingFrames = frames := by
  rw [lockFrames, lockAddresses, lockingFrames]
  cases hoffset : c.lockOffset with
  | none =>
    constructor
    · intro h
      exact ⟨by simp, Except.ok.inj h⟩
    · rintro ⟨-, rfl⟩
      rfl
  | some offset =>
    dsimp only
    rw [List.mapM_map, mapM_eq_ok_iff]
    refine (forall₂_iff_map (encode_lockAddress_eq_ok_iff .lock .closed offset)).trans ?_
    simp

end PointCommand

/-- The frames of a route whose addresses are on the bus: all points are moved in order, then all
locks are engaged in order. -/
def RouteCommand.settingFrames (r : RouteCommand) : List Frame :=
  r.points.flatMap PointCommand.moveFrames ++ r.points.flatMap PointCommand.lockingFrames

/-- **Frames** of a route are there if all its addresses are on the bus. -/
theorem RouteCommand.setFrames_eq_ok_iff_fitsBus {r : RouteCommand} {frames : List Frame} :
    r.setFrames = .ok frames ↔ (∀ p ∈ r.points, p.FitsBus) ∧ r.settingFrames = frames := by
  rw [setFrames_eq_ok_iff, settingFrames, List.flatMap_def, List.flatMap_def]
  constructor
  · rintro ⟨moves, locks, hmoves, hlocks, rfl⟩
    obtain ⟨hmoved, rfl⟩ :=
      (forall₂_iff_map PointCommand.setFrames_eq_ok_iff_onBus).1 hmoves
    obtain ⟨hlocked, rfl⟩ :=
      (forall₂_iff_map PointCommand.lockFrames_eq_ok_iff_onBus).1 hlocks
    exact ⟨fun p hp ↦ ⟨hmoved p hp, hlocked p hp⟩, rfl⟩
  · rintro ⟨hfits, rfl⟩
    exact ⟨_, _,
      (forall₂_iff_map PointCommand.setFrames_eq_ok_iff_onBus).2
        ⟨fun p hp ↦ (hfits p hp).moves, rfl⟩,
      (forall₂_iff_map PointCommand.lockFrames_eq_ok_iff_onBus).2
        ⟨fun p hp ↦ (hfits p hp).locks, rfl⟩, rfl⟩

namespace Yard

variable {y w : Yard} {token : Token} {request route resolved : RouteCommand} {frames : List Frame}
  {result : JobResult}

/-! ### Admission -/

/-- What a request to set a route has to meet. -/
structure Accepts (y : Yard) (request : RouteCommand) : Prop where
  /-- If the request has a start and no points, its legs are defined. -/
  legs : request.points = [] → request.start ≠ 0 →
    ∀ leg ∈ Layout.legs request.signalChain, y.layout.DefinesLeg leg
  /-- Its route has its signals and a point with a position. -/
  complete : request.start ≠ 0 ∧ request.destination ≠ 0 ∧
    ∃ p ∈ (y.layout.routeOf request).points, p.position ≠ .undefined
  /-- No active route has its end signals. -/
  inactive : ∀ r ∈ y.active.routes,
    ¬ (r.start = request.start ∧ r.destination = request.destination)
  /-- No active route has one of its points in another position. -/
  apart : ∀ r ∈ y.active.routes, ∀ q ∈ r.points, ∀ p ∈ (y.layout.routeOf request).points,
    q.number = p.number → q.position = p.position
  /-- Its signals and the points it runs over are in the layout. -/
  fits : (LayoutIndex.ofLayout y.layout).violation? (y.layout.routeOf request) = none
  /-- Its points with a position are defined. -/
  known : ∀ p ∈ (y.layout.routeOf request).points, p.position ≠ .undefined → y.layout.Knows p
  /-- The addresses of its points and locks are on the bus. -/
  fitsBus : ∀ p ∈ (y.layout.resolvedRoute (y.layout.routeOf request)).points, p.FitsBus

theorem withPoints_eq_ok_iff :
    y.withPoints request = .ok route ↔
      (request.points = [] → request.start ≠ 0 →
        ∀ leg ∈ Layout.legs request.signalChain, y.layout.DefinesLeg leg) ∧
        y.layout.routeOf request = route := by
  rw [withPoints, Layout.routeOf, ← and_imp]
  by_cases hlegs : request.points = [] ∧ request.start ≠ 0
  · rw [if_pos (by simpa using hlegs), if_pos hlegs, imp_iff_right hlegs, Layout.expandRoute,
      map_eq_ok_iff]
    simp only [Layout.legPoints_eq_ok_iff, and_assoc, exists_and_left, exists_eq_left',
      Layout.pointsAlong]
  · rw [if_neg (by simpa using hlegs), if_neg hlegs]
    exact ⟨fun h ↦ ⟨fun hcase ↦ absurd hcase hlegs, Except.ok.inj h⟩,
      fun h ↦ congrArg Except.ok h.2⟩

theorem obstacle?_eq_none_iff (hset : route.state.isSet = true) :
    y.obstacle? route = none ↔
      (route.start ≠ 0 ∧ route.destination ≠ 0 ∧ ∃ p ∈ route.points, p.position ≠ .undefined) ∧
        (∀ r ∈ y.active.routes,
          ¬ (r.start = route.start ∧ r.destination = route.destination)) ∧
        (∀ r ∈ y.active.routes, ∀ q ∈ r.points, ∀ p ∈ route.points,
          q.number = p.number → q.position = p.position) ∧
        (LayoutIndex.ofLayout y.layout).violation? route = none := by
  rw [← RouteCommand.isUndefined_eq_false_iff hset, ← Reservations.contains_eq_false_iff,
    show LayoutIndex.ofLayout y.layout = y.plan.index from y.plan.index_eq.symm]
  have hconflict : y.active.conflict? route = none ↔ ∀ r ∈ y.active.routes, ∀ q ∈ r.points,
      ∀ p ∈ route.points, q.number = p.number → q.position = p.position := by
    simp only [Reservations.conflict?_eq_none_iff, RouteCommand.conflictingPoint_eq_none_iff]
    exact forall₂_congr fun r _ ↦ ⟨fun h q hq p hp ↦ h p hp q hq, fun h p hp q hq ↦ h q hq p hp⟩
  rw [← hconflict]
  exact ⟨of_obstacle?_eq_none, fun ⟨hdefined, hcontains, hnone, hfits⟩ ↦
    obstacle?_eq_none hdefined hcontains hnone hfits⟩

/-- **A request is admitted** if it is acceptable, and then its route and its frames are known. -/
theorem admits_iff (hset : request.state.isSet = true) :
    y.Admits request route resolved frames ↔
      y.Accepts request ∧ y.layout.routeOf request = route ∧
        y.layout.resolvedRoute route = resolved ∧ resolved.settingFrames = frames := by
  have hroute : y.layout.routeOf request =
      { request with points := (y.layout.routeOf request).points } := by
    rw [Layout.routeOf]
    split <;> rfl
  have hset' : (y.layout.routeOf request).state.isSet = true := by rwa [hroute]
  have hfree := obstacle?_eq_none_iff (y := y) hset'
  rw [show (y.layout.routeOf request).start = request.start by rw [hroute],
    show (y.layout.routeOf request).destination = request.destination by rw [hroute]] at hfree
  constructor
  · rintro ⟨hexpanded, hnone, hresolves, hencoded⟩
    obtain ⟨hlegs, rfl⟩ := withPoints_eq_ok_iff.1 hexpanded
    obtain ⟨hknown, rfl⟩ := Layout.resolveRoute_eq_ok_iff_known.1 hresolves
    obtain ⟨hfitsBus, rfl⟩ := RouteCommand.setFrames_eq_ok_iff_fitsBus.1 hencoded
    obtain ⟨hcomplete, hinactive, hapart, hfits⟩ := hfree.1 hnone
    exact ⟨⟨hlegs, hcomplete, hinactive, hapart, hfits, hknown, hfitsBus⟩, rfl, rfl, rfl⟩
  · rintro ⟨⟨hlegs, hcomplete, hinactive, hapart, hfits, hknown, hfitsBus⟩, rfl, rfl, rfl⟩
    exact
      { expanded := withPoints_eq_ok_iff.2 ⟨hlegs, rfl⟩
        free := hfree.2 ⟨hcomplete, hinactive, hapart, hfits⟩
        resolves := Layout.resolveRoute_eq_ok_iff_known.2 ⟨hknown, rfl⟩
        encoded := RouteCommand.setFrames_eq_ok_iff_fitsBus.2 ⟨hfitsBus, rfl⟩ }

end Yard

end SignalBox
