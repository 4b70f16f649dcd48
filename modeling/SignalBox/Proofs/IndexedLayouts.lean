import SignalBox.Layout.LayoutIndex

/-!
# The index against the layout

Routes are checked against two tables that are filled from a layout, definition by definition. The
main statement (`LayoutIndex.ofLayout_exact`) is that the tables make no difference: the index finds
wrong with a route what a search of the layout itself finds (`Layout.Finds`), which is told from the
fields of the two alone, and its tables give the definitions of the layout in their order.

* **The tables** take in one definition at a time (`LayoutIndex.pointDefinitions_addPoint`,
  `LayoutIndex.signalDefinitions_addSignal`); what they hold at the end follows by `get_foldl`.
* **Links** are kept with their smaller end first, and asked for in either direction
  (`TrackGraph.joins_iff`).
-/

namespace SignalBox

section Fold

variable {α β γ : Type} {step : β → α → β}

/-- What no step changes is the same after all of them. -/
theorem get_foldl_of_keeps (get : β → γ) (h : ∀ b a, get (step b a) = get b) (as : List α)
    (b : β) : get (as.foldl step b) = get b := by
  induction as generalizing b with
  | nil => rfl
  | cons a as ih => exact (ih (step b a)).trans (h b a)

/-- What each step appends of a member that passes a test has been appended in order after all of
them. -/
theorem get_foldl_map (get : β → List γ) {p : α → Bool} {f : α → γ}
    (h : ∀ b a, get (step b a) = get b ++ ([a].filter p).map f) (as : List α) (b : β) :
    get (as.foldl step b) = get b ++ (as.filter p).map f := by
  induction as generalizing b with
  | nil => simp
  | cons a as ih =>
    rw [List.foldl_cons, ih, h, List.append_assoc, ← List.map_append, ← List.filter_append,
      List.singleton_append]

/-- What each step appends, if it passes a test, has been appended in order after all of them. -/
theorem get_foldl (get : β → List α) {p : α → Bool}
    (h : ∀ b a, get (step b a) = get b ++ [a].filter p) (as : List α) (b : β) :
    get (as.foldl step b) = get b ++ as.filter p := by
  simpa using get_foldl_map get (f := id) (by simpa using h) as b

end Fold

/-- The first member that passes a test and of which something is found. -/
theorem findSome?_filter_eq_some_iff {α β : Type} {p : α → Bool} {f : α → Option β} {as : List α}
    {b : β} :
    (as.filter p).findSome? f = some b ↔ ∃ before a after, as = before ++ a :: after ∧
      (∀ x ∈ before, p x = true → f x = none) ∧ p a = true ∧ f a = some b := by
  rw [List.findSome?_eq_some_iff]
  constructor
  · rintro ⟨kept, a, rest, hsplit, ha, hkept⟩
    obtain ⟨front, back, rfl, rfl, hback⟩ := List.filter_eq_append_iff.1 hsplit
    obtain ⟨gap, after, rfl, hgap, hpasses, -⟩ := List.filter_eq_cons_iff.1 hback
    refine ⟨front ++ gap, a, after, (List.append_assoc ..).symm, fun x hx hp ↦ ?_, hpasses, ha⟩
    rcases List.mem_append.1 hx with hx | hx
    · exact hkept x (List.mem_filter.2 ⟨hx, hp⟩)
    · exact absurd hp (hgap x hx)
  · rintro ⟨before, a, after, rfl, hbefore, hpasses, ha⟩
    refine ⟨before.filter p, a, after.filter p, ?_, ha, fun x hx ↦ ?_⟩
    · rw [List.filter_append, List.filter_cons_of_pos hpasses]
    · obtain ⟨hx, hp⟩ := List.mem_filter.1 hx
      exact hbefore x hx hp

/-! ### The search of a layout -/

/-- Two places are nodes, and a link has them as its ends. -/
def TrackGraph.Joined (g : TrackGraph) (a b : Coordinate) : Prop :=
  a ∈ g.nodes ∧ b ∈ g.nodes ∧
    ∃ link ∈ g.links, link.a = a ∧ link.b = b ∨ link.a = b ∧ link.b = a

instance (g : TrackGraph) (a b : Coordinate) : Decidable (g.Joined a b) :=
  inferInstanceAs (Decidable (a ∈ g.nodes ∧ b ∈ g.nodes ∧
    ∃ link ∈ g.links.toList, link.a = a ∧ link.b = b ∨ link.a = b ∧ link.b = a))

namespace Layout

/-- Some signal has the number as its name. -/
def HasSignal (l : Layout) (signal : UInt32) : Prop :=
  ∃ s ∈ l.signals, s.name = Decimal.text signal.toNat

instance (l : Layout) (signal : UInt32) : Decidable (l.HasSignal signal) :=
  inferInstanceAs (Decidable (∃ s ∈ l.signals, s.name = Decimal.text signal.toNat))

/-- A definition has both ends, and they are joined in the track graph. -/
def Connects (l : Layout) (p : PointDefinition) : Prop :=
  ∃ toe ∈ p.switchEnd, ∃ branch ∈ p.divergingEnd, l.graph.Joined toe branch

instance (l : Layout) (p : PointDefinition) : Decidable (l.Connects p) :=
  inferInstanceAs (Decidable (∃ toe ∈ p.switchEnd, ∃ branch ∈ p.divergingEnd,
    l.graph.Joined toe branch))

/-- What is wrong with a point that the train runs over, if anything is. -/
inductive FindsAtPoint (l : Layout) (number : UInt32) : Option Violation → Prop
  | unknown (h : number = 0 ∨ ∀ p ∈ l.points, p.number ≠ number) :
      FindsAtPoint l number (some (.unknownPoint number))
  | notConnected (hnumber : number ≠ 0) (hsome : ∃ p ∈ l.points, p.number = number)
      (h : ∀ p ∈ l.points, p.number = number → ¬ l.Connects p) :
      FindsAtPoint l number (some (.notConnected number))
  | nothing {p : PointDefinition} (hnumber : number ≠ 0) (hp : p ∈ l.points)
      (hsame : p.number = number) (h : l.Connects p) : FindsAtPoint l number none

/-- What is wrong with a route, if anything is: with the first of its signals, from start to
destination, that the layout does not have, or, if it has them all, with the first point that the
train runs over and with which something is wrong. -/
inductive Finds (l : Layout) (route : RouteCommand) : Option Violation → Prop
  | signal {before after : List UInt32} {signal : UInt32}
      (hchain : route.start :: route.via ++ [route.destination] = before ++ signal :: after)
      (hbefore : ∀ s ∈ before, l.HasSignal s) (h : ¬ l.HasSignal signal) :
      Finds l route (some (.unknownSignal signal))
  | point {before after : List PointCommand} {point : PointCommand} {violation : Violation}
      (hsignals : ∀ s ∈ route.start :: route.via ++ [route.destination], l.HasSignal s)
      (hpoints : route.points = before ++ point :: after)
      (hbefore : ∀ p ∈ before, p.onRoute = true → l.FindsAtPoint p.number none)
      (honRoute : point.onRoute = true) (h : l.FindsAtPoint point.number (some violation)) :
      Finds l route (some violation)
  | nothing (hsignals : ∀ s ∈ route.start :: route.via ++ [route.destination], l.HasSignal s)
      (hpoints : ∀ p ∈ route.points, p.onRoute = true → l.FindsAtPoint p.number none) :
      Finds l route none

end Layout

/-! ### Links -/

theorem TrackLink.between_eq_iff {a b : Coordinate} {link : TrackLink} :
    between a b = link ↔ link.a = a ∧ link.b = b ∨ link.a = b ∧ link.b = a := by
  constructor
  · rintro rfl
    rw [between]
    split
    · exact .inl ⟨rfl, rfl⟩
    · exact .inr ⟨rfl, rfl⟩
  · have hordered := link.ordered
    rintro (⟨rfl, rfl⟩ | ⟨rfl, rfl⟩)
    · exact dif_pos hordered
    · rw [between]
      split
      next hle =>
        -- ends that stand in order both ways are one place
        have heq : link.b = link.a :=
          Std.LawfulEqOrd.eq_of_compare (Std.OrientedCmp.isLE_antisymm hle hordered)
        obtain ⟨a, b, _⟩ := link
        obtain rfl : b = a := heq
        rfl
      next => rfl

namespace TrackGraph

theorem link?_eq_some_iff {g : TrackGraph} {a b : Coordinate} {link : TrackLink} :
    g.link? a b = some link ↔ link ∈ g.links ∧ TrackLink.between a b = link := by
  rw [link?, Option.ite_none_right_eq_some, Option.some.injEq]
  exact and_congr_left fun h ↦ by rw [h]

/-- **The graph joins** two places if a link has them as its ends, in either order. -/
theorem joins_iff {g : TrackGraph} {a b : Coordinate} : g.joins a b = true ↔ g.Joined a b := by
  rw [joins, Bool.and_eq_true, Bool.and_eq_true, hasNode, hasNode, decide_eq_true_eq,
    decide_eq_true_eq, and_assoc, Joined, Option.isSome_iff_exists]
  simp only [link?_eq_some_iff, TrackLink.between_eq_iff]

end TrackGraph

namespace LayoutIndex

/-! ### The tables -/

theorem signals_addPoint (i : LayoutIndex) (p : PointDefinition) :
    (i.addPoint p).signals = i.signals := by
  rw [addPoint]
  split <;> rfl

theorem graph_addPoint (i : LayoutIndex) (p : PointDefinition) :
    (i.addPoint p).graph = i.graph := by
  rw [addPoint]
  split <;> rfl

theorem points_addSignal (i : LayoutIndex) (s : SignalDefinition) :
    (i.addSignal s).points = i.points := rfl

theorem graph_addSignal (i : LayoutIndex) (s : SignalDefinition) :
    (i.addSignal s).graph = i.graph := rfl

/-- A point with a number is appended to the definitions of its number. -/
theorem pointDefinitions_addPoint (number : UInt32) (i : LayoutIndex) (p : PointDefinition) :
    (i.addPoint p).pointDefinitions number =
      i.pointDefinitions number ++ [p].filter fun p ↦ number != 0 && p.number == number := by
  rw [addPoint]
  split
  next hzero =>
    have hnot : (number != 0 && p.number == number) = false := by
      by_cases hnumber : number = 0
      · simp [hnumber]
      · simp [hzero, Ne.symm hnumber]
    simp [hnot, pointDefinitions]
  next hnonzero =>
    show (i.points.insert p.number (i.pointDefinitions p.number ++ [p])).getD number [] = _
    rw [Std.TreeMap.getD_insert]
    by_cases hsame : p.number = number
    · subst hsame
      simp [hnonzero]
    · simp [hsame, pointDefinitions]

/-- A signal is appended to the definitions of its name. -/
theorem signalDefinitions_addSignal (name : String) (i : LayoutIndex) (s : SignalDefinition) :
    (i.addSignal s).signalDefinitions name =
      i.signalDefinitions name ++ [s].filter (·.name == name) := by
  show (i.signals.insert s.name (i.signalDefinitions s.name ++ [s])).getD name [] = _
  rw [Std.TreeMap.getD_insert]
  by_cases h : s.name = name
  · subst h
    simp
  · simp [h, signalDefinitions]

/-- **The index has the points** of the layout that have a number, in order. -/
theorem pointDefinitions_ofLayout (l : Layout) (number : UInt32) :
    (ofLayout l).pointDefinitions number = if number = 0 then [] else l.pointsNumbered number := by
  have htable := get_foldl (pointDefinitions · number) (pointDefinitions_addPoint number) l.points
    (empty l.graph)
  rw [ofLayout, pointDefinitions, get_foldl_of_keeps points points_addSignal]
  refine htable.trans ?_
  show (∅ : Std.TreeMap UInt32 (List PointDefinition)).getD number [] ++ _ = _
  rw [Std.TreeMap.getD_emptyc, List.nil_append]
  by_cases hzero : number = 0
  · simp [hzero]
  · simp [bne_iff_ne.2 hzero, hzero, Layout.pointsNumbered]

/-- **The index has the signals** of the layout, in order. -/
theorem signalDefinitions_ofLayout (l : Layout) (name : String) :
    (ofLayout l).signalDefinitions name = l.signals.filter (·.name == name) := by
  rw [ofLayout, get_foldl (signalDefinitions · name) (signalDefinitions_addSignal name),
    signalDefinitions, get_foldl_of_keeps signals signals_addPoint]
  show (∅ : Std.TreeMap String (List SignalDefinition)).getD name [] ++ _ = _
  rw [Std.TreeMap.getD_emptyc, List.nil_append]

theorem signal?_ofLayout (l : Layout) (name : String) :
    (ofLayout l).signal? name = l.signal? name := by
  rw [signal?, signalDefinitions_ofLayout, List.head?_filter, Layout.signal?]

theorem graph_ofLayout (l : Layout) : (ofLayout l).graph = l.graph := by
  rw [ofLayout, get_foldl_of_keeps graph graph_addSignal, get_foldl_of_keeps graph graph_addPoint]
  rfl

/-! ### Routes -/

variable {l : Layout} {route : RouteCommand} {violation : Option Violation}

theorem isConnected_ofLayout {p : PointDefinition} :
    (ofLayout l).isConnected p = true ↔ l.Connects p := by
  rw [isConnected, graph_ofLayout, Layout.Connects]
  split
  next toe branch htoe hbranch => simp [htoe, hbranch, TrackGraph.joins_iff]
  next hnot =>
    refine ⟨nofun, fun ⟨toe, htoe, branch, hbranch, _⟩ ↦ absurd hbranch (hnot toe branch htoe)⟩

theorem signalViolation?_eq_none_iff {signal : UInt32} :
    (ofLayout l).signalViolation? signal = none ↔ l.HasSignal signal := by
  rw [signalViolation?, signal?_ofLayout, Layout.signal?]
  simp [Layout.HasSignal]

theorem signalViolation?_eq_some_iff {signal : UInt32} {violation : Violation} :
    (ofLayout l).signalViolation? signal = some violation ↔
      ¬ l.HasSignal signal ∧ violation = .unknownSignal signal := by
  rw [← signalViolation?_eq_none_iff, signalViolation?]
  split <;> simp [eq_comm]

theorem mem_pointDefinitions_ofLayout {number : UInt32} {p : PointDefinition} :
    p ∈ (ofLayout l).pointDefinitions number ↔
      number ≠ 0 ∧ p ∈ l.points ∧ p.number = number := by
  rw [pointDefinitions_ofLayout]
  split <;> simp_all [Layout.pointsNumbered]

/-- Nothing is found under a number if no definition has it, and nothing under 0. -/
theorem pointDefinitions_ofLayout_eq_nil_iff {number : UInt32} :
    (ofLayout l).pointDefinitions number = [] ↔
      number = 0 ∨ ∀ p ∈ l.points, p.number ≠ number := by
  simp only [List.eq_nil_iff_forall_not_mem, mem_pointDefinitions_ofLayout]
  by_cases hnumber : number = 0
  · simp [hnumber]
  · simp [hnumber]

theorem any_isConnected_ofLayout {number : UInt32} :
    ((ofLayout l).pointDefinitions number).any (ofLayout l).isConnected = true ↔
      number ≠ 0 ∧ ∃ p ∈ l.points, p.number = number ∧ l.Connects p := by
  simp only [List.any_eq_true, mem_pointDefinitions_ofLayout, isConnected_ofLayout]
  exact ⟨fun ⟨p, ⟨hnumber, hp, hsame⟩, h⟩ ↦ ⟨hnumber, p, hp, hsame, h⟩,
    fun ⟨hnumber, p, hp, hsame, h⟩ ↦ ⟨p, ⟨hnumber, hp, hsame⟩, h⟩⟩

/-- **A point is checked** as a search of the layout checks it. -/
theorem pointViolation?_eq_iff {point : PointCommand} :
    (ofLayout l).pointViolation? point = violation ↔ l.FindsAtPoint point.number violation := by
  simp only [pointViolation?, List.isEmpty_iff, pointDefinitions_ofLayout_eq_nil_iff]
  constructor
  · rintro rfl
    split
    next hunknown => exact .unknown hunknown
    next hknown =>
      obtain ⟨hnumber, hsome⟩ := not_or.1 hknown
      split
      next h =>
        obtain ⟨-, p, hp, hsame, h⟩ := any_isConnected_ofLayout.1 h
        exact .nothing hnumber hp hsame h
      next hnot =>
        refine .notConnected hnumber (by simpa using hsome) fun p hp hsame h ↦ ?_
        exact hnot (any_isConnected_ofLayout.2 ⟨hnumber, p, hp, hsame, h⟩)
  · rintro (hunknown | ⟨hnumber, ⟨p, hp, hsame⟩, hnot⟩ | ⟨hnumber, hp, hsame, h⟩)
    · exact if_pos hunknown
    · rw [if_neg (not_or.2 ⟨hnumber, fun hnone ↦ hnone p hp hsame⟩), if_neg]
      intro hany
      obtain ⟨-, q, hq, hsame, h⟩ := any_isConnected_ofLayout.1 hany
      exact hnot q hq hsame h
    · rw [if_neg (not_or.2 ⟨hnumber, fun hnone ↦ hnone _ hp hsame⟩), if_pos]
      exact any_isConnected_ofLayout.2 ⟨hnumber, _, hp, hsame, h⟩

/-- **A route is checked** as a search of the layout checks it. -/
theorem violation?_eq_iff :
    (ofLayout l).violation? route = violation ↔ l.Finds route violation := by
  have hsignals : (route.start :: route.via ++ [route.destination]).findSome?
      (ofLayout l).signalViolation? = none ↔
        ∀ s ∈ route.start :: route.via ++ [route.destination], l.HasSignal s := by
    simp only [List.findSome?_eq_none_iff, signalViolation?_eq_none_iff]
  have hpoints : (route.points.filter (·.onRoute)).findSome? (ofLayout l).pointViolation? = none ↔
      ∀ p ∈ route.points, p.onRoute = true → l.FindsAtPoint p.number none := by
    simp only [List.findSome?_eq_none_iff, pointViolation?_eq_iff, List.mem_filter, and_imp]
  rw [violation?, RouteCommand.signalChain, RouteCommand.onRoutePoints]
  constructor
  · rintro rfl
    cases hsignal : (route.start :: route.via ++ [route.destination]).findSome?
        (ofLayout l).signalViolation? with
    | some violation =>
      obtain ⟨before, signal, after, hchain, hhere, hbefore⟩ :=
        List.findSome?_eq_some_iff.1 hsignal
      obtain ⟨hnot, rfl⟩ := signalViolation?_eq_some_iff.1 hhere
      exact .signal hchain (fun s hs ↦ signalViolation?_eq_none_iff.1 (hbefore s hs)) hnot
    | none =>
      rw [Option.none_or]
      cases hpoint : (route.points.filter (·.onRoute)).findSome? (ofLayout l).pointViolation? with
      | some violation =>
        obtain ⟨before, point, after, hsplit, hbefore, honRoute, hhere⟩ :=
          findSome?_filter_eq_some_iff.1 hpoint
        exact .point (hsignals.1 hsignal) hsplit
          (fun p hp h ↦ pointViolation?_eq_iff.1 (hbefore p hp h)) honRoute
          (pointViolation?_eq_iff.1 hhere)
      | none => exact .nothing (hsignals.1 hsignal) (hpoints.1 hpoint)
  · intro hfinds
    cases hfinds with
    | signal hchain hbefore hnot =>
      rw [List.findSome?_eq_some_iff.2 ⟨_, _, _, hchain,
        signalViolation?_eq_some_iff.2 ⟨hnot, rfl⟩,
        fun s hs ↦ signalViolation?_eq_none_iff.2 (hbefore s hs)⟩, Option.some_or]
    | point hall hsplit hbefore honRoute hhere =>
      rw [hsignals.2 hall, Option.none_or]
      exact findSome?_filter_eq_some_iff.2 ⟨_, _, _, hsplit,
        fun p hp h ↦ pointViolation?_eq_iff.2 (hbefore p hp h), honRoute,
        pointViolation?_eq_iff.2 hhere⟩
    | nothing hall hsound => rw [hsignals.2 hall, hpoints.2 hsound, Option.none_or]

/-- **The index agrees with the layout.** -/
theorem ofLayout_exact (l : Layout) :
    (∀ route violation, (ofLayout l).violation? route = violation ↔ l.Finds route violation) ∧
      (∀ name, (ofLayout l).signal? name = l.signal? name) ∧
      ∀ number, (ofLayout l).pointDefinitions number =
        if number = 0 then [] else l.pointsNumbered number :=
  ⟨fun _ _ ↦ violation?_eq_iff, signal?_ofLayout l, pointDefinitions_ofLayout l⟩

/-- A yard with two signals, in which the point 27 is joined and the sub-points of 28 are not: one
has a single end, and no link has those of the other. -/
def halfJoined : Layout where
  points :=
    [{ PointDefinition.plain "27" [12] with
        switchEnd := some ⟨2, 2⟩, divergingEnd := some ⟨1, 1⟩ },
      { PointDefinition.plain "28a" [14] with switchEnd := some ⟨1, 1⟩ },
      { PointDefinition.plain "28b" [16] with
        switchEnd := some ⟨1, 1⟩, divergingEnd := some ⟨3, 3⟩ }]
  signals := [.plain "64" ⟨1, 1⟩ 0, .plain "72" ⟨2, 2⟩ 0]
  tracks := []
  routes := []
  graph := .ofLists [⟨3, 3⟩] [(⟨1, 1⟩, ⟨2, 2⟩)]

/-- An unknown point that only protects the flank is passed over, and then a point that is not
joined is found. On the route, the unknown point is found, and a signal that is missing is found
before any point. -/
theorem ofLayout_exact_of_halfJoined :
    let route := RouteCommand.plain 64 72 .setMain
    let points : List PointCommand := [.plain 27 .straight, .flank 99 .straight, .plain 28 .straight]
    (ofLayout halfJoined).violation? { route with points } = some (.notConnected 28) ∧
      (ofLayout halfJoined).violation?
        { route with points := [.plain 27 .straight, .plain 99 .straight, .plain 28 .straight] } =
          some (.unknownPoint 99) ∧
      (ofLayout halfJoined).violation?
        { route with points := [.plain 99 .straight], via := [70] } = some (.unknownSignal 70) := by
  intro route points
  have hstart : halfJoined.HasSignal 64 := by decide +kernel
  have hends : ∀ s ∈ (64 :: [] ++ [72] : List UInt32), halfJoined.HasSignal s := by
    simpa using ⟨hstart, by decide +kernel⟩
  have hjoined : halfJoined.FindsAtPoint 27 none :=
    .nothing (by decide) List.mem_cons_self (by decide +kernel) (by decide +kernel)
  have hunjoined : halfJoined.FindsAtPoint 28 (some (.notConnected 28)) :=
    .notConnected (by decide) (by decide +kernel) (by decide +kernel)
  have hunknown : halfJoined.FindsAtPoint 99 (some (.unknownPoint 99)) :=
    .unknown (by decide +kernel)
  have hchecks := (ofLayout_exact halfJoined).1
  refine ⟨(hchecks _ _).2 ?_, (hchecks _ _).2 ?_, (hchecks _ _).2 ?_⟩
  · exact @Layout.Finds.point _ _ [.plain 27 .straight, .flank 99 .straight] [] _ _ hends rfl
      (by simpa [PointCommand.plain, PointCommand.flank] using hjoined) rfl hunjoined
  · exact @Layout.Finds.point _ _ [.plain 27 .straight] [.plain 28 .straight] _ _ hends rfl
      (by simpa [PointCommand.plain] using hjoined) rfl hunknown
  · exact @Layout.Finds.signal _ _ [64] [72] 70 rfl (by simpa using hstart) (by decide +kernel)

end LayoutIndex

end SignalBox
