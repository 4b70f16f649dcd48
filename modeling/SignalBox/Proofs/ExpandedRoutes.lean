import SignalBox.Proofs.Admission

/-!
# Which points a chain of signals needs

A route that is typed as a chain of signals gets the points of its legs. The main statement
(`Layout.expandRoute_exact`) is that it gets all of them in their order, where of several commands
with the same request the first one stays, and that the only error is the first leg without a
definition.

* **Repeats** are looked for in what has been collected so far. The points of a layout bring no
  addresses of their own, so one repeats another exactly if both ask for the same of the same points
  (`Layout.repeats_eq_any`).
* **First places** are what `List.eraseDupsBy` keeps: in their order (`sublist_eraseDupsBy`), no two
  alike (`pairwise_eraseDupsBy`), and one for every member (`exists_mem_eraseDupsBy`).
-/

namespace SignalBox

/-! ### Members at their first places -/

section

variable {α : Type} {r : α → α → Bool}

/-- What holds for the empty list, and for a list if it holds for the members that do not repeat the
first one, holds for every list and what is kept of it. -/
theorem eraseDupsBy_induction {P : List α → List α → Prop} (nil : P [] [])
    (cons : ∀ a as, P (as.filter fun b ↦ r b a = false)
        ((as.filter fun b ↦ r b a = false).eraseDupsBy r) →
      P (a :: as) (a :: (as.filter fun b ↦ r b a = false).eraseDupsBy r)) :
    ∀ as : List α, P as (as.eraseDupsBy r)
  | [] => nil
  | a :: as => by
    rw [List.eraseDupsBy_cons]
    exact cons a as (eraseDupsBy_induction nil cons _)
termination_by as => as.length
decreasing_by exact Nat.lt_succ_of_le (List.length_filter_le _ _)

/-- What is kept stays in its order. -/
theorem sublist_eraseDupsBy (as : List α) : (as.eraseDupsBy r).Sublist as :=
  eraseDupsBy_induction (P := fun as kept ↦ kept.Sublist as) .slnil
    (fun a _ ih ↦ (ih.trans List.filter_sublist).cons_cons a) as

/-- No member that is kept repeats an earlier one. -/
theorem pairwise_eraseDupsBy (as : List α) :
    (as.eraseDupsBy r).Pairwise fun a b ↦ r b a = false := by
  refine eraseDupsBy_induction (P := fun _ kept ↦ kept.Pairwise fun a b ↦ r b a = false) .nil
    (fun a as ih ↦ List.pairwise_cons.2 ⟨fun b hb ↦ ?_, ih⟩) as
  simpa using (List.mem_filter.1 ((sublist_eraseDupsBy _).subset hb)).2

/-- Every member repeats one that is kept, or is kept itself. -/
theorem exists_mem_eraseDupsBy (hrefl : ∀ a, r a a = true) (as : List α) :
    ∀ a ∈ as, ∃ b ∈ as.eraseDupsBy r, r a b = true := by
  refine eraseDupsBy_induction (P := fun as kept ↦ ∀ a ∈ as, ∃ b ∈ kept, r a b = true) (by simp)
    (fun a as ih b hb ↦ ?_) as
  rcases List.mem_cons.1 hb with rfl | hb
  · exact ⟨b, List.mem_cons_self, hrefl b⟩
  · cases hrepeats : r b a with
    | true => exact ⟨a, List.mem_cons_self, hrepeats⟩
    | false =>
      obtain ⟨c, hc, hbc⟩ := ih b (List.mem_filter.2 ⟨hb, by simpa using hrepeats⟩)
      exact ⟨c, List.mem_cons_of_mem a hc, hbc⟩

end

namespace Layout

variable {l : Layout}

/-! ### Legs -/

instance (l : Layout) (leg : UInt32 × UInt32) : Decidable (l.DefinesLeg leg) :=
  inferInstanceAs (Decidable (∃ d ∈ l.routes, _ ∧ _))

/-- The points that the legs of a chain need, one leg after another. -/
def pointsNeeded (l : Layout) (chain : List UInt32) : List PointCommand :=
  (legs chain).flatMap l.pointsOfLeg

/-- **Legs** without a definition are told by the first of them. -/
theorem legPoints_eq_error_iff {known : List PointCommand} {legs : List (UInt32 × UInt32)}
    {leg : UInt32 × UInt32} :
    l.legPoints known legs = .error leg ↔ legs.find? (¬ l.DefinesLeg ·) = some leg := by
  induction legs generalizing known with
  | nil => simp [legPoints]
  | cons next rest ih =>
    rw [legPoints]
    split
    next hnone =>
      have hdefines : ¬ l.DefinesLeg next := by simp [definesLeg_iff, hnone]
      rw [List.find?_cons_of_pos (by simpa using hdefines)]
      simp
    next d hd =>
      have hdefines : l.DefinesLeg next := definesLeg_iff.2 ⟨d, hd⟩
      rw [List.find?_cons_of_neg (by simpa using hdefines), ih]

/-! ### Repeats -/

theorem bare_of_mem_pointsNeeded {chain : List UInt32} {p : PointCommand}
    (hp : p ∈ l.pointsNeeded chain) : p.Bare := by
  obtain ⟨leg, -, hp⟩ := List.mem_flatMap.1 hp
  rw [pointsOfLeg] at hp
  cases hd : l.route? leg.1 leg.2 with
  | none => simp [hd] at hp
  | some d =>
    rw [hd] at hp
    obtain ⟨point, -, rfl⟩ := List.mem_map.1 hp
    exact point.bare_command

/-- **Repeats** of points without addresses ask for the same of the same points. -/
theorem repeats_eq_any {known : List PointCommand} {p : PointCommand} (hp : p.Bare)
    (hknown : ∀ q ∈ known, q.Bare) : repeats known p = known.any (p.SameRequest ·) := by
  rw [repeats, Bool.eq_iff_iff, List.any_eq_true, List.any_eq_true]
  refine exists_congr fun q ↦ and_congr_right fun hq ↦ ?_
  have haddresses : q.addresses = p.addresses :=
    (hknown q hq).addresses_eq.trans hp.addresses_eq.symm
  simp only [PointCommand.asksSame, haddresses, and_true, Bool.and_eq_true, decide_eq_true_eq,
    beq_iff_eq]
  constructor
  · rintro ⟨⟨⟨hnumber, hposition⟩, hletter⟩, hside⟩
    exact PointCommand.SameRequest.symm ⟨hnumber, hletter, hposition, hside⟩
  · intro hsame
    obtain ⟨hnumber, hletter, hposition, hside⟩ := hsame.symm
    exact ⟨⟨⟨hnumber, hposition⟩, hletter⟩, hside⟩

/-- **Points without addresses** are joined by leaving out those whose request is there already. -/
theorem joinPoints_eq {known added : List PointCommand} (hknown : ∀ p ∈ known, p.Bare)
    (hadded : ∀ p ∈ added, p.Bare) :
    joinPoints known added = known ++
      (added.filter fun p ↦ !known.any (p.SameRequest ·)).eraseDupsBy (·.SameRequest ·) := by
  have hfold : joinPoints known added =
      added.foldl (fun known p ↦ if known.any (p.SameRequest ·) then known else known ++ [p])
        known := by
    induction added generalizing known with
    | nil => rfl
    | cons p added ih =>
      have hp := hadded p List.mem_cons_self
      rw [joinPoints, List.foldl_cons, List.foldl_cons, repeats_eq_any hp hknown]
      refine ih ?_ fun q hq ↦ hadded q (List.mem_cons_of_mem p hq)
      split
      · exact hknown
      · simpa [or_imp, forall_and] using ⟨hknown, hp⟩
  exact hfold.trans (foldl_append_new (fun p q ↦ decide (p.SameRequest q)) known added)

theorem pointsAlong_eq (l : Layout) (chain : List UInt32) :
    l.pointsAlong chain = (l.pointsNeeded chain).eraseDupsBy (·.SameRequest ·) := by
  have hjoin := @joinPoints_eq [] (l.pointsNeeded chain) (by simp)
    fun p hp ↦ bare_of_mem_pointsNeeded hp
  simpa [pointsAlong, pointsNeeded] using hjoin

/-- **Expansion.** A route that is given as a chain of signals fails with the first leg that has no
definition. If there is none, it keeps everything but its points, and these are the points that its
legs need, where of those with the same number, letter, position and side of the route exactly the
first one is kept: they are in order, no two of them ask for the same, and none is lost. -/
theorem expandRoute_exact (l : Layout) (route : RouteCommand) :
    (∀ leg, l.expandRoute route = .error leg ↔
      (legs route.signalChain).find? (¬ l.DefinesLeg ·) = some leg) ∧
    ((∀ leg ∈ legs route.signalChain, l.DefinesLeg leg) →
      ∃ points, l.expandRoute route = .ok { route with points := points } ∧
        points = (l.pointsNeeded route.signalChain).eraseDupsBy (·.SameRequest ·) ∧
        points.Sublist (l.pointsNeeded route.signalChain) ∧
        points.Pairwise (¬ ·.SameRequest ·) ∧
        ∀ p ∈ l.pointsNeeded route.signalChain, ∃ q ∈ points, p.SameRequest q) := by
  constructor
  · intro leg
    rw [← @legPoints_eq_error_iff l [], expandRoute]
    cases l.legPoints [] (legs route.signalChain) <;> simp [Except.map]
  · intro hdefined
    have hpoints : l.legPoints [] (legs route.signalChain) =
        .ok (l.pointsAlong route.signalChain) := legPoints_eq_ok_iff.2 ⟨hdefined, rfl⟩
    refine ⟨l.pointsAlong route.signalChain, ?_, l.pointsAlong_eq _, ?_⟩
    · rw [expandRoute, hpoints]
      rfl
    · rw [pointsAlong_eq]
      refine ⟨sublist_eraseDupsBy _, (pairwise_eraseDupsBy _).imp ?_, fun p hp ↦ ?_⟩
      · intro p q hnew hsame
        exact of_decide_eq_false hnew (PointCommand.SameRequest.symm hsame)
      · obtain ⟨q, hq, hsame⟩ := exists_mem_eraseDupsBy (r := (·.SameRequest ·))
          (fun q ↦ decide_eq_true (PointCommand.SameRequest.refl q)) _ p hp
        exact ⟨q, hq, of_decide_eq_true hsame⟩

/-- Two legs whose points differ in one property each, or repeat earlier ones; the last definition
is a second one of its leg. The way back has no definition for its first leg. -/
theorem expandRoute_exact_of_two_legs :
    let l := { junction [] with routes :=
      [⟨64, 60, [⟨"27a", .straight, false⟩, ⟨"27", .straight, false⟩, ⟨"27a", .straight, false⟩,
        ⟨"27a", .straight, true⟩]⟩,
      ⟨60, 72, [⟨"27a", .diverging, false⟩, ⟨"27", .straight, false⟩, ⟨"28a", .straight, false⟩]⟩,
      ⟨60, 72, [⟨"29", .straight, false⟩]⟩] }
    let there := { RouteCommand.plain 64 72 .setMain with via := [60] }
    l.expandRoute { RouteCommand.plain 72 64 .setMain with via := [60] } = .error (72, 60) ∧
    (∀ leg ∈ legs there.signalChain, l.DefinesLeg leg) ∧
    ∃ points, l.expandRoute there = .ok { there with points := points } ∧
      points = [(PointCommand.plain 27 .straight).withSubPoint 'a', .plain 27 .straight,
        (PointCommand.flank 27 .straight).withSubPoint 'a',
        (PointCommand.plain 27 .diverging).withSubPoint 'a',
        (PointCommand.plain 28 .straight).withSubPoint 'a'] := by
  intro l there
  have hdefined : ∀ leg ∈ legs there.signalChain, l.DefinesLeg leg := by
    intro leg hleg
    rw [show legs there.signalChain = [(64, 60), (60, 72)] by decide +kernel,
      List.mem_pair] at hleg
    rcases hleg with rfl | rfl <;> decide +kernel
  obtain ⟨points, hexpands, hpoints, -⟩ := (expandRoute_exact l there).2 hdefined
  exact ⟨((expandRoute_exact l _).1 _).2 (by decide +kernel), hdefined, points, hexpands,
    hpoints.trans (by decide +kernel)⟩

end Layout

end SignalBox
