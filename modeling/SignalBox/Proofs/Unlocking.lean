import SignalBox.Reservations

/-!
# What a release unlocks

Of the points of released routes, a release unlocks those that have locks and whose number no
remaining route has; and of several commands for one sub-point it unlocks the first one only
(`mem_pointsToUnlock_iff`). A lock of a released point may so be left out with every point that has
it (`exists_mem_pointsToUnlock_iff`).
-/

namespace SignalBox

/-- A command has a lock at an address. -/
def PointCommand.HasLockAt (c : PointCommand) (n : Nat) : Prop :=
  ∃ a ∈ c.lockAddresses, a.toInt.natAbs = n

instance (c : PointCommand) (n : Nat) : Decidable (c.HasLockAt n) :=
  decidable_of_iff (c.lockAddresses.any (·.toInt.natAbs == n) = true) (by
    simp [PointCommand.HasLockAt])

theorem PointCommand.HasLockAt.hasLock {c : PointCommand} {n : Nat} (h : c.HasLockAt n) :
    c.hasLock = true := by
  obtain ⟨a, ha, -⟩ := h
  rw [lockAddresses] at ha
  split at ha
  next offset ho => simp [PointCommand.hasLock, ho]
  next => cases ha

namespace Reservations

/-- Whether two commands are for the same sub-point. -/
def sameKey (p q : PointCommand) : Bool :=
  q.number == p.number && q.subPoint == p.subPoint

/-- The command that counts for a sub-point: the first one of the released routes that has locks. -/
def counting? (released : List RouteCommand) (p : PointCommand) : Option PointCommand :=
  (released.flatMap (·.points)).find? fun q ↦ q.hasLock && sameKey p q

theorem mem_distinctPoints_iff {seen : List (UInt32 × Option Char)} {points : List PointCommand}
    {p : PointCommand} :
    p ∈ distinctPoints seen points ↔
      (p.number, p.subPoint) ∉ seen ∧ points.find? (sameKey p) = some p := by
  fun_induction distinctPoints seen points with
  | case1 => simp
  | case2 seen q points hq ih =>
    rw [ih]
    refine and_congr_right fun hp ↦ ?_
    have hne : sameKey p q = false := Bool.eq_false_iff.2 fun h ↦ hp ?_
    · rw [List.find?_cons, hne]
    · rw [sameKey, Bool.and_eq_true, beq_iff_eq, beq_iff_eq] at h
      rwa [h.1, h.2] at hq
  | case3 seen q points hq ih =>
    rw [List.mem_cons, ih, List.mem_cons, not_or, List.find?_cons]
    by_cases hkey : sameKey p q = true
    · have heq : (p.number, p.subPoint) = (q.number, q.subPoint) := by
        rw [sameKey, Bool.and_eq_true, beq_iff_eq, beq_iff_eq] at hkey
        rw [hkey.1, hkey.2]
      rw [hkey, heq]
      simp only [not_true_eq_false, false_and, or_false, hq, not_false_eq_true, true_and,
        Option.some.injEq]
      exact eq_comm
    · have hne : (p.number, p.subPoint) ≠ (q.number, q.subPoint) := fun h ↦ hkey (by
        obtain ⟨hn, hs⟩ := Prod.mk.inj h
        simp [sameKey, hn, hs])
      have hpq : p ≠ q := fun h ↦ hne (by rw [h])
      simp [hkey, hne, hpq]

/-- **What a release unlocks**: the locks of the commands that count, unless a remaining route has a
point of the same number. -/
theorem mem_pointsToUnlock_iff {remaining : Reservations} {released : List RouteCommand}
    {p : PointCommand} :
    p ∈ remaining.pointsToUnlock released ↔
      remaining.holds p.number = false ∧ counting? released p = some p := by
  rw [pointsToUnlock, mem_distinctPoints_iff, List.find?_filter, and_iff_right List.not_mem_nil]
  cases hholds : remaining.holds p.number with
  | true =>
    refine iff_of_false (fun h ↦ ?_) (fun h ↦ by cases h.1)
    have hp := List.find?_some h
    simp [hholds] at hp
  | false =>
    rw [and_iff_right rfl, counting?]
    -- among commands for this sub-point, none is held
    have htest : (fun q : PointCommand ↦
        decide ((q.hasLock && !remaining.holds q.number) = true ∧ sameKey p q = true)) =
          fun q ↦ q.hasLock && sameKey p q := by
      funext q
      rw [Bool.decide_and, Bool.decide_eq_true, Bool.decide_eq_true]
      cases hkey : sameKey p q with
      | false => rw [Bool.and_false, Bool.and_false]
      | true =>
        rw [sameKey, Bool.and_eq_true, beq_iff_eq, beq_iff_eq] at hkey
        rw [hkey.1, hholds, Bool.not_false, Bool.and_true]
    rw [htest]

/-- What is unlocked belongs to a route that has been released. -/
theorem exists_of_mem_pointsToUnlock {remaining : Reservations} {released : List RouteCommand}
    {p : PointCommand} (h : p ∈ remaining.pointsToUnlock released) :
    ∃ r ∈ released, p ∈ r.points :=
  List.mem_flatMap.1 (List.mem_of_find?_eq_some (mem_pointsToUnlock_iff.1 h).2)

/-- The lock of a released point is overlooked: a remaining route has a point of this number, or the
command that counts for the sub-point does not have the lock. -/
def Overlooks (remaining : Reservations) (released : List RouteCommand) (p : PointCommand)
    (n : Nat) : Prop :=
  remaining.holds p.number = true ∨ ∃ q, counting? released p = some q ∧ ¬ q.HasLockAt n

theorem counting?_of_counting? {released : List RouteCommand} {p q : PointCommand}
    (h : counting? released p = some q) :
    q.number = p.number ∧ counting? released q = some q := by
  have hq := List.find?_some h
  rw [Bool.and_eq_true, sameKey, Bool.and_eq_true, beq_iff_eq, beq_iff_eq] at hq
  refine ⟨hq.2.1, ?_⟩
  rw [← h, counting?, counting?]
  congr
  funext q'
  rw [sameKey, sameKey, hq.2.1, hq.2.2]

/-- **Unlocked locks** are those that are not overlooked with some point. -/
theorem exists_mem_pointsToUnlock_iff {remaining : Reservations} {released : List RouteCommand}
    {n : Nat} :
    (∃ p ∈ remaining.pointsToUnlock released, p.HasLockAt n) ↔
      ∃ r ∈ released, ∃ p ∈ r.points, p.HasLockAt n ∧ ¬ remaining.Overlooks released p n := by
  constructor
  · rintro ⟨p, hp, hlock⟩
    obtain ⟨r, hr, hpoint⟩ := exists_of_mem_pointsToUnlock hp
    obtain ⟨hholds, hcounting⟩ := mem_pointsToUnlock_iff.1 hp
    refine ⟨r, hr, p, hpoint, hlock, ?_⟩
    rintro (h | h)
    · simp [hholds] at h
    · obtain ⟨q, hq, hnone⟩ := h
      obtain rfl := Option.some.inj (hcounting.symm.trans hq)
      exact hnone hlock
  · rintro ⟨r, hr, p, hp, hlock, hoverlooks⟩
    obtain ⟨hholds, hcounts⟩ := not_or.1 hoverlooks
    -- `p` has locks itself, so some command counts for its sub-point
    obtain ⟨q, hcounting⟩ : ∃ q, counting? released p = some q := by
      refine Option.isSome_iff_exists.1 (List.find?_isSome.2 ⟨p, ?_, ?_⟩)
      · exact List.mem_flatMap.2 ⟨r, hr, hp⟩
      · rw [hlock.hasLock, sameKey, beq_self_eq_true, beq_self_eq_true]
        rfl
    obtain ⟨hnumber, hq⟩ := counting?_of_counting? hcounting
    refine ⟨q, mem_pointsToUnlock_iff.2 ⟨?_, hq⟩,
      Classical.not_not.1 fun hnone ↦ hcounts ⟨q, hcounting, hnone⟩⟩
    rw [hnumber]
    exact Bool.eq_false_iff.2 hholds

/-- A route asks for both positions of a point with locks: the second lock is overlooked. -/
example :
    let p := { PointCommand.plain 27 .straight with lockOffset := some 100, addresses := [12] }
    let q := { PointCommand.plain 27 .diverging with lockOffset := some 100, addresses := [13] }
    empty.pointsToUnlock [{ RouteCommand.plain 64 72 .setMain with points := [p, q] }] = [p] := by
  decide

end Reservations

end SignalBox
