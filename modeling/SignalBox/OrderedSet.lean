/-!
# Ordered sets

A finite set kept as its members in strictly ascending order, so that two sets with the same
members are equal (`ext`) and what is written out does not depend on the order of insertion.
-/

namespace SignalBox

/-- A finite set as the strictly ascending list of its members. -/
structure OrderedSet (α : Type) [Ord α] where
  /-- The members. -/
  toList : List α
  /-- Each member is smaller than all after it. -/
  ascending : toList.Pairwise fun a b ↦ compare a b = .lt
  deriving DecidableEq

namespace OrderedSet

variable {α : Type} [Ord α]

/-- The set without members. -/
def empty : OrderedSet α := ⟨[], .nil⟩

instance : Membership α (OrderedSet α) := ⟨fun s a ↦ a ∈ s.toList⟩

theorem mem_def {a : α} {s : OrderedSet α} : a ∈ s ↔ a ∈ s.toList := Iff.rfl

instance [DecidableEq α] (a : α) (s : OrderedSet α) : Decidable (a ∈ s) :=
  inferInstanceAs (Decidable (a ∈ s.toList))

/-- The number of members. -/
def size (s : OrderedSet α) : Nat := s.toList.length

/-- The place of a new member among ascending ones. -/
def insertList (a : α) : List α → List α
  | [] => [a]
  | b :: bs =>
    match compare a b with
    | .lt => a :: b :: bs
    | .eq => b :: bs
    | .gt => b :: insertList a bs

variable [Std.TransOrd α] [Std.LawfulEqOrd α]

omit [Std.TransOrd α] in
theorem mem_insertList {a x : α} {bs : List α} : x ∈ insertList a bs ↔ x = a ∨ x ∈ bs := by
  induction bs with
  | nil => simp [insertList]
  | cons b bs ih =>
    simp only [insertList]
    split
    next => simp
    next h =>
      have := Std.LawfulEqOrd.eq_of_compare h
      subst this
      simp
    next => simp only [List.mem_cons, ih]; exact or_left_comm

theorem ascending_insertList {a : α} {bs : List α}
    (h : bs.Pairwise fun a b ↦ compare a b = .lt) :
    (insertList a bs).Pairwise fun a b ↦ compare a b = .lt := by
  induction bs with
  | nil => simp [insertList]
  | cons b bs ih =>
    rw [List.pairwise_cons] at h
    simp only [insertList]
    split
    next hab =>
      refine List.pairwise_cons.2 ⟨fun x hx ↦ ?_, List.pairwise_cons.2 h⟩
      rcases List.mem_cons.1 hx with rfl | hx
      · exact hab
      · exact Std.TransCmp.lt_trans hab (h.1 x hx)
    next => exact List.pairwise_cons.2 h
    next hab =>
      refine List.pairwise_cons.2 ⟨fun x hx ↦ ?_, ih h.2⟩
      rcases mem_insertList.1 hx with rfl | hx
      · exact Std.OrientedCmp.gt_iff_lt.1 hab
      · exact h.1 x hx

/-- Adds a member. -/
def insert (s : OrderedSet α) (a : α) : OrderedSet α :=
  ⟨insertList a s.toList, ascending_insertList s.ascending⟩

@[simp]
theorem mem_insert {a x : α} {s : OrderedSet α} : x ∈ s.insert a ↔ x = a ∨ x ∈ s :=
  mem_insertList

/-- The set of a list's members. -/
def ofList (as : List α) : OrderedSet α :=
  as.foldl insert empty

omit [Std.LawfulEqOrd α] in
theorem list_ext {as bs : List α} (ha : as.Pairwise fun a b ↦ compare a b = .lt)
    (hb : bs.Pairwise fun a b ↦ compare a b = .lt) (h : ∀ x, x ∈ as ↔ x ∈ bs) : as = bs := by
  induction as generalizing bs with
  | nil =>
    cases bs with
    | nil => rfl
    | cons b bs => simpa using h b
  | cons a as ih =>
    cases bs with
    | nil => simpa using h a
    | cons b bs =>
      rw [List.pairwise_cons] at ha hb
      have hirrefl : ∀ x : α, compare x x ≠ .lt := fun x hx ↦ by
        simp at hx
      have hab : a = b := by
        rcases List.mem_cons.1 ((h a).1 (by simp)) with hab | hab
        · exact hab
        · rcases List.mem_cons.1 ((h b).2 (by simp)) with hba | hba
          · exact hba.symm
          · exact absurd (Std.TransCmp.lt_trans (ha.1 b hba) (hb.1 a hab)) (hirrefl a)
      subst hab
      congr 1
      refine ih ha.2 hb.2 fun x ↦ ⟨fun hx ↦ ?_, fun hx ↦ ?_⟩
      · rcases List.mem_cons.1 ((h x).1 (List.mem_cons_of_mem _ hx)) with rfl | hx'
        · exact absurd (ha.1 _ hx) (hirrefl _)
        · exact hx'
      · rcases List.mem_cons.1 ((h x).2 (List.mem_cons_of_mem _ hx)) with rfl | hx'
        · exact absurd (hb.1 _ hx) (hirrefl _)
        · exact hx'

omit [Std.LawfulEqOrd α] in
theorem ext {s t : OrderedSet α} (h : ∀ x, x ∈ s ↔ x ∈ t) : s = t := by
  cases s; cases t
  simp only [mk.injEq]
  exact list_ext ‹_› ‹_› h

end OrderedSet

end SignalBox
