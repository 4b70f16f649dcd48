import SignalBox.Proofs.ResolvedPoints

/-!
# The locks of a whole point

A command without a letter means all sub-points of a point. It has the addresses of all of them but
only one lock offset, that of the first definition with a lock, and adds it to every address. A
sub-point has its own locks when it is commanded by its letter, or none. The main statement
(`Layout.locksAgree_iff`) says when both ways lead to the same locks: exactly if those addresses
make no difference whose sub-point has another offset than the whole point.

* **The locks of a command** are its addresses moved by its offset (`Layout.mem_locksOf`).
* **The addresses of a whole point** are those of its sub-points
  (`Layout.mem_addressesOf_iff_subPoints`).
-/

namespace SignalBox

/-- The command for one of the sub-points of a point. -/
def PointCommand.part (c : PointCommand) (letter : Option Char) : PointCommand :=
  { c with subPoint := letter }

theorem PointCommand.Bare.part {c : PointCommand} (h : c.Bare) (letter : Option Char) :
    (c.part letter).Bare :=
  ⟨h.addresses_eq, h.lockOffset_eq⟩

namespace Layout

variable {l : Layout} {c : PointCommand}

/-- The locks that a command drives once it is resolved. -/
def locksOf (l : Layout) (c : PointCommand) : List Int32 :=
  (l.resolvePoint? c).elim [] (·.lockAddresses)

/-- The locks of a whole point are those of its sub-points. -/
def LocksAgree (l : Layout) (c : PointCommand) : Prop :=
  ∀ lock, lock ∈ l.locksOf c ↔ ∃ letter ∈ l.subPoints c, lock ∈ l.locksOf (c.part letter)

/-- **The locks** of a command that brings none are the addresses of the definitions, moved by their
first offset. -/
theorem mem_locksOf (hbare : c.Bare) {lock : Int32} :
    lock ∈ l.locksOf c ↔ ∃ offset ∈ l.lockOffsetOf? c, ∃ a ∈ l.addressesOf c,
      PointCommand.lockAddress offset a = lock := by
  rw [locksOf]
  cases h : l.resolvePoint? c with
  | none =>
    have hnone : l.addressesOf c = [] := by
      rw [addressesOf, resolvePoint?_eq_none_iff.1 h, List.flatMap_nil]
    simp [hnone]
  | some r =>
    rw [Option.elim_some, lockAddresses_of_resolved h hbare]
    cases l.lockOffsetOf? c <;> simp

theorem lockAddress_mem_locksOf (hbare : c.Bare) {offset : UInt32} {a : Int32}
    (hoffset : offset ∈ l.lockOffsetOf? c) (ha : a ∈ l.addressesOf c) :
    PointCommand.lockAddress offset a ∈ l.locksOf c :=
  (mem_locksOf hbare).2 ⟨offset, hoffset, a, ha, rfl⟩

/-- **The sub-points** of a whole point are those of the definitions. -/
theorem mem_subPoints (hwhole : c.subPoint = none) {letter : Option Char} :
    letter ∈ l.subPoints c ↔ ∃ d ∈ l.definitionsOf c, d.subPoint = letter := by
  rw [subPoints, hwhole, mem_distinct, List.mem_map]
  simp [definitionsOf, pointsNumbered, hwhole]

/-- A definition is meant by the command for its own sub-point. -/
theorem mem_definitionsOf_part {d : PointDefinition} (hd : d ∈ l.definitionsOf c) :
    d ∈ l.definitionsOf (c.part d.subPoint) := by
  simp only [definitionsOf, List.mem_filter, decide_eq_true_eq] at hd ⊢
  exact ⟨hd.1, hd.2.1, .inr rfl⟩

theorem definitionsOf_part_subset (hwhole : c.subPoint = none) (letter : Option Char) :
    l.definitionsOf (c.part letter) ⊆ l.definitionsOf c := by
  intro d hd
  simp only [definitionsOf, List.mem_filter, decide_eq_true_eq] at hd ⊢
  exact ⟨hd.1, hd.2.1, .inl hwhole⟩

/-- **The addresses** of a whole point are those of its sub-points. -/
theorem mem_addressesOf_iff_subPoints (hwhole : c.subPoint = none) {a : Int32} :
    a ∈ l.addressesOf c ↔ ∃ letter ∈ l.subPoints c, a ∈ l.addressesOf (c.part letter) := by
  simp only [addressesOf, List.mem_flatMap]
  constructor
  · rintro ⟨d, hd, ha⟩
    exact ⟨d.subPoint, (mem_subPoints hwhole).2 ⟨d, hd, rfl⟩, d,
      mem_definitionsOf_part hd, ha⟩
  · rintro ⟨letter, -, d, hd, ha⟩
    exact ⟨d, definitionsOf_part_subset hwhole letter hd, ha⟩

/-- The command for a sub-point is resolved. -/
theorem exists_resolvePoint?_part (hwhole : c.subPoint = none) {letter : Option Char}
    (hletter : letter ∈ l.subPoints c) : ∃ r, l.resolvePoint? (c.part letter) = some r := by
  obtain ⟨d, hd, rfl⟩ := (mem_subPoints hwhole).1 hletter
  refine Option.ne_none_iff_exists'.1 fun hnone ↦ ?_
  exact List.ne_nil_of_mem (mem_definitionsOf_part hd) (resolvePoint?_eq_none_iff.1 hnone)

/-- **Whole points.** A command without a letter and those for its sub-points are all resolved
together. The locks that it drives are those that they drive if and only if the following holds at
each address whose sub-point has another offset, or no lock: what the offset of the whole point
makes of it is the lock of some sub-point, and what that of the sub-point makes of it is a lock of
the whole point. -/
theorem locksAgree_iff (hwhole : c.subPoint = none) (hbare : c.Bare) :
    (∀ letter ∈ l.subPoints c, ∃ r, l.resolvePoint? (c.part letter) = some r) ∧
    (l.LocksAgree c ↔
      ∀ letter ∈ l.subPoints c, l.lockOffsetOf? (c.part letter) ≠ l.lockOffsetOf? c →
        ∀ a ∈ l.addressesOf (c.part letter),
          (∀ offset ∈ l.lockOffsetOf? c, ∃ other ∈ l.subPoints c,
            PointCommand.lockAddress offset a ∈ l.locksOf (c.part other)) ∧
          ∀ offset ∈ l.lockOffsetOf? (c.part letter),
            PointCommand.lockAddress offset a ∈ l.locksOf c) := by
  refine ⟨fun letter hletter ↦ exists_resolvePoint?_part hwhole hletter, fun hagree ↦ ?_,
    fun hothers lock ↦ ⟨fun hlock ↦ ?_, ?_⟩⟩
  · intro letter hletter _ a ha
    have hwholeAddress : a ∈ l.addressesOf c :=
      (mem_addressesOf_iff_subPoints hwhole).2 ⟨letter, hletter, ha⟩
    constructor
    · intro offset hoffset
      exact (hagree _).1 (lockAddress_mem_locksOf hbare hoffset hwholeAddress)
    · intro offset hoffset
      exact (hagree _).2 ⟨letter, hletter, lockAddress_mem_locksOf (hbare.part letter) hoffset ha⟩
  · obtain ⟨offset, hoffset, a, ha, rfl⟩ := (mem_locksOf hbare).1 hlock
    obtain ⟨letter, hletter, ha⟩ := (mem_addressesOf_iff_subPoints hwhole).1 ha
    by_cases hsame : l.lockOffsetOf? (c.part letter) = l.lockOffsetOf? c
    · rw [← hsame] at hoffset
      exact ⟨letter, hletter, lockAddress_mem_locksOf (hbare.part letter) hoffset ha⟩
    · exact (hothers letter hletter hsame a ha).1 offset hoffset
  · rintro ⟨letter, hletter, hlock⟩
    obtain ⟨offset, hoffset, a, ha, rfl⟩ := (mem_locksOf (hbare.part letter)).1 hlock
    by_cases hsame : l.lockOffsetOf? (c.part letter) = l.lockOffsetOf? c
    · rw [hsame] at hoffset
      exact lockAddress_mem_locksOf hbare hoffset
        ((mem_addressesOf_iff_subPoints hwhole).2 ⟨letter, hletter, ha⟩)
    · exact (hothers letter hletter hsame a ha).2 offset hoffset

/-- One sub-point has no lock, but shares its only address with one that has. -/
theorem locksAgree_iff_of_shared_address :
    let l := junction [.linked "27a" [12] [13] 0, .linked "27b" [-34, 12] [-35] 100]
    let c := PointCommand.plain 27 .straight
    c.subPoint = none ∧ c.Bare ∧ l.subPoints c = [some 'a', some 'b'] ∧ l.LocksAgree c ∧
      l.locksOf c = [112, 134] := by
  intro l c
  have hbare : c.Bare := ⟨rfl, rfl⟩
  have hletters : l.subPoints c = [some 'a', some 'b'] := by decide +kernel
  have hlocks : (112 : Int32) ∈ l.locksOf (c.part (some 'b')) := by decide +kernel
  refine ⟨rfl, hbare, hletters, (locksAgree_iff rfl hbare).2.2 fun letter hletter hother a ha ↦ ?_,
    by decide +kernel⟩
  rw [hletters, List.mem_pair] at hletter
  rcases hletter with rfl | rfl
  · -- the lock of the whole point at the shared address is that of the other sub-point
    have hoffset : l.lockOffsetOf? (c.part (some 'a')) = none := by decide +kernel
    obtain rfl : a = 12 := by
      rwa [show l.addressesOf (c.part (some 'a')) = [12] by decide +kernel, List.mem_singleton]
        at ha
    refine ⟨fun offset h ↦ ⟨some 'b', hletters ▸ by simp, ?_⟩, by simp [hoffset]⟩
    obtain rfl : 100 = offset :=
      Option.some.inj ((show l.lockOffsetOf? c = some 100 by decide +kernel).symm.trans h)
    exact hlocks
  · exact absurd (by decide +kernel) hother

/-- Of three sub-points the first has no lock and the other two have different offsets: the whole
point drives locks that none of them has, and misses one. -/
theorem not_locksAgree_of_mixed_offsets :
    let l := junction [.linked "27a" [12] [13] 0, .linked "27b" [14] [15] 100,
      .linked "27c" [16] [17] 200]
    let c := PointCommand.plain 27 .straight
    (∀ d ∈ l.points, d.number = 27 ∧ d.subPoint ≠ none) ∧
      l.locksOf c = [112, 114, 116] ∧ l.locksOf (c.part (some 'a')) = [] ∧
      l.locksOf (c.part (some 'b')) = [114] ∧ l.locksOf (c.part (some 'c')) = [216] ∧
      ¬ l.LocksAgree c := by
  intro l c
  refine ⟨by decide +kernel, by decide +kernel, by decide +kernel, by decide +kernel,
    by decide +kernel, fun hagree ↦ ?_⟩
  have hmissed : (216 : Int32) ∉ l.locksOf c := by decide +kernel
  exact hmissed ((hagree 216).2 ⟨some 'c', by decide +kernel, by decide +kernel⟩)

end Layout

end SignalBox
