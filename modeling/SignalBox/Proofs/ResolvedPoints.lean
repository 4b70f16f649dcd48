import SignalBox.Proofs.Resolution

/-!
# What a point command is resolved to

A command is resolved by going through the definitions that it means and taking what each of them
adds to it. The main statement (`Layout.resolvePoint?_exact`) says the result without this loop: an
address of the definitions is appended at its first place, unless the command has it already, and
the lock is the one of the command or else of the first definition that has a lock.

* **Addresses** of several definitions are appended as if they were those of one
  (`Layout.addresses_foldl_absorb`).
* **A lock offset** is taken over only while there is none, and a definition without a lock leaves
  it open (`Layout.lockOffset_absorb`).
* **A second resolution** finds all addresses there and the lock decided
  (`Layout.resolvePoint?_of_resolved`).
-/

namespace SignalBox

/-- Commands with the same request differ in their addresses and their lock at most. -/
theorem PointCommand.SameRequest.eq {a b : PointCommand} (h : a.SameRequest b)
    (haddresses : a.addresses = b.addresses) (hlock : a.lockOffset = b.lockOffset) : a = b := by
  obtain ⟨hnumber, hletter, hposition, honRoute⟩ := h
  cases a
  cases b
  simp only [PointCommand.mk.injEq]
  exact ⟨hnumber, hletter, hposition, hlock, honRoute, haddresses⟩

/-- The addresses of a command, and behind them each new one at its first place. -/
theorem mergeAddresses_eq (known added : List Int32) :
    mergeAddresses known added = known ++ (added.filter (· ∉ known)).eraseDups := by
  have hfold := foldl_append_new (· == ·) known added
  simp only [List.any_beq, List.contains_iff_mem] at hfold
  rw [mergeAddresses, hfold, List.eraseDups]
  simp

namespace Layout

variable {l : Layout} {c r : PointCommand}

/-- The definitions that a command means, in the order of the layout: those of its number, and of
its letter if it names one. -/
def definitionsOf (l : Layout) (c : PointCommand) : List PointDefinition :=
  l.points.filter fun d ↦ d.number = c.number ∧ (c.subPoint = none ∨ d.subPoint = c.subPoint)

/-- The addresses for the position that a command asks for, in the order of the definitions. -/
def addressesOf (l : Layout) (c : PointCommand) : List Int32 :=
  (l.definitionsOf c).flatMap (·.addressesFor c.position)

/-- The first lock offset of the definitions; an offset below the least one is none. -/
def lockOffsetOf? (l : Layout) (c : PointCommand) : Option UInt32 :=
  ((l.definitionsOf c).map (·.lockOffset)).find? (PointCommand.minLockOffset ≤ ·)

/-! ### What the definitions add -/

theorem filter_means (l : Layout) (c : PointCommand) :
    l.points.filter (means c) = l.definitionsOf c := by
  exact List.filter_congr fun d _ ↦ Bool.eq_iff_iff.2 (by simp [means])

/-- What is meant depends on the number and the letter. -/
theorem definitionsOf_congr (hnumber : r.number = c.number) (hletter : r.subPoint = c.subPoint) :
    l.definitionsOf r = l.definitionsOf c := by
  rw [definitionsOf, definitionsOf, hnumber, hletter]

theorem definitionsOf_eq_nil_iff : l.definitionsOf c = [] ↔
    ∀ d ∈ l.points, ¬ (d.number = c.number ∧ (c.subPoint = none ∨ d.subPoint = c.subPoint)) := by
  simp [definitionsOf, List.filter_eq_nil_iff]

theorem mergeAddresses_append (known first second : List Int32) :
    mergeAddresses known (first ++ second) = mergeAddresses (mergeAddresses known first) second :=
  List.foldl_append

/-- **Addresses** of several definitions are merged one by one as they are all at once. -/
theorem addresses_foldl_absorb (definitions : List PointDefinition) (c : PointCommand) :
    (definitions.foldl absorb c).addresses =
      mergeAddresses c.addresses (definitions.flatMap (·.addressesFor c.position)) := by
  induction definitions generalizing c with
  | nil => rfl
  | cons d definitions ih =>
    rw [List.foldl_cons, ih, absorb_addresses, (absorb_sameRequest c d).position,
      List.flatMap_cons, mergeAddresses_append]

/-- **One definition** gives its lock offset to a command that has none, if it has a lock. -/
theorem lockOffset_absorb (c : PointCommand) (d : PointDefinition) :
    (absorb c d).lockOffset =
      c.lockOffset.or (if PointCommand.minLockOffset ≤ d.lockOffset then some d.lockOffset
        else none) := by
  rw [absorb]
  cases hlock : c.lockOffset with
  | some offset =>
    rw [if_neg (by simp), Option.some_or]
    exact hlock
  | none =>
    rw [Option.none_or]
    by_cases hpos : 0 < d.lockOffset
    · rw [if_pos ⟨hpos, rfl⟩]
      rfl
    · -- an offset of zero is below the least one
      have hzero : ¬ PointCommand.minLockOffset ≤ d.lockOffset := fun hmin ↦
        hpos (UInt32.lt_of_lt_of_le (by decide) hmin)
      rw [if_neg (fun h ↦ hpos h.1), if_neg hzero]
      exact hlock

theorem lockOffset_foldl_absorb (definitions : List PointDefinition) (c : PointCommand) :
    (definitions.foldl absorb c).lockOffset =
      c.lockOffset.or
        ((definitions.map (·.lockOffset)).find? (PointCommand.minLockOffset ≤ ·)) := by
  induction definitions generalizing c with
  | nil => simp
  | cons d definitions ih =>
    rw [List.foldl_cons, ih, lockOffset_absorb, Option.or_assoc, List.map_cons]
    by_cases hlock : PointCommand.minLockOffset ≤ d.lockOffset
    · rw [if_pos hlock, List.find?_cons_of_pos (by simpa using hlock), Option.some_or]
    · rw [if_neg hlock, List.find?_cons_of_neg (by simpa using hlock), Option.none_or]

/-! ### Resolution -/

theorem resolvePoint?_eq_none_iff : l.resolvePoint? c = none ↔ l.definitionsOf c = [] := by
  rw [resolvePoint?, filter_means]
  split
  next h => simp [h]
  next h => simpa using h

/-- **What is added** to a command that is resolved. -/
theorem resolved_eq (h : l.resolvePoint? c = some r) :
    r.addresses = mergeAddresses c.addresses (l.addressesOf c) ∧
      r.lockOffset = c.lockOffset.or (l.lockOffsetOf? c) := by
  obtain ⟨-, rfl⟩ := resolvePoint?_eq_some_iff.1 h
  rw [filter_means]
  exact ⟨addresses_foldl_absorb _ c, lockOffset_foldl_absorb _ c⟩

/-- **The locks** of a command that brings none are the addresses of the definitions, moved by their
first offset. -/
theorem lockAddresses_of_resolved (h : l.resolvePoint? c = some r) (hbare : c.Bare) :
    r.lockAddresses = (l.lockOffsetOf? c).elim [] fun offset ↦
      (l.addressesOf c).eraseDups.map (PointCommand.lockAddress offset) := by
  obtain ⟨haddresses, hlock⟩ := resolved_eq h
  rw [hbare.lockOffset_eq, Option.none_or] at hlock
  have hnew : r.addresses = (l.addressesOf c).eraseDups := by
    rw [haddresses, hbare.addresses_eq, mergeAddresses_eq]
    simp
  rw [PointCommand.lockAddresses, hlock, hnew]
  cases l.lockOffsetOf? c <;> rfl

/-- **A resolved command** is resolved to itself. -/
theorem resolvePoint?_of_resolved (h : l.resolvePoint? c = some r) :
    l.resolvePoint? r = some r := by
  have hsame := sameRequest_of_resolvePoint? h
  obtain ⟨haddresses, hlock⟩ := resolved_eq h
  have hdefinitions : l.definitionsOf r = l.definitionsOf c :=
    definitionsOf_congr hsame.number hsame.subPoint
  obtain ⟨again, hagain⟩ : ∃ again, l.resolvePoint? r = some again := by
    refine Option.ne_none_iff_exists'.1 fun hnone ↦ ?_
    rw [resolvePoint?_eq_none_iff, hdefinitions, ← resolvePoint?_eq_none_iff, h] at hnone
    cases hnone
  obtain ⟨haddresses', hlock'⟩ := resolved_eq hagain
  have hknown : ∀ a ∈ l.addressesOf r, a ∈ r.addresses := by
    intro a ha
    rw [addressesOf, hdefinitions, hsame.position] at ha
    rw [haddresses, mem_mergeAddresses]
    exact .inr ha
  refine hagain.trans (congrArg some ((sameRequest_of_resolvePoint? hagain).eq ?_ ?_))
  · have hnew : (l.addressesOf r).filter (· ∉ r.addresses) = [] :=
      List.filter_eq_nil_iff.2 fun a ha ↦ by simpa using hknown a ha
    rw [haddresses', mergeAddresses_eq, hnew, List.eraseDups_nil, List.append_nil]
  · rw [hlock', lockOffsetOf?, hdefinitions, ← lockOffsetOf?, hlock, Option.or_assoc,
      Option.or_self]

/-- **Resolution.** A command is not resolved exactly if the layout has no definition of its number
and, if it names one, its letter. Otherwise it keeps its number, letter, position and side of the
route, its own addresses are followed by each new address of the definitions at its first place, it
keeps its lock or else has the first one of the definitions, and resolving it again changes nothing.
-/
theorem resolvePoint?_exact (l : Layout) (c : PointCommand) :
    (l.resolvePoint? c = none ↔
      ∀ d ∈ l.points, ¬ (d.number = c.number ∧ (c.subPoint = none ∨ d.subPoint = c.subPoint))) ∧
    ∀ r, l.resolvePoint? c = some r →
      r.SameRequest c ∧
      r.addresses = c.addresses ++ ((l.addressesOf c).filter (· ∉ c.addresses)).eraseDups ∧
      r.lockOffset = c.lockOffset.or (l.lockOffsetOf? c) ∧
      l.resolvePoint? r = some r := by
  refine ⟨resolvePoint?_eq_none_iff.trans definitionsOf_eq_nil_iff, fun r h ↦ ?_⟩
  obtain ⟨haddresses, hlock⟩ := resolved_eq h
  exact ⟨sameRequest_of_resolvePoint? h, haddresses.trans (mergeAddresses_eq _ _), hlock,
    resolvePoint?_of_resolved h⟩

/-- Two sub-points, one of them defined twice and one with an offset that is none, and a point of
another number between them. The command has one of the addresses already. -/
theorem resolvePoint?_exact_of_two_sub_points :
    let l := junction [.linked "27a" [12, 34, 12] [13] 50, .linked "28" [50] [51] 300,
      .linked "27b" [34, -12, 7] [35] 120, .linked "27b" [40] [41] 200]
    let c := { PointCommand.flank 27 .straight with addresses := [7] }
    ∃ r, l.resolvePoint? c = some r ∧ r.SameRequest c ∧ r.addresses = [7, 12, 34, -12, 40] ∧
      r.lockOffset = some 120 ∧ l.resolvePoint? r = some r := by
  intro l c
  obtain ⟨r, hr⟩ : ∃ r, l.resolvePoint? c = some r :=
    Option.isSome_iff_exists.1 (by decide +kernel)
  obtain ⟨hsame, haddresses, hlock, hagain⟩ := (resolvePoint?_exact l c).2 r hr
  exact ⟨r, hr, hsame, haddresses.trans (by decide +kernel), hlock.trans (by decide +kernel),
    hagain⟩

end Layout

end SignalBox
