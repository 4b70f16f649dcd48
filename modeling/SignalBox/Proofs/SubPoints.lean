import SignalBox.Dispatch.Positions
import SignalBox.Proofs.Resolution

/-!
# Sub-points and their records

Positions are recorded under the number and the letter of a sub-point. A command without a letter is
for all sub-points of its number, so one command may write several records, and all of them get the
position that was asked for (`Positions.get?_recordAll`). Which records these are is said by the
layout: they are those of the definitions that the command means (`Layout.key_mem_keysOf_iff`).
-/

namespace SignalBox

/-- The key under which the position of a sub-point is recorded. -/
def PointDefinition.key (d : PointDefinition) : PointKey :=
  ⟨d.number, d.subPoint⟩

namespace Positions

variable {p : Positions} {position : Position} {key other : PointKey} {keys : List PointKey}

theorem lookup_filter_ne (entries : List (PointKey × Position)) (h : other ≠ key) :
    (entries.filter fun e ↦ e.1 != key).lookup other = entries.lookup other := by
  induction entries with
  | nil => rfl
  | cons e entries ih =>
    obtain ⟨k, q⟩ := e
    by_cases hk : k = key
    · subst hk
      rw [List.filter_cons_of_neg (by simp), ih, List.lookup_cons, beq_eq_false_iff_ne.2 h]
    · rw [List.filter_cons_of_pos (by simpa using hk), List.lookup_cons, List.lookup_cons, ih]

/-- A record replaces an earlier one under the same key. -/
theorem get?_record :
    (p.record position key).get? other = if other = key then some position else p.get? other := by
  show List.lookup other ((key, position) :: _) = _
  rw [List.lookup_cons]
  by_cases h : other = key
  · rw [if_pos h, beq_iff_eq.2 h]
  · rw [if_neg h, beq_eq_false_iff_ne.2 h]
    exact lookup_filter_ne p.entries h

/-- **Records of a command**: its keys get the position, and the other keys keep theirs. -/
theorem get?_recordAll :
    (p.recordAll position keys).get? other =
      if other ∈ keys then some position else p.get? other := by
  rw [recordAll]
  induction keys generalizing p with
  | nil => simp
  | cons key keys ih =>
    rw [List.foldl_cons, ih, get?_record]
    by_cases hkeys : other ∈ keys
    · rw [if_pos hkeys, if_pos (List.mem_cons_of_mem _ hkeys)]
    · rw [if_neg hkeys]
      by_cases hkey : other = key
      · rw [if_pos hkey, if_pos (hkey ▸ List.mem_cons_self)]
      · rw [if_neg hkey, if_neg (by simp [hkey, hkeys])]

end Positions

namespace Layout

variable {l : Layout} {c : PointCommand} {d : PointDefinition}

/-- **The keys of a command** are those of the definitions that it means. -/
theorem key_mem_keysOf_iff (hd : d ∈ l.points) :
    d.key ∈ Positions.keysOf l c ↔ means c d = true := by
  simp only [Positions.keysOf, subPoints, PointDefinition.key, means, List.mem_map,
    PointKey.mk.injEq, Bool.and_eq_true, beq_iff_eq, Bool.or_eq_true]
  cases hletter : c.subPoint with
  | some letter =>
    simp only [List.mem_singleton, exists_eq_left, Option.isNone_some, Bool.false_eq_true,
      false_or]
    exact ⟨fun ⟨hn, hs⟩ ↦ ⟨hn.symm, hs.symm⟩, fun ⟨hn, hs⟩ ↦ ⟨hn.symm, hs.symm⟩⟩
  | none =>
    simp only [mem_distinct, List.mem_map, pointsNumbered, List.mem_filter, beq_iff_eq,
      Option.isNone_none, true_or, and_true]
    constructor
    · rintro ⟨s, -, hn, -⟩
      exact hn.symm
    · intro hn
      exact ⟨d.subPoint, ⟨d, ⟨hd, hn⟩, rfl⟩, hn.symm, rfl⟩

theorem keysOf_of_sameRequest {r : PointCommand} (h : r.SameRequest c) :
    Positions.keysOf l r = Positions.keysOf l c := by
  rw [Positions.keysOf, Positions.keysOf, subPoints, subPoints, h.number, h.subPoint]

end Layout

end SignalBox
