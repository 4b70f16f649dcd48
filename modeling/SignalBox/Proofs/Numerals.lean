import Mathlib.Data.List.Induction
import Mathlib.Data.Nat.Digits.Defs
import SignalBox.Text.Decimal

/-!
# What runs of digits stand for

A run of decimal digits stands for its value, and for 0 if there is no digit or the value does not
fit into 32 bits (`numeral`). This is what the console reads a run as (`word_eq_numeral`). The
digits that are printed of a number stand for it (`magnitude_digits`).

A run that is a part of another has at most its value (`magnitude_le_of_isInfix`), so one that is
too large makes every run around it unreadable (`numeral_eq_zero_of_isInfix`). Where characters that
are no digits stand between the runs of a text, a run is a part of one of them
(`isInfix_or_isInfix`).
-/

namespace SignalBox

theorem isDigit_iff {c : Char} : c.isDigit = true ↔ 48 ≤ c.toNat ∧ c.toNat ≤ 57 := by
  simp [Char.isDigit, UInt32.le_iff_toNat_le]

namespace Decimal

/-- The value of a run of decimal digits, most significant first. -/
def magnitude (run : List Char) : Nat :=
  Nat.ofDigits 10 (run.reverse.map fun c ↦ c.toNat - '0'.toNat)

/-- What a run of decimal digits stands for as a number of 32 bits: its value, or 0 if that is too
large. The empty run has the value 0. -/
def numeral (run : List Char) : UInt32 :=
  if magnitude run < UInt32.size then UInt32.ofNat (magnitude run) else 0

/-- A run of digits: there is at least one, and nothing else. -/
structure IsRun (run : List Char) : Prop where
  ne_nil : run ≠ []
  isDigit : ∀ c ∈ run, c.isDigit = true

variable {run text : List Char}

theorem magnitude_append (xs ys : List Char) :
    magnitude (xs ++ ys) = magnitude xs * 10 ^ ys.length + magnitude ys := by
  rw [magnitude, List.reverse_append, List.map_append, Nat.ofDigits_append, List.length_map,
    List.length_reverse, Nat.add_comm, Nat.mul_comm]
  rfl

theorem value_eq_magnitude (cs : List Char) : value cs = magnitude cs := by
  induction cs using List.reverseRecOn with
  | nil => rfl
  | append_singleton cs c ih =>
    rw [value_append_singleton, ih, magnitude_append, Nat.mul_comm]
    show _ = _ + Nat.ofDigits 10 [digitValue c]
    rw [Nat.ofDigits_singleton]
    rfl

/-- **A run is read** as what it stands for, the empty one among them. -/
theorem word_eq_numeral (h : ∀ c ∈ run, c.isDigit = true) : word run = numeral run := by
  rw [word, word?, ofDigits?]
  by_cases hrun : run = []
  · subst hrun
    rfl
  · have hall : run.all Char.isDigit = true := List.all_eq_true.2 h
    rw [hall, Bool.and_true, if_pos (by simpa using hrun), Option.bind_some, value_eq_magnitude,
      numeral]
    split <;> rfl

theorem map_word_eq_map_numeral {runs : List (List Char)}
    (h : ∀ run ∈ runs, ∀ c ∈ run, c.isDigit = true) : runs.map word = runs.map numeral :=
  List.map_congr_left fun run hrun ↦ word_eq_numeral (h run hrun)

/-- **A run and nothing else** is read as a number, which is its value. -/
theorem ofDigits?_eq_some_iff {n : Nat} :
    ofDigits? run = some n ↔ IsRun run ∧ n = magnitude run := by
  rw [ofDigits?, Option.ite_none_right_eq_some, Bool.and_eq_true, List.all_eq_true,
    value_eq_magnitude, Option.some.injEq, eq_comm (a := n)]
  refine and_congr_left fun _ ↦ ⟨fun h ↦ ⟨by simpa using h.1, h.2⟩, fun h ↦ ?_⟩
  exact ⟨by simpa using h.ne_nil, h.isDigit⟩

/-! ### The digits of a number -/

theorem magnitude_digits (n : Nat) : magnitude (digits n) = n := by
  rw [← value_eq_magnitude, value_digits]

/-- **The digits of a number** of 32 bits stand for it. -/
theorem numeral_digits (n : UInt32) : numeral (digits n.toNat) = n := by
  rw [numeral, magnitude_digits, if_pos n.toNat_lt, UInt32.ofNat_toNat]

theorem isRun_digits (n : Nat) : IsRun (digits n) :=
  ⟨digits_ne_nil n, List.all_eq_true.1 (all_isDigit_digits n)⟩

/-! ### Runs that are too large -/

theorem magnitude_le_of_isInfix (h : run <:+: text) : magnitude run ≤ magnitude text := by
  obtain ⟨before, after, rfl⟩ := h
  have hpos : 0 < 10 ^ after.length := Nat.pow_pos (by decide)
  rw [magnitude_append, magnitude_append]
  calc magnitude run
      ≤ magnitude before * 10 ^ run.length + magnitude run := Nat.le_add_left _ _
    _ ≤ (magnitude before * 10 ^ run.length + magnitude run) * 10 ^ after.length :=
      Nat.le_mul_of_pos_right _ hpos
    _ ≤ _ := Nat.le_add_right _ _

/-- A run around one that is too large stands for 0. -/
theorem numeral_eq_zero_of_isInfix (h : run <:+: text) (hlarge : UInt32.size ≤ magnitude run) :
    numeral text = 0 :=
  if_neg (Nat.not_lt.2 (Nat.le_trans hlarge (magnitude_le_of_isInfix h)))

/-- The front of a text that does not have one of its characters ends before it. -/
theorem prefix_of_prefix_append_cons {c : Char} {before after : List Char} (hc : c ∉ run)
    (h : run <+: before ++ c :: after) : run <+: before := by
  induction before generalizing run with
  | nil =>
    rcases List.prefix_cons_iff.1 h with rfl | ⟨rest, rfl, -⟩
    · exact List.nil_prefix
    · exact absurd List.mem_cons_self hc
  | cons b before ih =>
    rcases List.prefix_cons_iff.1 h with rfl | ⟨rest, rfl, hrest⟩
    · exact List.nil_prefix
    · have hprefix := ih (fun hmem ↦ hc (List.mem_cons_of_mem b hmem)) hrest
      exact (List.prefix_cons_inj b).2 hprefix

/-- A part of a text that does not have one of its characters lies on one side of it. -/
theorem isInfix_or_isInfix {c : Char} {before after : List Char} (hc : c ∉ run)
    (h : run <:+: before ++ c :: after) : run <:+: before ∨ run <:+: after := by
  induction before with
  | nil =>
    rcases List.infix_cons_iff.1 h with h | h
    · exact .inl (prefix_of_prefix_append_cons hc h).isInfix
    · exact .inr h
  | cons b before ih =>
    rcases List.infix_cons_iff.1 h with h | h
    · exact .inl (prefix_of_prefix_append_cons hc h).isInfix
    · exact (ih h).imp_left List.infix_cons

end Decimal

end SignalBox
