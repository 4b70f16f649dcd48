import SignalBox.Proofs.Numerals

/-!
# Numerals with a sign

A plus or minus sign that may be left out, and a run of digits behind it (`IsSigned`): the rows and
columns of coordinates are written so, and so are the tracks of the turntable. There is one way only
to take such a text apart, which is to look at its first character (`isSigned_iff`). Whoever reads
one therefore has to say just what is made of the two parts.

An integer is read if such a text spells it (`integer?_eq_some_iff`), and one of 32 bits if it lies
within them (`int32?_eq_some_iff`). What is printed of an integer spells it
(`spells_integerDigits`).
-/

namespace SignalBox.Decimal

variable {sign : Option Char} {digits text : List Char}

/-- A text consists of a sign, which may be left out, and a run of digits. -/
structure IsSigned (sign : Option Char) (digits text : List Char) : Prop where
  text_eq : text = sign.toList ++ digits
  isSign : ∀ c ∈ sign, c = '+' ∨ c = '-'
  isRun : IsRun digits

/-- Takes a sign off the front of a text. -/
def splitSign : List Char → Option Char × List Char
  | '+' :: cs => (some '+', cs)
  | '-' :: cs => (some '-', cs)
  | cs => (none, cs)

/-- **A text is taken apart** behind its sign, for which only the first character is looked at. -/
theorem isSigned_iff :
    IsSigned sign digits text ↔ splitSign text = (sign, digits) ∧ IsRun digits := by
  constructor
  · rintro ⟨rfl, hsign, hrun⟩
    refine ⟨?_, hrun⟩
    cases sign with
    | some c => rcases hsign c rfl with rfl | rfl <;> rfl
    | none =>
      -- a run begins with a digit, which is no sign
      rw [Option.toList_none, List.nil_append, splitSign.eq_def]
      split
      · exact absurd (hrun.isDigit '+' List.mem_cons_self) (by decide)
      · exact absurd (hrun.isDigit '-' List.mem_cons_self) (by decide)
      · rfl
  · rintro ⟨h, hrun⟩
    rw [splitSign.eq_def] at h
    split at h <;> obtain ⟨rfl, rfl⟩ := Prod.mk.inj h
    · exact ⟨rfl, by simp, hrun⟩
    · exact ⟨rfl, by simp, hrun⟩
    · exact ⟨rfl, by simp, hrun⟩

/-! ### Integers -/

/-- The integer that a sign and digits stand for. -/
def signed (sign : Option Char) (digits : List Char) : Int :=
  if sign = some '-' then -(magnitude digits : Int) else magnitude digits

/-- The text is a sign, which may be left out, and digits, which stand for the integer. -/
def Spells (text : List Char) (i : Int) : Prop :=
  ∃ sign digits, IsSigned sign digits text ∧ i = signed sign digits

/-- A spelled integer consists of digits and a sign. -/
theorem Spells.of_mem {i : Int} {c : Char} (h : Spells text i) (hc : c ∈ text) :
    c.isDigit = true ∨ c = '+' ∨ c = '-' := by
  obtain ⟨sign, digits, ⟨rfl, hsign, hrun⟩, -⟩ := h
  rcases List.mem_append.1 hc with hc | hc
  · exact .inr (hsign c (Option.mem_toList.1 hc))
  · exact .inl (hrun.isDigit c hc)

theorem spells_iff {i : Int} :
    Spells text i ↔
      IsRun (splitSign text).2 ∧ i = signed (splitSign text).1 (splitSign text).2 := by
  simp only [Spells, isSigned_iff]
  constructor
  · rintro ⟨sign, digits, ⟨hsplit, hrun⟩, rfl⟩
    rw [hsplit]
    exact ⟨hrun, rfl⟩
  · rintro ⟨hrun, hi⟩
    exact ⟨_, _, ⟨rfl, hrun⟩, hi⟩

theorem integer?_eq (text : List Char) :
    integer? text = (ofDigits? (splitSign text).2).map fun n : Nat ↦
      if (splitSign text).1 = some '-' then -(n : Int) else n := by
  fun_cases splitSign text with
  | case1 cs => rfl
  | case2 cs => rfl
  | case3 _ hplus hminus =>
    rw [integer?.eq_3 _ hplus hminus]
    rfl

/-- **An integer is read** if the text spells it. -/
theorem integer?_eq_some_iff {i : Int} : integer? text = some i ↔ Spells text i := by
  rw [integer?_eq, spells_iff, Option.map_eq_some_iff]
  simp only [ofDigits?_eq_some_iff]
  constructor
  · rintro ⟨n, ⟨hrun, rfl⟩, rfl⟩
    exact ⟨hrun, rfl⟩
  · rintro ⟨hrun, rfl⟩
    exact ⟨_, ⟨hrun, rfl⟩, rfl⟩

/-- **An integer of 32 bits is read** if the text spells it. -/
theorem int32?_eq_some_iff {n : Int32} : int32? text = some n ↔ Spells text n.toInt := by
  rw [int32?, Option.bind_eq_some_iff]
  simp only [integer?_eq_some_iff, Option.ite_none_right_eq_some, Option.some.injEq]
  constructor
  · rintro ⟨i, hspells, hbounds, rfl⟩
    rwa [Int32.toInt_ofInt_of_le hbounds.1 (Int.lt_of_le_of_lt hbounds.2 (by decide))]
  · intro hspells
    exact ⟨_, hspells, ⟨n.minValue_le_toInt, n.toInt_le⟩, n.ofInt_toInt⟩

/-- The text spells an integer of 32 bits. -/
def FitsInt32 (text : List Char) : Prop :=
  ∃ i, Spells text i ∧ -2 ^ 31 ≤ i ∧ i < 2 ^ 31

theorem fitsInt32_iff : FitsInt32 text ↔ ∃ n : Int32, Spells text n.toInt := by
  constructor
  · rintro ⟨i, hspells, hmin, hmax⟩
    exact ⟨Int32.ofInt i, by rwa [Int32.toInt_ofInt_of_le hmin hmax]⟩
  · rintro ⟨n, hspells⟩
    exact ⟨_, hspells, n.le_toInt, n.toInt_lt⟩

/-- **What is printed** of an integer spells it. -/
theorem spells_integerDigits (i : Int) : Spells (integerDigits i) i := by
  cases i with
  | ofNat n =>
    refine ⟨none, Decimal.digits n, ⟨rfl, by simp, isRun_digits n⟩, ?_⟩
    rw [signed, magnitude_digits]
    rfl
  | negSucc n =>
    refine ⟨some '-', Decimal.digits (n + 1), ⟨rfl, by simp, isRun_digits (n + 1)⟩, ?_⟩
    rw [signed, magnitude_digits]
    rfl

end SignalBox.Decimal
