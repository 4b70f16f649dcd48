/-!
# Decimal numerals

Numbers are shown and typed as ASCII decimal numerals. `digits` writes a natural number without
leading zeros, `value` reads a run of digits in any form, and `value_digits` says that what was
written is read back. `ofDigits?` is the reader that refuses an empty run or a foreign character;
`word` and `int32?` narrow it to the widths that the yard uses.
-/

namespace SignalBox.Decimal

/-- The character of a digit below ten. -/
def digitChar (d : Nat) : Char :=
  Char.ofNat (48 + d)

/-- The value of a digit character. -/
def digitValue (c : Char) : Nat :=
  c.toNat - 48

/-- The decimal digits of a number, most significant first. -/
def digits (n : Nat) : List Char :=
  if n < 10 then [digitChar n] else digits (n / 10) ++ [digitChar (n % 10)]

/-- The value of a run of digits. -/
def value (cs : List Char) : Nat :=
  cs.foldl (fun v c ↦ 10 * v + digitValue c) 0

/-- Reads a non-empty run of ASCII digits; leading zeros are allowed. -/
def ofDigits? (cs : List Char) : Option Nat :=
  if !cs.isEmpty && cs.all Char.isDigit then some (value cs) else none

/-- Reads a 32-bit number. A run that is empty, or too large, has no value. -/
def word? (cs : List Char) : Option UInt32 :=
  (ofDigits? cs).bind fun n ↦ if n < UInt32.size then some (UInt32.ofNat n) else none

/-- Reads a 32-bit number, with zero standing for everything unreadable. No point, signal or
track is numbered zero, so an unreadable number is left for the layout to turn away. -/
def word (cs : List Char) : UInt32 :=
  (word? cs).getD 0

/-- Reads an integer with an optional sign. -/
def integer? : List Char → Option Int
  | '+' :: cs => (ofDigits? cs).map Int.ofNat
  | '-' :: cs => (ofDigits? cs).map fun n ↦ -Int.ofNat n
  | cs => (ofDigits? cs).map Int.ofNat

/-- Reads a signed 32-bit integer with an optional sign. -/
def int32? (cs : List Char) : Option Int32 :=
  (integer? cs).bind fun i ↦
    if Int32.minValue.toInt ≤ i ∧ i ≤ Int32.maxValue.toInt then some (Int32.ofInt i) else none

/-- The numeral of a number. -/
def text (n : Nat) : String :=
  String.ofList (digits n)

/-- The characters of an integer's numeral: a minus sign for negative numbers only. -/
def integerDigits : Int → List Char
  | .ofNat n => digits n
  | .negSucc n => '-' :: digits (n + 1)

/-- The numeral of an integer. -/
def integerText (i : Int) : String :=
  String.ofList (integerDigits i)

/-! ### Reading back what was written -/

theorem digitValue_digitChar {d : Nat} (h : d < 10) : digitValue (digitChar d) = d := by
  have : ∀ d : Fin 10, digitValue (digitChar d) = d := by decide
  exact this ⟨d, h⟩

theorem isDigit_digitChar {d : Nat} (h : d < 10) : (digitChar d).isDigit = true := by
  have : ∀ d : Fin 10, (digitChar d).isDigit = true := by decide
  exact this ⟨d, h⟩

theorem value_append_singleton (cs : List Char) (c : Char) :
    value (cs ++ [c]) = 10 * value cs + digitValue c := by
  simp [value]

theorem value_digits (n : Nat) : value (digits n) = n := by
  fun_induction digits n with
  | case1 n h => simpa [value] using digitValue_digitChar h
  | case2 n h ih =>
    rw [value_append_singleton, ih, digitValue_digitChar (Nat.mod_lt n (by omega))]
    omega

theorem digits_ne_nil (n : Nat) : digits n ≠ [] := by
  rw [digits]
  split <;> simp

theorem all_isDigit_digits (n : Nat) : (digits n).all Char.isDigit = true := by
  fun_induction digits n with
  | case1 n h => simpa using isDigit_digitChar h
  | case2 n h ih =>
    rw [List.all_append, ih]
    simpa using isDigit_digitChar (Nat.mod_lt n (by omega))

end SignalBox.Decimal
