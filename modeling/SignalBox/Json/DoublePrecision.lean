/-!
# The range of double precision

Numbers that are not whole, or too large for 64 bits, are read in double precision: as a whole
number times a power of ten. Each of the two is rounded to 53 significant bits, and so is their
product, which is out of range if it needs more than 1024 bits. A number close to the limit can
therefore be out of range although its own value is not.
-/

namespace SignalBox.DoublePrecision

/-- The distance between neighbours among the numbers of `n`'s size that have 53 significant
bits. -/
def spacing (n : Nat) : Nat :=
  Nat.pow 2 (n.log2 + 1 - 53)

/-- Rounds a whole number to 53 significant bits; a half goes to the even neighbour. -/
def round (n : Nat) : Nat :=
  let below := n / spacing n
  let excess := 2 * (n % spacing n)
  if spacing n < excess ∨ spacing n = excess ∧ below % 2 = 1 then (below + 1) * spacing n
  else below * spacing n

/-- The largest power of ten within the range. -/
def maxExponent : Nat := 308

/-- Whether `significand` times ten to the power `exponent` is within the range. -/
def isFinite (significand : Nat) : Int → Bool
  | .ofNat exponent =>
    significand = 0 || exponent ≤ maxExponent &&
      round (round significand * round (Nat.pow 10 exponent)) < Nat.pow 2 1024
  | .negSucc _ => true

end SignalBox.DoublePrecision
