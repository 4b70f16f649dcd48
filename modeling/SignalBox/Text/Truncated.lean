/-!
# Text of bounded size

Names and console entries are held in a fixed number of UTF-8 bytes. `size` is that measure, and
`truncate` keeps the longest leading run of whole characters that fits.
-/

namespace SignalBox.Text

/-- The number of UTF-8 bytes that the characters take. -/
def size : List Char → Nat
  | [] => 0
  | c :: cs => c.utf8Size + size cs

/-- The leading characters that fit into `room` bytes, up to the first that does not. -/
def truncate (room : Nat) : List Char → List Char
  | [] => []
  | c :: cs => if c.utf8Size ≤ room then c :: truncate (room - c.utf8Size) cs else []

theorem size_append (as bs : List Char) : size (as ++ bs) = size as + size bs := by
  induction as with
  | nil => simp [size]
  | cons c as ih => rw [List.cons_append, size, size, ih, Nat.add_assoc]

theorem size_truncate_le (room : Nat) (cs : List Char) : size (truncate room cs) ≤ room := by
  induction cs generalizing room with
  | nil => simp [truncate, size]
  | cons c cs ih =>
    have := ih (room - c.utf8Size)
    simp only [truncate]
    split
    · simp only [size]
      omega
    · simp [size]

end SignalBox.Text
