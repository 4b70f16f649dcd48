import Mathlib.Data.List.Induction
import SignalBox.Bus.Frame

/-!
# What a checksum finds out

Bytes are accepted if the exclusive or of all of them has every bit set. The main statement
(`Checksum.verify_exact`) says this of lists of any length without that sum: accepted are the lists
that end in the checksum of what stands before, and no such list is accepted any more once one of
its bytes has been replaced by another.

* **The checksum is the one byte** that makes what stands before acceptable
  (`Checksum.verify_append_singleton_iff`), and a list without any byte has none.
* **Every byte counts**, wherever it stands: with all others fixed, the parity is one to one in it
  (`Checksum.parity_around_inj`). So a frame of which one byte has changed on the way is not read
  (`Frame.decode_set_eq_none`).
-/

namespace SignalBox

namespace Checksum

variable {bytes before after : List UInt8} {a b : UInt8} {i : Nat}

/-! ### The parity of a list in parts -/

theorem parity_append (before after : List UInt8) :
    parity (before ++ after) = parity before ^^^ parity after := by
  induction after using List.reverseRecOn with
  | nil => rw [List.append_nil, show parity [] = 0 from rfl, UInt8.xor_zero]
  | append_singleton after b ih =>
    rw [← List.append_assoc, parity_append_singleton, ih, parity_append_singleton,
      UInt8.xor_assoc]

theorem parity_cons (b : UInt8) (bytes : List UInt8) :
    parity (b :: bytes) = b ^^^ parity bytes := by
  rw [← List.singleton_append, parity_append, show parity [b] = 0 ^^^ b from rfl, UInt8.zero_xor]

/-- **Every byte counts**: with those around it fixed, different bytes give different parities. -/
theorem parity_around_inj :
    parity (before ++ a :: after) = parity (before ++ b :: after) ↔ a = b := by
  rw [parity_append, parity_append, UInt8.xor_right_inj, parity_cons, parity_cons,
    UInt8.xor_left_inj]

/-! ### Accepted lists -/

/-- **Accepted lists** end in the checksum of what stands before. -/
theorem verify_iff : verify bytes = true ↔ ∃ front, bytes = front ++ [checksum front] := by
  constructor
  · intro h
    rcases List.eq_nil_or_concat bytes with rfl | ⟨front, last, rfl⟩
    · cases h
    · rw [List.concat_eq_append] at h ⊢
      exact ⟨front, by rw [← verify_append_singleton_iff.1 h]⟩
  · rintro ⟨front, rfl⟩
    exact verify_append_singleton_iff.2 rfl

theorem parity_of_verify (h : verify bytes = true) : parity bytes = 0xFF := by
  rw [verify, Bool.and_eq_true] at h
  exact eq_of_beq h.2

/-- **A replaced byte** is found out. -/
theorem verify_set (h : verify bytes = true) (hi : i < bytes.length) (hb : b ≠ bytes[i]) :
    verify (bytes.set i b) = false := by
  have hbytes : bytes = bytes.take i ++ bytes[i] :: bytes.drop (i + 1) := by
    rw [List.getElem_cons_drop, List.take_append_drop]
  have hset : bytes.set i b = bytes.take i ++ b :: bytes.drop (i + 1) := by
    rw [List.set_eq_take_append_cons_drop, if_pos hi]
  refine Bool.eq_false_iff.2 fun hverify ↦ hb ?_
  have hsame : parity (bytes.take i ++ b :: bytes.drop (i + 1)) =
      parity (bytes.take i ++ bytes[i] :: bytes.drop (i + 1)) := by
    rw [← hset, ← hbytes, parity_of_verify hverify, parity_of_verify h]
  exact parity_around_inj.1 hsame

/-- **The law of checksums**, for bytes of any number. They are accepted if and only if they are
some bytes with their checksum behind them; and once accepted, they are turned away as soon as any
one of them is replaced by another byte. -/
theorem verify_exact (bytes : List UInt8) :
    (verify bytes = true ↔ ∃ front, bytes = front ++ [checksum front]) ∧
      (verify bytes = true → ∀ (i : Nat) (hi : i < bytes.length) (b : UInt8), b ≠ bytes[i] →
        verify (bytes.set i b) = false) :=
  ⟨verify_iff, fun h _ hi _ hb ↦ verify_set h hi hb⟩

/-- The frame that closes the accessory at address 1 is accepted. With the direction bit cleared on
the way it is not. -/
theorem verify_exact_of_direction_cleared :
    verify [0xB0, 0x00, 0x30, 0x7F] = true ∧
      [0xB0, 0x00, 0x30, 0x7F] = [0xB0, 0x00, 0x30] ++ [checksum [0xB0, 0x00, 0x30]] ∧
      verify [0xB0, 0x00, 0x10, 0x7F] = false := by
  have hverify : verify [0xB0, 0x00, 0x30, 0x7F] = true :=
    (verify_exact _).1.2 ⟨[0xB0, 0x00, 0x30], by decide +kernel⟩
  have hset := (verify_exact _).2 hverify 2 (by decide) 0x10 (by decide)
  exact ⟨hverify, by decide +kernel, hset⟩

end Checksum

namespace Frame

variable {bytes : List UInt8} {f : Frame} {b : UInt8} {i : Nat}

theorem verify_of_decode (h : decode bytes = some f) : Checksum.verify bytes = true := by
  obtain ⟨-, rfl⟩ := decode_eq_some_iff.1 h
  exact Checksum.verify_iff.2 ⟨[opcode, f.low, f.high], rfl⟩

/-- **A frame with a replaced byte** is not read, whichever byte it is. -/
theorem decode_set_eq_none (h : decode bytes = some f) (hi : i < bytes.length)
    (hb : b ≠ bytes[i]) : decode (bytes.set i b) = none := by
  have hreplaced := Checksum.verify_set (verify_of_decode h) hi hb
  refine Option.eq_none_iff_forall_ne_some.2 fun g hg ↦ ?_
  exact Bool.false_ne_true (hreplaced.symm.trans (verify_of_decode hg))

end Frame

end SignalBox
