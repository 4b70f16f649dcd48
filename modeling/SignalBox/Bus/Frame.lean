import SignalBox.Text.Decimal

/-!
# Frames of the accessory bus

Everything that moves is switched by a frame of four bytes: the opcode, the low seven bits of the
address less one, the high four bits with the output and direction bits, and a checksum. A frame is
kept as the two bytes that vary, so that its opcode and checksum are right by construction.
-/

namespace SignalBox

/-- The state of an accessory on the wire. -/
inductive WirePosition
  | closed
  | thrown
  deriving DecidableEq

/-- The word for a wire position in the text of a frame. -/
def WirePosition.word : WirePosition → String
  | closed => "Closed"
  | thrown => "Thrown"

/-- What holds of the bytes of all numbers below 256 holds of all bytes. -/
theorem forall_byte {p : UInt8 → Prop} (h : ∀ n : Fin 256, p (.ofNat n)) (b : UInt8) : p b := by
  simpa using h ⟨b.toNat, b.toNat_lt⟩

namespace Checksum

/-- The exclusive or of all bytes. -/
def parity (bytes : List UInt8) : UInt8 :=
  bytes.foldl (· ^^^ ·) 0

/-- The byte that brings the parity to all ones. -/
def checksum (bytes : List UInt8) : UInt8 :=
  ~~~ parity bytes

/-- Whether a received list of bytes ends in the checksum of what stands before. -/
def verify (bytes : List UInt8) : Bool :=
  !bytes.isEmpty && parity bytes == 0xFF

theorem parity_append_singleton (bytes : List UInt8) (b : UInt8) :
    parity (bytes ++ [b]) = parity bytes ^^^ b := by
  simp [parity]

/-- A byte and its complement differ in all bits. -/
theorem xor_complement (b : UInt8) : b ^^^ ~~~b = 0xFF :=
  forall_byte (p := fun b ↦ b ^^^ ~~~b = 0xFF) (by decide +kernel) b

/-- Bytes pass if the last one is the checksum of what stands before. -/
theorem verify_append_singleton_iff {bytes : List UInt8} {b : UInt8} :
    verify (bytes ++ [b]) = true ↔ b = checksum bytes := by
  have hparity : parity bytes ^^^ b = 0xFF ↔ b = checksum bytes := by
    rw [← xor_complement (parity bytes), UInt8.xor_right_inj, checksum]
  simp [verify, parity_append_singleton, hparity]

end Checksum

/-- What a frame is for; on the wire the three look alike. -/
inductive FrameKind
  | set
  | lock
  | unlock
  deriving DecidableEq

/-- The word for a kind in the text of a frame. -/
def FrameKind.word : FrameKind → String
  | set => "Set"
  | lock => "Lock"
  | unlock => "Unlock"

/-- An address that the bus does not have. -/
structure AddressError where
  address : Int
  deriving DecidableEq

/-- The message for an address that the bus does not have; it keeps the sign. -/
def AddressError.message (e : AddressError) : String :=
  "accessory address " ++ Decimal.integerText e.address ++ " is outside 1..=2048"

/-- A frame. -/
structure Frame where
  /-- What the frame is for. -/
  kind : FrameKind
  /-- The byte that holds the low seven bits of the address. -/
  low : UInt8
  /-- The byte that holds the high four bits of the address, the output and the direction bit. -/
  high : UInt8
  deriving DecidableEq

namespace Frame

/-- The opcode of a switch request. -/
def opcode : UInt8 := 0xB0

/-- The highest address on the bus. -/
def maxAddress : Nat := 2048

/-- The four bytes on the wire. -/
def bytes (f : Frame) : List UInt8 :=
  [opcode, f.low, f.high, Checksum.checksum [opcode, f.low, f.high]]

/-- The address: seven bits of the low byte and four of the high one, counted from 1. -/
def address (f : Frame) : Nat :=
  f.low.toNat % 128 + 128 * (f.high.toNat % 16) + 1

/-- The position: bit 5 of the high byte is set for closed. -/
def position (f : Frame) : WirePosition :=
  if f.high.toNat / 32 % 2 = 1 then .closed else .thrown

/-- The frame for an address whose magnitude is on the bus, with the output bit on. -/
def ofMagnitude (kind : FrameKind) (magnitude : Nat) (position : WirePosition) : Frame :=
  let direction := match position with
    | .closed => 32
    | .thrown => 0
  { kind
    low := UInt8.ofNat ((magnitude - 1) % 128)
    high := UInt8.ofNat ((magnitude - 1) / 128 + 16 + direction) }

/-- The frame that switches the accessory at an address, whose sign does not matter here. -/
def encode (kind : FrameKind) (address : Int) (position : WirePosition) :
    Except AddressError Frame :=
  if 1 ≤ address.natAbs ∧ address.natAbs ≤ maxAddress then
    .ok (ofMagnitude kind address.natAbs position)
  else .error ⟨address⟩

/-- What a frame looks like on the wire, where locks cannot be told from points. -/
def onWire (f : Frame) : Frame := { f with kind := .set }

/-- Reads a frame back from the wire. -/
def decode : List UInt8 → Option Frame
  | [op, low, high, check] =>
    if op = opcode ∧ Checksum.verify [op, low, high, check] then some ⟨.set, low, high⟩ else none
  | _ => none

/-- Bytes are read as the frame that sets and has these bytes. -/
theorem decode_eq_some_iff {bytes : List UInt8} {f : Frame} :
    decode bytes = some f ↔ f.kind = .set ∧ f.bytes = bytes := by
  constructor
  · intro h
    rw [decode.eq_def] at h
    split at h
    next op low high check =>
      obtain ⟨⟨rfl, hverify⟩, heq⟩ := Option.ite_none_right_eq_some.1 h
      obtain rfl := Option.some.inj heq
      obtain rfl : check = Checksum.checksum [opcode, low, high] :=
        Checksum.verify_append_singleton_iff.1 hverify
      exact ⟨rfl, rfl⟩
    next => cases h
  · obtain ⟨kind, low, high⟩ := f
    rintro ⟨rfl, rfl⟩
    have hverify : Checksum.verify ([opcode, low, high] ++ _) = true :=
      Checksum.verify_append_singleton_iff.2 rfl
    exact if_pos ⟨rfl, hverify⟩

/-- What was sent is read back, up to what the wire does not show. -/
theorem decode_bytes (f : Frame) : decode f.bytes = some f.onWire :=
  decode_eq_some_iff.2 ⟨rfl, rfl⟩

/-- The two upper-case hexadecimal digits of a byte. -/
def hex (b : UInt8) : String :=
  String.ofList [(Nat.digitChar (b.toNat / 16)).toUpper, (Nat.digitChar (b.toNat % 16)).toUpper]

/-- Bytes in hexadecimal, between brackets. -/
def hexList (separator : String) (bs : List UInt8) : String :=
  "[" ++ separator.intercalate (bs.map hex) ++ "]"

/-- The text of a frame, such as `Set(12 Closed) [B0 0B 30 74]`. -/
def text (f : Frame) : String :=
  f.kind.word ++ "(" ++ Decimal.text f.address ++ " " ++ f.position.word ++ ") " ++
    hexList " " f.bytes

end Frame

end SignalBox
