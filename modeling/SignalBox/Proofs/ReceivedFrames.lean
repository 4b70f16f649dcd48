import SignalBox.Proofs.FrameEncoding

/-!
# Which received frames can be sent

A frame that is received has the opcode and a right checksum, and its address and position are read
off the bits that hold them. The other bits are passed over: the highest bit of the low byte, the
two highest of the high byte, and the output bit, which is on in every frame that is sent. The main
statement (`Frame.decode_exact`) says which received bytes could have been sent. The address and the
position that are read can always be encoded, but this gives the received bytes only if the other
bits are as they are sent.

* **Two bytes say it all**: bytes that are read are those of the frame that they are read as, since
  the opcode and the checksum are tested (`Frame.decode_eq_some_iff`).
* **What is sent instead** is the frame with the other bits as they are sent (`Frame.encode_read`).
-/

namespace SignalBox

namespace Frame

variable {bytes : List UInt8} {f : Frame}

/-- The fixed bits of a frame are as they are sent: the output bit is on, and the highest bit of the
low byte and the two highest of the high byte are off. -/
def HasFixedBits (f : Frame) : Prop :=
  f.low &&& 0x80 = 0 ∧ f.high &&& 0xD0 = 0x10

instance (f : Frame) : Decidable f.HasFixedBits :=
  inferInstanceAs (Decidable (_ ∧ _))

theorem hasFixedBits_onWire_iff : f.onWire.HasFixedBits ↔ f.HasFixedBits := Iff.rfl

/-- The frame that sets what a frame is read as: its fixed bits are as they are sent. -/
def resent (f : Frame) : Frame :=
  { kind := .set, low := f.low &&& 0x7F, high := f.high &&& 0x2F ||| 0x10 }

/-- The bytes are those of a frame that puts the accessory at some address into some position. -/
def CanSend (bytes : List UInt8) : Prop :=
  ∃ address position f, encode .set address position = .ok f ∧ f.bytes = bytes

/-! ### Bits of a byte -/

theorem toNat_low_resent : f.resent.low.toNat = f.low.toNat % 128 :=
  forall_byte (p := fun b ↦ (b &&& 0x7F).toNat = b.toNat % 128) (by decide +kernel) f.low

theorem toNat_high_resent :
    f.resent.high.toNat = f.high.toNat % 16 + 16 + 32 * (f.high.toNat / 32 % 2) :=
  forall_byte (p := fun b ↦ (b &&& 0x2F ||| 0x10).toNat =
    b.toNat % 16 + 16 + 32 * (b.toNat / 32 % 2)) (by decide +kernel) f.high

/-- **The bytes are sent again** if the fixed bits are as they are sent. -/
theorem bytes_resent_eq_iff : f.resent.bytes = f.bytes ↔ f.HasFixedBits := by
  obtain ⟨kind, low, high⟩ := f
  have hlow : low &&& 0x7F = low ↔ low &&& 0x80 = 0 :=
    forall_byte (p := fun b ↦ b &&& 0x7F = b ↔ b &&& 0x80 = 0) (by decide +kernel) low
  have hhigh : high &&& 0x2F ||| 0x10 = high ↔ high &&& 0xD0 = 0x10 :=
    forall_byte (p := fun b ↦ b &&& 0x2F ||| 0x10 = b ↔ b &&& 0xD0 = 0x10) (by decide +kernel) high
  rw [HasFixedBits, ← hlow, ← hhigh]
  simp +contextual [bytes, resent]

/-! ### Sending what has been read -/

theorem onBus_address (f : Frame) : OnBus f.address := by
  simp only [OnBus, address, maxAddress]
  omega

/-- **What is read can be encoded**, with the fixed bits as they are sent. -/
theorem encode_read (f : Frame) : encode .set f.address f.position = .ok f.resent := by
  have hbus := f.onBus_address
  rw [encode_eq_ok_iff, Int.natAbs_natCast]
  refine ⟨hbus, ?_⟩
  have hlow : (ofMagnitude .set f.address f.position).low = f.resent.low := by
    rw [← UInt8.toNat_inj, toNat_low_ofMagnitude, toNat_low_resent, address]
    omega
  have hhigh : (ofMagnitude .set f.address f.position).high = f.resent.high := by
    rw [← UInt8.toNat_inj, toNat_high_ofMagnitude hbus.2, toNat_high_resent, position]
    by_cases hclosed : f.high.toNat / 32 % 2 = 1
    · simp only [address, if_pos hclosed]
      omega
    · simp only [address, if_neg hclosed]
      omega
  exact congrArg₂ (Frame.mk .set) hlow hhigh

/-- **What has been encoded** has its fixed bits as they are sent: it is encoded again as it is. -/
theorem hasFixedBits_of_encode {a : Int} {position : WirePosition}
    (h : encode .set a position = .ok f) : f.HasFixedBits := by
  have hencodes := encodes_of_encode h
  have hread := f.encode_read
  rw [encode_eq_ok_iff, Int.natAbs_natCast, hencodes.address_eq, hencodes.position_eq] at hread
  have hresent : f.resent = f := hread.2.symm.trans ((encode_eq_ok_iff ..).1 h).2
  exact bytes_resent_eq_iff.1 (congrArg Frame.bytes hresent)

/-- **Received bytes** are read as an address and a position that can be encoded, and this gives the
bytes again exactly if the fixed bits are as they are sent. So these are the bytes that can be
sent. -/
theorem decode_exact (bytes : List UInt8) :
    (∀ f, decode bytes = some f → ∃ g, encode .set f.address f.position = .ok g ∧
      (g.bytes = bytes ↔ f.HasFixedBits)) ∧
      (CanSend bytes ↔ ∃ f, decode bytes = some f ∧ f.HasFixedBits) := by
  have hresent : ∀ f, decode bytes = some f → (f.resent.bytes = bytes ↔ f.HasFixedBits) :=
    fun f h ↦ (decode_eq_some_iff.1 h).2 ▸ bytes_resent_eq_iff
  refine ⟨fun f h ↦ ⟨_, f.encode_read, hresent f h⟩, ?_, ?_⟩
  · rintro ⟨address, position, f, hencode, rfl⟩
    exact ⟨f.onWire, f.decode_bytes,
      hasFixedBits_onWire_iff.2 (hasFixedBits_of_encode hencode)⟩
  · rintro ⟨f, hdecode, hfixed⟩
    exact ⟨_, _, _, f.encode_read, (hresent f hdecode).2 hfixed⟩

/-- The bytes that close the accessory at address 200 are read as such, and sent again. -/
theorem decode_exact_of_closed :
    decode [0xB0, 0x47, 0x31, 0x39] = some ⟨.set, 0x47, 0x31⟩ ∧
      (∃ g, encode .set 200 .closed = .ok g ∧ g.bytes = [0xB0, 0x47, 0x31, 0x39]) ∧
      CanSend [0xB0, 0x47, 0x31, 0x39] := by
  have hdecode : decode [0xB0, 0x47, 0x31, 0x39] = some ⟨.set, 0x47, 0x31⟩ := by decide +kernel
  have hfixed : HasFixedBits ⟨.set, 0x47, 0x31⟩ := by decide +kernel
  obtain ⟨g, hencode, hsame⟩ := (decode_exact _).1 _ hdecode
  exact ⟨hdecode, ⟨g, hencode, hsame.2 hfixed⟩, (decode_exact _).2.2 ⟨_, hdecode, hfixed⟩⟩

/-- Bytes with the output bit off are read as the frame that closes the accessory at address 1,
which has other bytes. No frame has these. -/
theorem not_canSend_of_output_off :
    decode [0xB0, 0x00, 0x20, 0x6F] = some ⟨.set, 0x00, 0x20⟩ ∧
      encode .set (Frame.address ⟨.set, 0x00, 0x20⟩) (Frame.position ⟨.set, 0x00, 0x20⟩) =
        .ok ⟨.set, 0x00, 0x30⟩ ∧
      Frame.bytes ⟨.set, 0x00, 0x30⟩ = [0xB0, 0x00, 0x30, 0x7F] ∧
      ¬ CanSend [0xB0, 0x00, 0x20, 0x6F] := by
  have hdecode : decode [0xB0, 0x00, 0x20, 0x6F] = some ⟨.set, 0x00, 0x20⟩ := by decide +kernel
  refine ⟨hdecode, by decide +kernel, by decide +kernel, ?_⟩
  rintro ⟨address, position, f, hencode, hbytes⟩
  have hread : some f.onWire = some ⟨.set, 0x00, 0x20⟩ := by
    rw [← f.decode_bytes, hbytes, hdecode]
  have hfixed := hasFixedBits_onWire_iff.2 (hasFixedBits_of_encode hencode)
  rw [Option.some.inj hread] at hfixed
  exact absurd hfixed (by decide +kernel)

end Frame

end SignalBox
