import SignalBox.Proofs.Frames

/-!
# Which addresses can be encoded, and what is read back

The frames of a point and of its locks are encoded one for each address. The bus has the addresses
1 to 2048, and what is compared with these bounds is computed in 32 bits: the magnitude of a signed
address, and its sum with the lock offset, which ends at the highest address that can be written
down. The main statement (`PointCommand.frames_exact`) is about unbounded numbers instead. No bad
address becomes a good one on the way, and what is encoded is read back from the bytes.

* **Encoding a list** (`encodesEach_mapM`): frames come out exactly if all addresses are on the bus;
  they are read back one by one; otherwise the first address that is not is the error.
* **Lock addresses** end far above the bus (`encodesEach_lockAddresses`), so that one that has been
  cut off is as little on the bus as the sum that it stands for.
-/

namespace SignalBox

/-- The bus has an accessory of this number. -/
def OnBus (magnitude : Nat) : Prop :=
  1 ≤ magnitude ∧ magnitude ≤ Frame.maxAddress

/-- A frame is read back from its bytes with an address and a position. -/
def Frame.ReadsAs (f : Frame) (magnitude : Nat) (position : WirePosition) : Prop :=
  ∃ g, decode f.bytes = some g ∧ g.address = magnitude ∧ g.position = position

theorem Frame.Encodes.readsAs {f : Frame} {kind : FrameKind} {position : WirePosition} {a : Int}
    (h : f.Encodes kind position a) : f.ReadsAs a.natAbs position :=
  ⟨f.onWire, f.decode_bytes, h.address_eq, h.position_eq⟩

/-- The result of encoding some entries, each with the number of its accessory, its position and the
address that is named if it cannot be encoded. -/
structure EncodesEach {α : Type} (entries : List α) (magnitude : α → Nat)
    (position? : α → Option WirePosition) (named : α → Int)
    (result : Except AddressError (List Frame)) : Prop where
  /-- There are frames exactly if all entries are on the bus. -/
  isOk_iff : (∃ frames, result = .ok frames) ↔ ∀ a ∈ entries, OnBus (magnitude a)
  /-- There is one frame for each entry, in order, and it is read back as such. -/
  reads : ∀ frames, result = .ok frames → List.Forall₂ (fun a f ↦
    ∃ position, position? a = some position ∧ f.ReadsAs (magnitude a) position) entries frames
  /-- The error is the first entry that is not on the bus. -/
  names : ∀ e, result = .error e → ∃ before a after, entries = before ++ a :: after ∧
    (∀ b ∈ before, OnBus (magnitude b)) ∧ ¬ OnBus (magnitude a) ∧ e.address = named a

/-- Numbers may be replaced by others that are the same wherever they are on the bus. -/
theorem EncodesEach.of_agree {α : Type} {entries : List α} {magnitude magnitude' : α → Nat}
    {position? : α → Option WirePosition} {named : α → Int}
    {result : Except AddressError (List Frame)}
    (h : EncodesEach entries magnitude position? named result)
    (hbus : ∀ a, OnBus (magnitude a) ↔ OnBus (magnitude' a))
    (hsame : ∀ a, OnBus (magnitude a) → magnitude a = magnitude' a) :
    EncodesEach entries magnitude' position? named result where
  isOk_iff := h.isOk_iff.trans (forall₂_congr fun a _ ↦ hbus a)
  reads frames hok := by
    have hall := h.isOk_iff.1 ⟨frames, hok⟩
    have hreads := (List.forall₂_and_left _ _).2 ⟨hall, h.reads frames hok⟩
    refine hreads.imp fun a f ⟨ha, position, hp, hf⟩ ↦ ⟨position, hp, ?_⟩
    rwa [← hsame a ha]
  names e herror := by
    obtain ⟨before, a, after, hsplit, hbefore, ha, he⟩ := h.names e herror
    exact ⟨before, a, after, hsplit, fun b hb ↦ (hbus b).1 (hbefore b hb), mt (hbus a).2 ha, he⟩

/-! ### Encoding a list -/

/-- Collecting results stops at the first error. -/
theorem exists_of_mapM_eq_error {ε α β : Type} {f : α → Except ε β} {as : List α} {e : ε}
    (h : as.mapM f = .error e) : ∃ before a after, as = before ++ a :: after ∧
      (∀ b ∈ before, ∃ x, f b = .ok x) ∧ f a = .error e := by
  induction as with
  | nil => cases h
  | cons a as ih =>
    rw [List.mapM_cons] at h
    cases ha : f a with
    | error e' =>
      rw [ha] at h
      obtain rfl := Except.error.inj h
      exact ⟨[], a, as, rfl, by simp, ha⟩
    | ok x =>
      cases has : as.mapM f with
      | error e' =>
        rw [ha, has] at h
        obtain rfl := Except.error.inj h
        obtain ⟨before, b, after, rfl, hbefore, hb⟩ := ih has
        exact ⟨a :: before, b, after, rfl, List.forall_mem_cons.2 ⟨⟨x, ha⟩, hbefore⟩, hb⟩
      | ok xs =>
        rw [ha, has] at h
        cases h

theorem Frame.encode_eq_ok_iff (kind : FrameKind) (a : Int) (position : WirePosition) (f : Frame) :
    encode kind a position = .ok f ↔ OnBus a.natAbs ∧ ofMagnitude kind a.natAbs position = f := by
  rw [encode]
  split
  next hbus => simp [OnBus, hbus]
  next hbus => simp [OnBus, hbus]

theorem Frame.encode_isOk_iff {kind : FrameKind} {position : WirePosition} {a : Int} :
    (∃ f, encode kind a position = .ok f) ↔ OnBus a.natAbs := by
  simp only [encode_eq_ok_iff, exists_and_left, exists_eq', and_true]

theorem Frame.address_of_encode_eq_error {kind : FrameKind} {position : WirePosition} {a : Int}
    {e : AddressError} (h : encode kind a position = .error e) : e.address = a := by
  rw [encode] at h
  split at h
  · cases h
  · exact Except.error.inj h ▸ rfl

/-- **Encoding a list** of addresses, each with its position. -/
theorem encodesEach_mapM {α : Type} (kind : FrameKind) (entries : List α) (address : α → Int)
    (position : α → WirePosition) :
    EncodesEach entries (fun a ↦ (address a).natAbs) (fun a ↦ some (position a)) address
      (entries.mapM fun a ↦ Frame.encode kind (address a) (position a)) where
  isOk_iff := by
    refine ⟨fun ⟨frames, h⟩ a ha ↦ ?_, fun h ↦ exists_mapM_eq_ok fun a ha ↦ ?_⟩
    · obtain ⟨f, -, hf⟩ := exists_right_of_mem_left (mapM_eq_ok_iff.1 h) ha
      exact Frame.encode_isOk_iff.1 ⟨f, hf⟩
    · exact Frame.encode_isOk_iff.2 (h a ha)
  reads frames h := (mapM_eq_ok_iff.1 h).imp fun a f hf ↦
    ⟨position a, rfl, (Frame.encodes_of_encode hf).readsAs⟩
  names e h := by
    obtain ⟨before, a, after, hsplit, hbefore, ha⟩ := exists_of_mapM_eq_error h
    refine ⟨before, a, after, hsplit, fun b hb ↦ Frame.encode_isOk_iff.1 (hbefore b hb), ?_,
      Frame.address_of_encode_eq_error ha⟩
    intro hbus
    obtain ⟨f, hf⟩ := Frame.encode_isOk_iff.2 hbus
    exact absurd (ha.symm.trans hf) (by simp)

/-! ### Addresses of points and locks -/

/-- A position that is asked for has a wire position, also where it is wired in reverse. -/
theorem WirePosition.ofPosition?_forAddress {p : Position} (h : p ≠ .undefined) (a : Int32) :
    ofPosition? (p.forAddress a) = some (ofPosition (p.forAddress a)) := by
  rw [Position.forAddress]
  cases p with
  | undefined => exact absurd rfl h
  | straight | diverging => split <;> rfl

namespace PointCommand

variable (c : PointCommand) (offset : UInt32)

theorem toInt_lockAddress (a : Int32) :
    (lockAddress offset a).toInt = (min (a.toInt.natAbs + offset.toNat) maxLockAddress : Nat) := by
  refine Int32.toInt_ofNat_of_lt ?_
  have hle : min (a.toInt.natAbs + offset.toNat) maxLockAddress ≤ 2147483647 := Nat.min_le_right _ _
  omega

/-- A lock address that has been cut off is not on the bus. -/
theorem onBus_lockAddress_iff (a : Int32) :
    OnBus (lockAddress offset a).toInt.natAbs ↔ OnBus (a.toInt.natAbs + offset.toNat) := by
  rw [toInt_lockAddress, Int.natAbs_natCast]
  simp only [OnBus, maxLockAddress, Frame.maxAddress]
  omega

theorem natAbs_lockAddress {a : Int32} (h : OnBus (lockAddress offset a).toInt.natAbs) :
    (lockAddress offset a).toInt.natAbs = a.toInt.natAbs + offset.toNat := by
  have hle : a.toInt.natAbs + offset.toNat ≤ 2048 := ((onBus_lockAddress_iff offset a).1 h).2
  rw [toInt_lockAddress, Int.natAbs_natCast, maxLockAddress]
  omega

/-- **Lock addresses** are encoded as the sums that they stand for. -/
theorem encodesEach_lockAddresses (kind : FrameKind) (position : WirePosition)
    (h : c.lockOffset = some offset) :
    EncodesEach c.addresses (fun a ↦ a.toInt.natAbs + offset.toNat) (fun _ ↦ some position)
      (fun a ↦ (lockAddress offset a).toInt)
      (c.lockAddresses.mapM fun a ↦ Frame.encode kind a.toInt position) := by
  rw [lockAddresses, h]
  dsimp only
  rw [List.mapM_map]
  exact (encodesEach_mapM kind c.addresses (fun a ↦ (lockAddress offset a).toInt)
    fun _ ↦ position).of_agree (onBus_lockAddress_iff offset) fun _ ↦ natAbs_lockAddress offset

/-- **Frames of a point and its locks.** A point that nothing is asked of has no frames. Otherwise
each of its addresses is encoded by its magnitude and by the position that it receives, and each
lock by the magnitude plus the offset, as closed to engage it and as thrown to release it. -/
theorem frames_exact :
    (c.isUndefined = true → c.setFrames = .ok []) ∧
      (c.isUndefined = false → EncodesEach c.addresses (fun a ↦ a.toInt.natAbs)
        (fun a ↦ WirePosition.ofPosition? (c.position.forAddress a)) (fun a ↦ a.toInt)
        c.setFrames) ∧
      (∀ offset, c.lockOffset = some offset →
        EncodesEach c.addresses (fun a ↦ a.toInt.natAbs + offset.toNat) (fun _ ↦ some .closed)
            (fun a ↦ (lockAddress offset a).toInt) c.lockFrames ∧
          EncodesEach c.addresses (fun a ↦ a.toInt.natAbs + offset.toNat) (fun _ ↦ some .thrown)
            (fun a ↦ (lockAddress offset a).toInt) c.unlockFrames) ∧
      (c.lockOffset = none → c.lockFrames = .ok [] ∧ c.unlockFrames = .ok []) := by
  refine ⟨fun h ↦ if_pos h, fun h ↦ ?_, fun offset h ↦ ?_, fun h ↦ ?_⟩
  · have hdefined : c.position ≠ .undefined := by simpa [isUndefined] using h
    simp only [WirePosition.ofPosition?_forAddress hdefined]
    rw [setFrames, h, if_neg Bool.false_ne_true]
    exact encodesEach_mapM .set c.addresses (fun a ↦ a.toInt) _
  · exact ⟨c.encodesEach_lockAddresses offset .lock .closed h,
      c.encodesEach_lockAddresses offset .unlock .thrown h⟩
  · rw [lockFrames, unlockFrames, lockAddresses, h]
    exact ⟨rfl, rfl⟩

/-- A point with an accessory that is wired in reverse, whose lock is the last one on the bus. -/
def reverseWired : PointCommand :=
  { plain 27 .diverging with lockOffset := some 100, addresses := [12, -1948] }

/-- The second accessory receives the opposite position; its lock has the highest address. -/
theorem frames_exact_of_reverseWired :
    EncodesEach reverseWired.addresses (fun a ↦ a.toInt.natAbs)
        (fun a ↦ WirePosition.ofPosition? (reverseWired.position.forAddress a)) (fun a ↦ a.toInt)
        reverseWired.setFrames ∧
      EncodesEach reverseWired.addresses (fun a ↦ a.toInt.natAbs + 100) (fun _ ↦ some .closed)
        (fun a ↦ (lockAddress 100 a).toInt) reverseWired.lockFrames ∧
      reverseWired.setFrames =
        .ok [.ofMagnitude .set 12 .thrown, .ofMagnitude .set 1948 .closed] ∧
      reverseWired.lockFrames =
        .ok [.ofMagnitude .lock 112 .closed, .ofMagnitude .lock 2048 .closed] := by
  have hexact := frames_exact reverseWired
  exact ⟨hexact.2.1 rfl, (hexact.2.2.1 100 rfl).1, by decide +kernel, by decide +kernel⟩

/-- The magnitude of the least address does not fit into 32 bits with a sign. -/
example :
    setFrames { plain 27 .straight with addresses := [12, -13, Int32.minValue, 0] } =
      .error ⟨-2147483648⟩ := by
  decide +kernel

end PointCommand

end SignalBox
