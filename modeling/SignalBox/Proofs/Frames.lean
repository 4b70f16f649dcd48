import SignalBox.Bus.Encoding
import SignalBox.Proofs.Resolution

/-!
# What frames say

A frame that has been encoded has the kind, the magnitude of the address and the position that were
given (`encodes_of_encode`). So the frames of a point, of its locks and of a route can be described
by the lists that they come from, one frame for each address, in order.
-/

namespace SignalBox

namespace Frame

variable {kind : FrameKind} {magnitude : Nat} {position : WirePosition}

theorem toNat_low_ofMagnitude :
    (ofMagnitude kind magnitude position).low.toNat = (magnitude - 1) % 128 := by
  show (UInt8.ofNat _).toNat = _
  rw [UInt8.toNat_ofNat']
  omega

/-- The high byte holds four bits of the address, the output bit and the direction bit. -/
theorem toNat_high_ofMagnitude (h : magnitude ≤ maxAddress) :
    (ofMagnitude kind magnitude position).high.toNat =
      (magnitude - 1) / 128 + 16 + match position with
        | .closed => 32
        | .thrown => 0 := by
  have hle : magnitude ≤ 2048 := h
  show (UInt8.ofNat _).toNat = _
  rw [UInt8.toNat_ofNat']
  cases position <;> dsimp only <;> omega

theorem address_ofMagnitude (hpos : 1 ≤ magnitude) (h : magnitude ≤ maxAddress) :
    (ofMagnitude kind magnitude position).address = magnitude := by
  have hle : magnitude ≤ 2048 := h
  rw [address, toNat_low_ofMagnitude, toNat_high_ofMagnitude h]
  cases position <;> dsimp only <;> omega

theorem position_ofMagnitude (h : magnitude ≤ maxAddress) :
    (ofMagnitude kind magnitude position).position = position := by
  have hle : magnitude ≤ 2048 := h
  rw [Frame.position, toNat_high_ofMagnitude h]
  cases position with
  | closed => exact if_pos (show ((magnitude - 1) / 128 + 16 + 32) / 32 % 2 = 1 by omega)
  | thrown => exact if_neg (show ¬ ((magnitude - 1) / 128 + 16 + 0) / 32 % 2 = 1 by omega)

/-- A frame of some kind puts the accessory at an address, whatever its sign, into a position. -/
structure Encodes (kind : FrameKind) (position : WirePosition) (a : Int) (f : Frame) : Prop where
  kind_eq : f.kind = kind
  address_eq : f.address = a.natAbs
  position_eq : f.position = position

/-- **Encoding** keeps what it is given. -/
theorem encodes_of_encode {a : Int} {f : Frame} (h : encode kind a position = .ok f) :
    f.Encodes kind position a := by
  rw [encode] at h
  split at h
  next hbus =>
    obtain rfl := Except.ok.inj h
    exact ⟨rfl, address_ofMagnitude hbus.1 hbus.2, position_ofMagnitude hbus.2⟩
  · cases h

/-- Whether an address can be encoded depends on the address alone. -/
theorem encode_isOk {kind' : FrameKind} {position' : WirePosition} {a : Int} {f : Frame}
    (h : encode kind a position = .ok f) : ∃ f', encode kind' a position' = .ok f' := by
  rw [encode] at h ⊢
  split at h
  next hbus => exact ⟨_, if_pos hbus⟩
  · cases h

end Frame

/-! ### The frames of points -/

namespace PointCommand

variable {c : PointCommand} {frames : List Frame}

/-- The frames that move a point, one for each of its addresses. -/
theorem encodes_of_setFrames (h : c.setFrames = .ok frames) (hc : c.isUndefined = false) :
    List.Forall₂ (fun a f ↦ f.Encodes .set (.ofPosition (c.position.forAddress a)) a.toInt)
      c.addresses frames := by
  rw [setFrames, hc, if_neg Bool.false_ne_true, mapM_eq_ok_iff] at h
  exact h.imp fun a f ↦ Frame.encodes_of_encode

/-- A point that nothing is asked of is not moved. -/
theorem setFrames_of_isUndefined (h : c.setFrames = .ok frames) (hc : c.isUndefined = true) :
    frames = [] := by
  rw [setFrames, if_pos hc] at h
  exact (Except.ok.inj h).symm

theorem kind_of_mem_setFrames {f : Frame} (h : c.setFrames = .ok frames) (hf : f ∈ frames) :
    f.kind = .set := by
  cases hc : c.isUndefined with
  | true =>
    rw [setFrames_of_isUndefined h hc] at hf
    cases hf
  | false =>
    obtain ⟨a, -, hencodes⟩ := exists_left_of_mem_right (encodes_of_setFrames h hc) hf
    exact hencodes.kind_eq

/-- The frames that engage the locks of a point, one for each of them. -/
theorem encodes_of_lockFrames (h : c.lockFrames = .ok frames) :
    List.Forall₂ (fun a f ↦ f.Encodes .lock .closed a.toInt) c.lockAddresses frames := by
  rw [lockFrames, mapM_eq_ok_iff] at h
  exact h.imp fun a f ↦ Frame.encodes_of_encode

/-- The frames that release the locks of a point, one for each of them. -/
theorem encodes_of_unlockFrames (h : c.unlockFrames = .ok frames) :
    List.Forall₂ (fun a f ↦ f.Encodes .unlock .thrown a.toInt) c.lockAddresses frames := by
  rw [unlockFrames, mapM_eq_ok_iff] at h
  exact h.imp fun a f ↦ Frame.encodes_of_encode

/-- Locks that can be engaged can be released. -/
theorem unlockFrames_isOk (h : c.lockFrames = .ok frames) : ∃ fs, c.unlockFrames = .ok fs := by
  rw [lockFrames, mapM_eq_ok_iff] at h
  refine exists_mapM_eq_ok fun a ha ↦ ?_
  obtain ⟨f, -, hf⟩ := exists_right_of_mem_left h ha
  exact Frame.encode_isOk hf

end PointCommand

/-- **Frames and locks** of several points: each frame is for a lock, and each lock has a frame. -/
theorem encodes_locks {kind : FrameKind} {position : WirePosition} {points : List PointCommand}
    {frames : List (List Frame)}
    (h : List.Forall₂ (fun p fs ↦ List.Forall₂ (fun a f ↦ f.Encodes kind position a.toInt)
      (PointCommand.lockAddresses p) fs) points frames) :
    (∀ f ∈ frames.flatten, ∃ p ∈ points, ∃ a ∈ p.lockAddresses,
        f.Encodes kind position a.toInt) ∧
      ∀ p ∈ points, ∀ a ∈ p.lockAddresses, ∃ f ∈ frames.flatten,
        f.Encodes kind position a.toInt := by
  constructor
  · intro f hf
    obtain ⟨fs, hfs, hf⟩ := List.mem_flatten.1 hf
    obtain ⟨p, hp, hlocks⟩ := exists_left_of_mem_right h hfs
    obtain ⟨a, ha, hencodes⟩ := exists_left_of_mem_right hlocks hf
    exact ⟨p, hp, a, ha, hencodes⟩
  · intro p hp a ha
    obtain ⟨fs, hfs, hlocks⟩ := exists_right_of_mem_left h hp
    obtain ⟨f, hf, hencodes⟩ := exists_right_of_mem_left hlocks ha
    exact ⟨f, List.mem_flatten.2 ⟨fs, hfs, hf⟩, hencodes⟩

/-! ### The frames of routes -/

/-- **The frames of a route**: those that move its points, then those that engage their locks. -/
theorem RouteCommand.setFrames_eq_ok_iff {r : RouteCommand} {frames : List Frame} :
    r.setFrames = .ok frames ↔
      ∃ moves locks, List.Forall₂ (fun p fs ↦ p.setFrames = .ok fs) r.points moves ∧
        List.Forall₂ (fun p fs ↦ p.lockFrames = .ok fs) r.points locks ∧
        moves.flatten ++ locks.flatten = frames := by
  simp only [← mapM_eq_ok_iff, ← List.flatten_append]
  rw [setFrames, bind_eq_ok_iff]
  refine exists_congr fun moves ↦ ?_
  rw [bind_eq_ok_iff, ← exists_and_left]
  exact exists_congr fun locks ↦ and_congr_right fun _ ↦ and_congr_right fun _ ↦
    Iff.of_eq (Except.ok.injEq _ _)

/-- The frames that release the locks of some points, point by point. -/
theorem unlockFrames_eq_ok_iff {points : List PointCommand} {frames : List Frame} :
    unlockFrames points = .ok frames ↔
      ∃ unlocks, List.Forall₂ (fun p fs ↦ p.unlockFrames = .ok fs) points unlocks ∧
        unlocks.flatten = frames := by
  simp only [← mapM_eq_ok_iff]
  rw [unlockFrames, bind_eq_ok_iff]
  exact exists_congr fun unlocks ↦ and_congr_right fun _ ↦ Iff.of_eq (Except.ok.injEq _ _)

theorem encodes_of_unlockFrames {points : List PointCommand} {frames : List Frame}
    (h : unlockFrames points = .ok frames) :
    (∀ f ∈ frames, ∃ p ∈ points, ∃ a ∈ p.lockAddresses, f.Encodes .unlock .thrown a.toInt) ∧
      ∀ p ∈ points, ∀ a ∈ p.lockAddresses, ∃ f ∈ frames, f.Encodes .unlock .thrown a.toInt := by
  obtain ⟨unlocks, hunlocks, rfl⟩ := unlockFrames_eq_ok_iff.1 h
  exact encodes_locks (hunlocks.imp fun p fs ↦ PointCommand.encodes_of_unlockFrames)

theorem unlocks_of_unlockFrames {points : List PointCommand} {frames : List Frame}
    (h : unlockFrames points = .ok frames) {f : Frame} (hf : f ∈ frames) :
    f.kind = .unlock ∧ f.position = .thrown := by
  obtain ⟨p, -, a, -, hencodes⟩ := (encodes_of_unlockFrames h).1 f hf
  exact ⟨hencodes.kind_eq, hencodes.position_eq⟩

/-- A signal is shown by a frame that sets. -/
theorem SignalCommand.kind_of_frame? {s : SignalCommand} {f : Frame}
    (h : s.frame? = .ok (some f)) : f.kind = .set := by
  rw [frame?] at h
  split at h
  · obtain ⟨f', hf, he⟩ := map_eq_ok_iff.1 h
    exact Option.some.inj he ▸ (Frame.encodes_of_encode hf).kind_eq
  · cases h

end SignalBox
