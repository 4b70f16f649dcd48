import SignalBox.Proofs.Disturbances

/-!
# How calls for points end

A point command is turned away, finds its point in position, moves it, or fails. What it records is
its position for the sub-points it covers, and only in the end, so nothing is recorded by a command
that fails after some of its frames (`Yard.pointEnds_of_completes`).
-/

namespace SignalBox

namespace Yard

variable {y z w : Yard} {token : Token} {c : PointCommand} {result : JobResult}

/-- How a point command ends: the frames that are accepted for it, its result, and the yard in the
end. -/
inductive PointEnds (y : Yard) (c : PointCommand) :
    List AcceptedFrame → JobResult → Yard → Prop
  /-- The point is in position. -/
  | inPosition {w : Yard} (h : y.InPosition c) (hw : y.Keeps w) :
      PointEnds y c [] (.command (.ok (.point .alreadyInPosition))) w
  /-- The command is turned away. -/
  | rejected {outcome : PointOutcome} {w : Yard} (hnot : ¬ y.InPosition c)
      (hset : outcome ≠ .set) (hin : outcome ≠ .alreadyInPosition) (hw : y.Keeps w) :
      PointEnds y c [] (.command (.ok (.point outcome))) w
  /-- The frames of the point cannot be encoded. -/
  | unencodable {cause : AddressError} {w : Yard} (hnot : ¬ y.InPosition c) (hw : y.Keeps w) :
      PointEnds y c [] (.command (.error (.protocol cause))) w
  /-- All frames are accepted, and the position is recorded. -/
  | moved {point : PointCommand} {frames : List Frame} {sent : List AcceptedFrame} {w : Yard}
      (hmoves : y.Moves c point frames) (hsent : sent.map (·.frame) = frames)
      (hw : y.After sent y.active
        (y.positions.recordAll c.position (Positions.keysOf y.layout c)) w) :
      PointEnds y c sent (.command (.ok (.point .set))) w
  /-- The command is cancelled, or a frame is refused. -/
  | failed {point : PointCommand} {frames : List Frame} {sent : List AcceptedFrame}
      {failure : Failure} {w : Yard} (hmoves : y.Moves c point frames)
      (hfailure : ∀ cause, failure ≠ .protocol cause) (hw : y.Passes sent w) :
      PointEnds y c sent (.command (.error failure)) w

/-- A point that is to be moved is not in position. -/
theorem Moves.not_inPosition {point : PointCommand} {frames : List Frame}
    (h : y.Moves c point frames) : ¬ y.InPosition c := by
  intro hin
  have helsewhere := h.elsewhere
  rw [(Layout.sameRequest_of_resolvePoint? h.resolves).position, hin.there] at helsewhere
  cases helsewhere

/-- A point command that begins is turned away, or it makes its delivery. -/
theorem pointEnds_startPoint
    (h : Task.Completes (Task.ofProgress (y.startPoint token c)).1
      (Task.ofProgress (y.startPoint token c)).2 result w) :
    ∃ sent, y.PointEnds c sent result w := by
  by_cases hin : y.InPosition c
  · rw [(y.inPosition_iff token).1 hin] at h
    obtain ⟨rfl, hk⟩ := Task.keeps_of_completes_done rfl h
    exact ⟨[], .inPosition hin ((y.keeps_publish _).trans hk)⟩
  · rcases y.startPoint_cases token c with
        ⟨outcome, hset, hs⟩ | ⟨cause, hs⟩ | ⟨point, frames, hmoves, hs⟩
    · have hother : outcome ≠ .alreadyInPosition := by
        rintro rfl
        exact hin ((y.inPosition_iff token).2 hs)
      rw [hs] at h
      obtain ⟨rfl, hk⟩ := Task.keeps_of_completes_done rfl h
      exact ⟨[], .rejected hin hset hother ((y.keeps_publish _).trans hk)⟩
    · rw [hs] at h
      obtain ⟨rfl, hk⟩ := Task.keeps_of_completes_done rfl h
      exact ⟨[], .unencodable hin ((y.keeps_publish _).trans hk)⟩
    · rw [hs] at h
      obtain ⟨sent, ⟨hsent, rfl, hw⟩ | ⟨failure, hf, -, rfl, hw⟩⟩ := delivered_of_completes rfl h
      · exact ⟨sent, .moved hmoves hsent hw⟩
      · exact ⟨sent, .failed hmoves hf hw⟩

/-- A point command that finds its point in position says so, and no other one does. -/
theorem PointEnds.eq_alreadyInPosition_iff {sent : List AcceptedFrame}
    (h : y.PointEnds c sent result w) :
    result = .command (.ok (.point .alreadyInPosition)) ↔ y.InPosition c := by
  cases h with
  | inPosition hin => exact iff_of_true rfl hin
  | rejected hnot _ hother => exact iff_of_false (by simpa using hother) hnot
  | unencodable hnot => exact iff_of_false (by simp) hnot
  | moved hmoves | failed hmoves => exact iff_of_false (by simp) hmoves.not_inPosition

/-- Whether a point is in position depends on the layout, the active routes and the record. -/
theorem InPosition.of_eq (h : z.InPosition c) (hplan : z.plan = y.plan)
    (hactive : z.active = y.active) (hpositions : z.positions = y.positions) : y.InPosition c := by
  obtain ⟨hdefined, hknown, hfree, hthere⟩ := h
  rw [layout, hplan] at hknown hthere
  rw [hactive] at hfree
  rw [hpositions] at hthere
  exact ⟨hdefined, hknown, hfree, hthere⟩

/-- So does whether it is to be moved. -/
theorem Moves.of_eq {point : PointCommand} {frames : List Frame} (h : z.Moves c point frames)
    (hplan : z.plan = y.plan) (hactive : z.active = y.active)
    (hpositions : z.positions = y.positions) : y.Moves c point frames := by
  obtain ⟨hdefined, hresolves, hfree, helsewhere, hencoded⟩ := h
  rw [layout, hplan] at hresolves helsewhere
  rw [hactive] at hfree
  rw [hpositions] at helsewhere
  exact ⟨hdefined, hresolves, hfree, helsewhere, hencoded⟩

/-- It does not matter for a point command how long it has waited to begin. -/
theorem PointEnds.of_keeps {sent : List AcceptedFrame} (hk : y.Keeps z)
    (h : z.PointEnds c sent result w) : y.PointEnds c sent result w := by
  have hnot (h : ¬ z.InPosition c) : ¬ y.InPosition c :=
    fun hin ↦ h (hin.of_eq hk.plan_eq.symm hk.active_eq.symm hk.positions_eq.symm)
  have hmoves {point : PointCommand} {frames : List Frame} (h : z.Moves c point frames) :
      y.Moves c point frames := h.of_eq hk.plan_eq hk.active_eq hk.positions_eq
  cases h with
  | inPosition h hw =>
    exact .inPosition (h.of_eq hk.plan_eq hk.active_eq hk.positions_eq) (hk.trans hw)
  | rejected h hset hin hw => exact .rejected (hnot h) hset hin (hk.trans hw)
  | unencodable h hw => exact .unencodable (hnot h) (hk.trans hw)
  | moved h hsent hw =>
    have hw' := After.trans hk hw
    rw [hk.active_eq, hk.positions_eq, layout, hk.plan_eq] at hw'
    exact .moved (hmoves h) hsent hw'
  | failed h hfailure hw => exact .failed (hmoves h) hfailure (Passes.trans hk hw)

/-- **Point commands** end in one of these ways, whatever happens while they wait. -/
theorem pointEnds_of_completes
    (h : Task.Completes y (.pending (.command (.point c) token)) result w) :
    ∃ sent, y.PointEnds c sent result w := by
  obtain ⟨z, hz, h⟩ := Task.begin_of_completes_pending h
  rw [Task.begin, startCommand] at h
  obtain ⟨sent, hends⟩ := pointEnds_startPoint h
  exact ⟨sent, hends.of_keeps hz.keeps⟩

end Yard

end SignalBox
