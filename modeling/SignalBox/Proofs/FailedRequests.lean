import SignalBox.Proofs.EngagedLocks

/-!
# Requests that do not set their route

A request to set a route takes its reservation before its first frame, and gives it back if its
frames do not all reach the bus. The reservation is found by the end signals of the route. The main
statement (`Yard.unchanged_of_not_set`) is that a call that does not set its route leaves the list
of active routes as it was, order included, and the recorded positions as well. On the bus it leaves
nothing, if it was turned away, and otherwise as many of its frames as its failure tells.
-/

namespace SignalBox

namespace Yard

variable {y w : Yard} {token : Token} {request route resolved : RouteCommand} {frames : List Frame}
  {result : JobResult}

/-- The frames for a request to set a route: those that move the points of the resolved route, then
those that engage their locks. -/
def HasSetFrames (y : Yard) (request : RouteCommand) (frames : List Frame) : Prop :=
  ∃ route resolved moves locks, y.withPoints request = .ok route ∧
    y.layout.resolveRoute route = .ok resolved ∧
    resolved.points.mapM PointCommand.setFrames = .ok moves ∧
    resolved.points.mapM PointCommand.lockFrames = .ok locks ∧
    frames = moves.flatten ++ locks.flatten

/-- The results of a request that has not set its route, and the frames that were accepted for it.
-/
inductive LeftBy (y : Yard) (request : RouteCommand) : JobResult → List Frame → Prop
  | rejected (reason : RejectReason) :
      LeftBy y request (.command (.ok (.route (.rejected reason)))) []
  | unencodable (cause : AddressError) :
      LeftBy y request (.command (.error (.protocol cause))) []
  | cancelled {n : Nat} {frames : List Frame} (hframes : y.HasSetFrames request frames)
      (hn : n < frames.length) :
      LeftBy y request (.command (.error (.cancelled n))) (frames.take n)
  | refused {n : Nat} {cause : BusError} {frames : List Frame}
      (hframes : y.HasSetFrames request frames) (hn : n < frames.length) :
      LeftBy y request (.command (.error (.transport n cause))) (frames.take n)

theorem Admits.hasSetFrames (h : y.Admits request route resolved frames) :
    y.HasSetFrames request frames := by
  obtain ⟨moves, locks, hmoves, hlocks, rfl⟩ := RouteCommand.setFrames_eq_ok_iff.1 h.encoded
  exact ⟨route, resolved, moves, locks, h.expanded, h.resolves, mapM_eq_ok_iff.2 hmoves,
    mapM_eq_ok_iff.2 hlocks, rfl⟩

/-- **Requests that fail.** A call to set a route that has the yard to itself and does not set its
route leaves the active routes and the recorded positions as they were, whenever it is cancelled and
whatever the bus refuses. It has sent nothing, or exactly as many frames as its failure tells. -/
theorem unchanged_of_not_set (hset : request.state.isSet = true)
    (h : Task.Completes y (.pending (.command (.route request) token)) result w)
    (hresult : result ≠ .command (.ok (.route .set))) :
    w.active = y.active ∧ w.positions = y.positions ∧
      ∃ sent : List AcceptedFrame, w.line.accepted = y.line.accepted ++ sent ∧
        y.LeftBy request result (sent.map (·.frame)) := by
  obtain ⟨sent, hends⟩ := requestEnds_of_completesIn hset (Task.completesIn_true_iff.2 h)
  cases hends with
  | rejected _ hw => exact ⟨hw.active_eq, hw.positions_eq, [], hw.accepted_eq, .rejected _⟩
  | unencodable _ hw => exact ⟨hw.active_eq, hw.positions_eq, [], hw.accepted_eq, .unencodable _⟩
  | set => exact absurd rfl hresult
  | @disturbed route resolved frames _ _ _ _ hadmits _ hdisturbs hpre hlt hw =>
    refine ⟨hw.active_eq, hw.positions_eq, sent, hw.accepted_eq, ?_⟩
    have hsent : sent.map (·.frame) = frames.take sent.length := by
      rw [List.prefix_iff_eq_take.1 hpre, List.length_map]
    rw [hsent]
    cases hdisturbs with
    | cancelled => exact .cancelled hadmits.hasSetFrames hlt
    | refused => exact .refused hadmits.hasSetFrames hlt

/-- A second route is stopped between the frame for its point and that for its lock, and the first
one stays. -/
theorem unchanged_of_refused_lock :
    let y := (Turn.ofMoves (.start (.junction [.linked "27" [12] [13] 100,
        .linked "28" [14] [15] 100]) 0 64 { BusFaults.none with refuseAt := some 3 })
      (Turns.routeJob 64 72 .setMain [.plain 27 .straight]) (List.replicate 7 (.go 0))
      (.command (.ok (.route .set)))).after
    let request : RouteCommand :=
      { RouteCommand.plain 60 80 .setMain with points := [.plain 28 .straight] }
    ∃ w : Yard, y.active.routes.length = 1 ∧ w.active = y.active ∧ w.positions = y.positions ∧
      ∃ sent : List AcceptedFrame, w.line.accepted = y.line.accepted ++ sent ∧
        y.LeftBy request (.command (.error (.transport 1 (.refused 3)))) (sent.map (·.frame)) := by
  intro y request
  let task : Task := .pending (.command (.route request) .never)
  have hw : Task.Completes y task (.command (.error (.transport 1 (.refused 3)))) _ :=
    Traffic.completes_of_run (show (Traffic.run ⟨y, [task]⟩ (List.replicate 7 (.go 0))).tasks =
      [Task.ended _ 0] by decide +kernel)
  exact ⟨_, by decide +kernel, unchanged_of_not_set rfl hw (by decide)⟩

end Yard

end SignalBox
