import SignalBox.Proofs.Frames
import SignalBox.Proofs.PointCalls
import SignalBox.Proofs.RouteCalls

/-!
# What a call may do

`Yard.Effect` lists what a call that has the yard to itself may do: it sends nothing, or it goes
through and its frames, routes and positions are those that its checks have prepared, or it fails
and leaves a part of its frames. Every call has one of these effects (`effect_of_completes`). A
sequential run is a list of turns, each of which is one call (`Turns`); what holds of every
sequential run is shown by going through the effects of its last turn (`Turn.Valid.effect`).
-/

namespace SignalBox

namespace Yard

variable {y z w : Yard} {token : Token} {purpose : Purpose} {result : JobResult}

/-- **The stop of signals** sends frames that set, and changes nothing else. -/
theorem stops_of_completes {count : Nat} {signals : List SignalCommand}
    (h : Task.Completes (Task.ofProgress (y.showSignals token count signals)).1
      (Task.ofProgress (y.showSignals token count signals)).2 result w) :
    ∃ sent : List AcceptedFrame, (∀ f ∈ sent, f.frame.kind = .set) ∧
      result ≠ .command (.ok (.point .alreadyInPosition)) ∧ y.Passes sent w := by
  induction signals generalizing y with
  | nil =>
    obtain ⟨rfl, hk⟩ := Task.keeps_of_completes_done rfl h
    exact ⟨[], by simp, by simp, hk⟩
  | cons signal rest ih =>
    rcases shows_of_completesIn (Task.completesIn_true_iff.2 h) with
        ⟨cause, -, rfl, hk⟩ | ⟨-, failure, -, -, rfl, hk⟩ |
        ⟨frame, first, z, hframe, hfirst, hz, hc⟩
    · exact ⟨[], by simp, by simp, hk⟩
    · exact ⟨[], by simp, by simp, hk⟩
    · obtain ⟨others, hkind, hresult, hw⟩ := ih (Task.completesIn_true_iff.1 hc)
      refine ⟨first ++ others, fun f hf ↦ ?_, hresult, Passes.trans hz hw⟩
      rcases List.mem_append.1 hf with hf | hf
      · have hmem : f.frame ∈ frame.toList := hfirst ▸ List.mem_map_of_mem hf
        exact SignalCommand.kind_of_frame? (Option.mem_toList.1 hmem ▸ hframe)
      · exact hkind f hf

end Yard

/-! ### What a call may do -/

/-- Whether a job is a call for points or routes. -/
def Job.isPositional : Job → Bool
  | .command (.point _) _ => true
  | .command (.route _) _ => true
  | .command (.control .clearAllRoutes) _ => true
  | _ => false

/-- Whether a job is a call that may send frames. -/
def Job.isCall : Job → Bool
  | .command _ _ => true
  | .signal _ _ => true
  | _ => false

namespace Yard

/-- What a call may do to a yard: the frames that it sends, its result, and the yard in the end. -/
inductive Effect (y : Yard) : Job → List AcceptedFrame → JobResult → Yard → Prop
  /-- Nothing is sent. -/
  | idle {job : Job} {result : JobResult} {w : Yard} (hjob : job.isRelease = false)
      (hresult : result ≠ .command (.ok (.point .alreadyInPosition))) (hw : y.Keeps w) :
      Effect y job [] result w
  /-- The point is found in position. -/
  | inPosition {c point : PointCommand} {token : Token} {w : Yard}
      (hresolves : y.layout.resolvePoint? c = some point)
      (hall : y.positions.allAt point.position (Positions.keysOf y.layout c) = true)
      (hw : y.Keeps w) :
      Effect y (.command (.point c) token) [] (.command (.ok (.point .alreadyInPosition))) w
  /-- The point is moved. -/
  | moved {c point : PointCommand} {token : Token} {frames : List Frame}
      {sent : List AcceptedFrame} {w : Yard} (hmoves : y.Moves c point frames)
      (hsent : sent.map (·.frame) = frames)
      (hw : y.After sent y.active
        (y.positions.recordAll c.position (Positions.keysOf y.layout c)) w) :
      Effect y (.command (.point c) token) sent (.command (.ok (.point .set))) w
  /-- The route is set. -/
  | set {request route resolved : RouteCommand} {token : Token} {frames : List Frame}
      {sent : List AcceptedFrame} {w : Yard} (hset : request.state.isSet = true)
      (hadmits : y.Admits request route resolved frames) (hsent : sent.map (·.frame) = frames)
      (hw : y.After sent (y.active.insert resolved)
        (y.positionsAfter (.setRoute y.layout route resolved)) w) :
      Effect y (.command (.route request) token) sent (.command (.ok (.route .set))) w
  /-- Routes are released. -/
  | released {job : Job} {removed : List RouteCommand} {remaining : Reservations}
      {frames : List Frame} {sent : List AcceptedFrame} {outcome : RouteOutcome} {w : Yard}
      (hreleases : y.Releases job removed remaining)
      (hframes : unlockFrames (remaining.pointsToUnlock removed) = .ok frames)
      (hsent : sent.map (·.frame) = frames) (hw : y.After sent remaining y.positions w) :
      Effect y job sent (.command (.ok (.route outcome))) w
  /-- Routes are taken away, but their locks cannot be released. -/
  | stuck {job : Job} {removed : List RouteCommand} {remaining : Reservations}
      {cause : AddressError} {w : Yard} (hreleases : y.Releases job removed remaining)
      (hframes : unlockFrames (remaining.pointsToUnlock removed) = .error cause)
      (hw : y.After [] remaining y.positions w) :
      Effect y job [] (.command (.error (.protocol cause))) w
  /-- Signals or the turntable are set. -/
  | shown {job : Job} {sent : List AcceptedFrame} {result : JobResult} {w : Yard}
      (hjob : job.isPositional = false) (hkind : ∀ f ∈ sent, f.frame.kind = .set)
      (hresult : result ≠ .command (.ok (.point .alreadyInPosition))) (hw : y.Passes sent w) :
      Effect y job sent result w
  /-- The bus refuses a frame, or the call is cancelled. -/
  | failed {job : Job} {sent : List AcceptedFrame} {failure : Failure} {active : Reservations}
      {w : Yard} (hfailure : ∀ cause, failure ≠ .protocol cause)
      (hactive : ∀ r ∈ active.routes, r ∈ y.active.routes)
      (hw : y.After sent active y.positions w) :
      Effect y job sent (.command (.error failure)) w

variable {y z w : Yard} {token : Token} {purpose : Purpose} {job : Job} {result : JobResult}

theorem PointEnds.effect {c : PointCommand} {sent : List AcceptedFrame}
    (h : y.PointEnds c sent result w) : y.Effect (.command (.point c) token) sent result w := by
  cases h with
  | inPosition hin hw =>
    obtain ⟨point, hresolves⟩ := hin.known
    refine .inPosition hresolves ?_ hw
    rw [(Layout.sameRequest_of_resolvePoint? hresolves).position]
    exact hin.there
  | rejected _ _ hother hw => exact .idle rfl (by simpa using hother) hw
  | unencodable _ hw => exact .idle rfl (by simp) hw
  | moved hmoves hsent hw => exact .moved hmoves hsent hw
  | failed _ hf hw => exact .failed hf (fun _ hr ↦ hr) hw

theorem RequestEnds.effect {P : Yard → Prop} {request : RouteCommand} {sent : List AcceptedFrame}
    (hset : request.state.isSet = true) (h : RequestEnds P y request token sent result w) :
    y.Effect (.command (.route request) token) sent result w := by
  have hrelease := RouteState.isTeardown_of_isSet hset
  cases h with
  | rejected _ hw | unencodable _ hw => exact .idle hrelease (by simp) hw
  | set hadmits hsent hw => exact .set hset hadmits hsent hw
  | disturbed _ _ hdisturbs _ _ hw => exact .failed hdisturbs.ne_protocol (fun _ hr ↦ hr) hw

theorem ReleaseEnds.effect {P : Yard → Prop} {c : Command} {sent : List AcceptedFrame}
    (h : ReleaseEnds P y c token sent result w) : y.Effect (.command c token) sent result w := by
  cases h with
  | notActive hreleases _ hw => exact .released hreleases rfl rfl hw
  | unencodable hreleases hframes hw => exact .stuck hreleases hframes hw
  | released hreleases hframes _ hsent hw => exact .released hreleases hframes hsent hw
  | disturbed hreleases _ _ hdisturbs _ _ hw =>
    -- the routes that were taken away do not come back
    exact .failed hdisturbs.ne_protocol (fun _ hr ↦ hreleases.mem_routes_iff.2 (.inr hr)) hw

/-- A call that shows signals or turns the turntable sends at most frames that set. -/
theorem effect_shown {frames : List Frame} {outcome : Outcome}
    (hjob : job.isPositional = false) (hkind : ∀ f ∈ frames, f.kind = .set)
    (hpurpose : purpose.outcome? = some outcome) (houtcome : outcome ≠ .point .alreadyInPosition)
    (hactive : afterFailure y.active purpose = y.active)
    (hpositions : y.positionsAfter purpose = y.positions)
    (h : Task.Completes (Task.ofProgress (y.deliver token purpose frames)).1
      (Task.ofProgress (y.deliver token purpose frames)).2 result w) :
    ∃ sent, y.Effect job sent result w := by
  obtain ⟨sent, ⟨hsent, rfl, hw⟩ | ⟨failure, hf, -, rfl, hw⟩⟩ := delivered_of_completes hpurpose h
  · rw [hpositions] at hw
    exact ⟨sent, .shown hjob (fun f hf ↦ hkind _ (hsent ▸ List.mem_map_of_mem hf))
      (by simpa using houtcome) hw⟩
  · rw [hactive] at hw
    exact ⟨sent, .failed hf (fun _ hr ↦ hr) hw⟩

theorem effect_startSignal {signal : SignalCommand}
    (h : Task.Completes (Task.ofProgress (y.startSignal token signal)).1
      (Task.ofProgress (y.startSignal token signal)).2 result w) :
    ∃ sent, y.Effect (.signal signal token) sent result w := by
  rw [startSignal] at h
  split at h
  · obtain ⟨rfl, hk⟩ := Task.keeps_of_completes_done rfl h
    exact ⟨[], .idle rfl (by simp) hk⟩
  · obtain ⟨rfl, hk⟩ := Task.keeps_of_completes_done rfl h
    exact ⟨[], .idle rfl (by simp) ((y.keeps_announce _ _).trans hk)⟩
  next frame hframe =>
    have hkind := SignalCommand.kind_of_frame? hframe
    exact effect_shown rfl (by simpa using hkind) rfl (by simp) rfl rfl h

theorem effect_startTurntable {command : TurntableCommand}
    (h : Task.Completes (Task.ofProgress (y.startTurntable token command)).1
      (Task.ofProgress (y.startTurntable token command)).2 result w) :
    ∃ sent, y.Effect (.command (.turntable command) token) sent result w := by
  rw [startTurntable] at h
  split at h
  · obtain ⟨rfl, hk⟩ := Task.keeps_of_completes_done rfl h
    exact ⟨[], .idle rfl (by simp) ((y.keeps_publish _).trans hk)⟩
  · split at h
    · obtain ⟨rfl, hk⟩ := Task.keeps_of_completes_done rfl h
      exact ⟨[], .idle rfl (by simp) ((y.keeps_publish _).trans hk)⟩
    next frame hframe =>
      have hkind := (Frame.encodes_of_encode hframe).kind_eq
      exact effect_shown rfl (by simpa using hkind) rfl (by simp) rfl rfl h

theorem effect_startCommand {command : Command}
    (h : Task.Completes (Task.ofProgress (y.startCommand token command)).1
      (Task.ofProgress (y.startCommand token command)).2 result w) :
    ∃ sent, y.Effect (.command command token) sent result w := by
  cases command with
  | point c =>
    obtain ⟨sent, hends⟩ := pointEnds_startPoint h
    exact ⟨sent, hends.effect⟩
  | route request =>
    simp only [startCommand, startRoute] at h
    split at h
    next hset =>
      obtain ⟨sent, hends⟩ := requestEnds_setRoute hset (Task.completesIn_true_iff.2 h)
      exact ⟨sent, hends.effect hset⟩
    next =>
      split at h
      next hteardown =>
        obtain ⟨sent, hends⟩ := releaseEnds_releaseRoute hteardown (Task.completesIn_true_iff.2 h)
        exact ⟨sent, hends.effect⟩
      next hteardown =>
        obtain ⟨rfl, hk⟩ := Task.keeps_of_completes_done rfl h
        exact ⟨[], .idle (Bool.eq_false_iff.2 hteardown) (by simp)
          ((y.keeps_publish _).trans hk)⟩
  | turntable command => exact effect_startTurntable h
  | control command =>
    cases command with
    | clearAllRoutes =>
      obtain ⟨sent, hends⟩ := releaseEnds_clearAllRoutes (Task.completesIn_true_iff.2 h)
      exact ⟨sent, hends.effect⟩
    | stopAllSignals =>
      obtain ⟨sent, hkind, hresult, hw⟩ := stops_of_completes h
      exact ⟨sent, .shown rfl hkind hresult hw⟩
    | reload =>
      obtain ⟨rfl, hk⟩ := Task.keeps_of_completes_done rfl h
      exact ⟨[], .idle rfl (by simp) ((y.keeps_publish _).trans hk)⟩

/-- **Routes after a call** have been active before it, or the call is a request that is admitted
for this route and has sent its frames. -/
theorem Effect.mem_routes {sent : List AcceptedFrame} (h : y.Effect job sent result w)
    {r : RouteCommand} (hr : r ∈ w.active.routes) :
    r ∈ y.active.routes ∨ ∃ request token route frames,
      job = .command (.route request) token ∧ request.state.isSet = true ∧
        y.Admits request route r frames ∧ sent.map (·.frame) = frames := by
  cases h with
  | idle _ _ hw | inPosition _ _ hw | moved _ _ hw | shown _ _ _ hw =>
    exact .inl (hw.active_eq ▸ hr)
  | released hreleases _ _ hw | stuck hreleases _ hw =>
    exact .inl (hreleases.mem_routes_iff.2 (.inr (hw.active_eq ▸ hr)))
  | failed _ hactive hw => exact .inl (hactive r (hw.active_eq ▸ hr))
  | set hset hadmits hsent hw =>
    rw [hw.active_eq] at hr
    rcases List.mem_append.1 hr with hr | hr
    · exact .inl hr
    · obtain rfl := List.mem_singleton.1 hr
      exact .inr ⟨_, _, _, _, rfl, hset, hadmits, hsent⟩

/-- It does not matter for a call how long it has waited to begin. -/
theorem Effect.of_waits {sent : List AcceptedFrame} (hy : y.Waits z)
    (h : z.Effect job sent result w) : y.Effect job sent result w := by
  have hk := hy.keeps
  obtain ⟨faults, attempts, setOff, now, allowance, rfl⟩ := hy
  cases h with
  | idle hjob hresult hw => exact .idle hjob hresult (hk.trans hw)
  | inPosition hresolves hall hw => exact .inPosition hresolves hall (hk.trans hw)
  | moved hmoves hsent hw =>
    exact .moved ⟨hmoves.defined, hmoves.resolves, hmoves.free, hmoves.elsewhere, hmoves.encoded⟩
      hsent (After.trans hk hw)
  | set hset hadmits hsent hw =>
    exact .set hset ⟨hadmits.expanded, hadmits.free, hadmits.resolves, hadmits.encoded⟩ hsent
      (After.trans hk hw)
  | released hreleases hframes hsent hw =>
    exact .released (hreleases.of_active_eq rfl) hframes hsent (After.trans hk hw)
  | stuck hreleases hframes hw =>
    exact .stuck (hreleases.of_active_eq rfl) hframes (After.trans hk hw)
  | shown hjob hkind hresult hw => exact .shown hjob hkind hresult (hk.trans hw)
  | failed hfailure hactive hw => exact .failed hfailure hactive (After.trans hk hw)

/-- **Every call has one of these effects**, whatever happens while it waits. -/
theorem effect_of_completes (hjob : job.isCall = true)
    (h : Task.Completes y (.pending job) result w) : ∃ sent, y.Effect job sent result w := by
  obtain ⟨z, hz, h⟩ := Task.begin_of_completes_pending h
  cases job with
  | command command token =>
    obtain ⟨sent, he⟩ := effect_startCommand h
    exact ⟨sent, he.of_waits hz⟩
  | signal signal token =>
    obtain ⟨sent, he⟩ := effect_startSignal h
    exact ⟨sent, he.of_waits hz⟩
  | _ => cases hjob

end Yard

/-! ### Sequential runs -/

/-- A call in a sequential run. -/
structure Turn where
  /-- The yard when the call is made. -/
  before : Yard
  /-- The call. -/
  job : Job
  /-- The frames that were accepted during the call. -/
  sent : List AcceptedFrame
  /-- The result of the call. -/
  result : JobResult
  /-- The yard when the call has ended. -/
  after : Yard

/-- The call has been carried out on its own. -/
structure Turn.Valid (turn : Turn) : Prop where
  isCall : turn.job.isCall = true
  completes : Task.Completes turn.before (.pending turn.job) turn.result turn.after
  accepted_eq : turn.after.line.accepted = turn.before.line.accepted ++ turn.sent

/-- A sequential run: calls one after another, from one yard to another. -/
inductive Turns (y : Yard) : List Turn → Yard → Prop
  | nil : Turns y [] y
  | concat {turns : List Turn} {turn : Turn} (h : Turns y turns turn.before)
      (hturn : turn.Valid) : Turns y (turns ++ [turn]) turn.after

theorem Yard.Effect.accepted_eq {y w : Yard} {job : Job} {sent : List AcceptedFrame}
    {result : JobResult} (h : y.Effect job sent result w) :
    w.line.accepted = y.line.accepted ++ sent := by
  cases h with
  | idle _ _ hw | inPosition _ _ hw | moved _ _ hw | set _ _ _ hw | released _ _ _ hw
  | stuck _ _ hw | shown _ _ _ hw | failed _ _ hw => exact hw.accepted_eq

/-- A call keeps the layout. -/
theorem Yard.Effect.plan_eq {y w : Yard} {job : Job} {sent : List AcceptedFrame}
    {result : JobResult} (h : y.Effect job sent result w) : w.plan = y.plan := by
  cases h with
  | idle _ _ hw | inPosition _ _ hw | moved _ _ hw | set _ _ _ hw | released _ _ _ hw
  | stuck _ _ hw | shown _ _ _ hw | failed _ _ hw => exact hw.plan_eq

/-- **Each call of a sequential run** has an effect, and its frames are those of the effect. -/
theorem Turn.Valid.effect {turn : Turn} (h : turn.Valid) :
    turn.before.Effect turn.job turn.sent turn.result turn.after := by
  obtain ⟨sent, he⟩ := Yard.effect_of_completes h.isCall h.completes
  rwa [List.append_cancel_left (h.accepted_eq.symm.trans he.accepted_eq)]

/-- **The layout** is the same in all of a sequential run. -/
theorem Turns.layout_eq {layout : Layout} {delay capacity : Nat} {faults : BusFaults}
    {turns : List Turn} {y : Yard} (h : Turns (.start layout delay capacity faults) turns y) :
    y.layout = layout := by
  induction h with
  | nil => rfl
  | concat _ hturn ih => exact (congrArg Plan.layout hturn.effect.plan_eq).trans ih

/-- The turn of a call that is carried on by some moves, in traffic of its own. -/
def Turn.ofMoves (y : Yard) (job : Job) (moves : List Move) (result : JobResult) : Turn :=
  let after := (Traffic.run ⟨y, [.pending job]⟩ moves).yard
  { before := y, job, sent := after.line.accepted.drop y.line.accepted.length, result, after }

theorem Turn.valid_ofMoves {y : Yard} {job : Job} {moves : List Move} {result : JobResult}
    {time : Nat} (hcall : job.isCall = true)
    (h : (Traffic.run ⟨y, [.pending job]⟩ moves).tasks = [.ended result time]) :
    (ofMoves y job moves result).Valid := by
  have hcompletes := Traffic.completes_of_run h
  obtain ⟨sent, heffect⟩ := Yard.effect_of_completes hcall hcompletes
  refine ⟨hcall, hcompletes, ?_⟩
  have haccepted := heffect.accepted_eq
  show (Traffic.run ⟨y, [.pending job]⟩ moves).yard.line.accepted =
    y.line.accepted ++ List.drop _ _
  rw [haccepted, List.drop_left]

/-- A sequential run goes on with a call that is carried on by some moves. -/
theorem Turns.ofMoves {y z : Yard} {turns : List Turn} {job : Job} {moves : List Move}
    {result : JobResult} {time : Nat} (hrun : Turns y turns z) (hcall : job.isCall = true)
    (h : (Traffic.run ⟨z, [.pending job]⟩ moves).tasks = [.ended result time]) :
    Turns y (turns ++ [.ofMoves z job moves result]) (Turn.ofMoves z job moves result).after :=
  .concat hrun (Turn.valid_ofMoves hcall h)

end SignalBox
