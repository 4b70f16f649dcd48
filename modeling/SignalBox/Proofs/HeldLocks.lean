import SignalBox.Proofs.LateUnlocking

/-!
# Locks that stay engaged

In a sequential run the locks of a route stay engaged for as long as it is active, if points of
different numbers are resolved to different locks. The main statement (`engaged_of_active`) says so
for the time between the calls and for every moment of a call, whatever calls have failed before,
and after however many of their frames.

* **What a call unlocks** has been decided when it began, and a call that fails has sent a part of
  it (`Turn.Valid.launches_of_sent`). It spares the locks of the routes that remain
  (`Turn.Valid.spares`).
* **A route comes** with the frames that engage all of its locks, and with none that unlocks
  (`Yard.Effect.engaged_of_new`).
* **The locks of active routes** are those of points that the calls have asked for
  (`Turns.exists_asksFor`), and so they are different if the layout makes them so.
-/

namespace SignalBox

/-! ### What a call sends -/

namespace Yard

variable {y z w : Yard} {job : Job} {purpose : Purpose} {frames : List Frame} {result : JobResult}

theorem Launches.isRelease (h : y.Launches job purpose frames)
    (hpurpose : purpose.releases = true) : job.isRelease = true := by
  cases h with
  | movePoint | setRoute => cases hpurpose
  | release hreleases => exact hreleases.isRelease
  | shows _ hshows =>
    exact absurd (Purpose.releases_of_shows hshows) (by simp [hpurpose])

theorem mem_of_afterFailure {active : Reservations} {r : RouteCommand}
    (h : r ∈ (afterFailure active purpose).routes) : r ∈ active.routes := by
  cases purpose with
  | setRoute layout request resolved => exact (List.mem_filter.1 h).1
  | _ => exact h

end Yard

namespace Task

variable {y z w : Yard} {job : Job} {result : JobResult} {a : Activity} {alert : Bool}

/-- **A command in flight** sends some of its frames, and others that set, and reserves nothing. -/
theorem sent_of_completes (h : Completes y (.inFlight a alert) result w) :
    ∃ sent, w.line.accepted = y.line.accepted ++ sent ∧
      (∀ f ∈ sent, f.frame.kind ≠ .set → f.frame ∈ a.delivery.frames) ∧
      ∀ r ∈ w.active.routes, r ∈ y.active.routes := by
  obtain ⟨sent, z, hz, ⟨-, failure, -, -, hpre, -, hc⟩ | ⟨hsent, hc⟩⟩ :=
    delivers_of_completesIn (completesIn_true_iff.2 h)
  · obtain ⟨-, hk⟩ := keeps_of_completesIn_done (z.abandon_snd failure _) hc
    have hw := Yard.After.trans hz ((z.after_abandon failure a.purpose).then_keeps hk)
    rw [List.append_nil, hz.active_eq] at hw
    refine ⟨sent, hw.accepted_eq, fun f hf _ ↦ hpre.subset (List.mem_map_of_mem hf), fun r hr ↦ ?_⟩
    exact Yard.mem_of_afterFailure (hw.active_eq ▸ hr)
  · have hmem : ∀ f ∈ sent, f.frame ∈ a.delivery.frames := fun f hf ↦
      hsent ▸ List.mem_map_of_mem hf
    cases ho : a.purpose.outcome? with
    | some outcome =>
      obtain ⟨-, hk⟩ := keeps_of_completesIn_done (Yard.finish_snd ho) hc
      have hw := Yard.After.trans hz ((z.after_finish _ a.purpose).then_keeps hk)
      rw [List.append_nil, hz.active_eq] at hw
      exact ⟨sent, hw.accepted_eq, fun f hf _ ↦ hmem f hf, fun r hr ↦ hw.active_eq ▸ hr⟩
    | none =>
      -- the stop of signals goes on with frames that set
      cases hp : a.purpose with
      | stopSignals signal rest count =>
        rw [hp] at hc
        obtain ⟨others, hkind, -, hw⟩ := Yard.stops_of_completes (completesIn_true_iff.1 hc)
        have hw := hz.trans ((z.keeps_announce signal true).trans hw)
        refine ⟨sent ++ others, hw.accepted_eq, fun f hf hset ↦ ?_, fun r hr ↦ ?_⟩
        · rcases List.mem_append.1 hf with hf | hf
          · exact hmem f hf
          · exact absurd (hkind f hf) hset
        · rw [hw.active_eq] at hr
          exact hz.active_eq ▸ hr
      | _ =>
        rw [hp] at ho
        cases ho

/-- A call decides what it does in its first step, and sends nothing in it. -/
theorem exists_begin_eq (hjob : job.isCall = true) (y : Yard) :
    ∃ p, begin y job = ofProgress p ∧ y.Decides p.1 := by
  cases job with
  | command command token => exact ⟨_, rfl, y.decides_startCommand token command⟩
  | signal signal token => exact ⟨_, rfl, y.decides_startSignal token signal⟩
  | _ => cases hjob

/-- **A call** sends some of the frames that it has been launched with, and others that set. No
route is active in the end that has not been after the first step. -/
theorem launches_of_completes (hjob : job.isCall = true)
    (h : Completes y (.pending job) result w) :
    ∃ sent, w.line.accepted = y.line.accepted ++ sent ∧
      (∀ f ∈ sent, f.frame.kind ≠ .set →
        ∃ purpose frames, y.Launches job purpose frames ∧ f.frame ∈ frames) ∧
      ∃ z, y.Waits z ∧ ∀ r ∈ w.active.routes, r ∈ (begin z job).1.active.routes := by
  obtain ⟨z, hz, h⟩ := begin_of_completes_pending h
  obtain ⟨p, hp, hdecides⟩ := exists_begin_eq hjob z
  have haccepted : (ofProgress p).1.line.accepted = y.line.accepted := by
    rw [ofProgress_fst, hdecides.sends.2, hz.keeps.accepted_eq, List.append_nil]
  rw [hp] at h
  rcases ofProgress_cases p with ⟨a, ha⟩ | ⟨result', time, ha⟩
  · have hlaunches : y.Launches job a.purpose a.delivery.frames :=
      (launches_of_begin (hp ▸ ha)).of_waits hz
    rw [ha] at h
    obtain ⟨sent, hsent, hmem, hactive⟩ := sent_of_completes h
    rw [haccepted] at hsent
    exact ⟨sent, hsent, fun f hf hkind ↦ ⟨_, _, hlaunches, hmem f hf hkind⟩, z, hz, hp ▸ hactive⟩
  · rw [ha] at h
    obtain ⟨-, hk⟩ := keeps_of_completes_ended h
    refine ⟨[], ?_, by simp, z, hz, fun r hr ↦ ?_⟩
    · rw [hk.accepted_eq, haccepted]
    · rw [hp, ← hk.active_eq]
      exact hr

end Task

namespace Turn.Valid

variable {turn : Turn}

/-- **What a turn sends** it has been launched with, unless it sets something. -/
theorem launches_of_sent (h : turn.Valid) {f : AcceptedFrame} (hf : f ∈ turn.sent)
    (hkind : f.frame.kind ≠ .set) :
    ∃ purpose frames, turn.before.Launches turn.job purpose frames ∧ f.frame ∈ frames := by
  obtain ⟨sent, hsent, hmem, -⟩ := Task.launches_of_completes h.isCall h.completes
  obtain rfl := List.append_cancel_left (h.accepted_eq.symm.trans hsent)
  exact hmem f hf hkind

/-- A release has taken away what it means, also if it fails. -/
theorem withdraws_of_mem_after (h : turn.Valid) (hrelease : turn.job.isRelease = true)
    {r : RouteCommand} (hr : r ∈ turn.after.active.routes) : turn.job.withdraws r = false := by
  obtain ⟨-, -, -, z, -, hactive⟩ := Task.launches_of_completes h.isCall h.completes
  rcases Task.routes_begin z turn.job with hroutes | ⟨request, token, _, _, _, hjob, hset, -, -⟩
  · have hmem := hactive r hr
    rw [hroutes] at hmem
    simpa using (List.mem_filter.1 hmem).2
  · rw [hjob] at hrelease
    exact absurd ((RouteState.isTeardown_of_isSet hset).symm.trans hrelease) Bool.false_ne_true

/-- **The locks of a route that remains** are not released. -/
theorem spares (h : turn.Valid) (hdisjoint : turn.before.active.LocksDisjoint) {r : RouteCommand}
    (hr : r ∈ turn.before.active.routes) (hr' : r ∈ turn.after.active.routes) {f : AcceptedFrame}
    (hf : f ∈ turn.sent) (hkind : f.frame.kind = .unlock) : ¬ r.Locks f.frame.address := by
  obtain ⟨purpose, frames, hlaunches, hmem⟩ := h.launches_of_sent hf (by simp [hkind])
  have hreleases : purpose.releases = true := (hlaunches.fits _ hmem).releases hkind
  have hkept := h.withdraws_of_mem_after (hlaunches.isRelease hreleases) hr'
  exact Yard.not_locks_of_launches hlaunches hreleases hr hdisjoint hkept _ hmem

end Turn.Valid

/-! ### Locks that stay engaged -/

/-- Frames that do not unlock a lock leave it engaged, or engage it. -/
theorem engaged_append_of_spared {accepted sent : List AcceptedFrame} {n : Nat}
    (hspared : ∀ f ∈ sent, f.frame.kind = .unlock → f.frame.address ≠ n)
    (h : Engaged accepted n ∨ ∃ f ∈ sent, f.frame.kind = .lock ∧ f.frame.address = n) :
    Engaged (accepted ++ sent) n := by
  rw [engaged_append]
  cases hlatest : latest? (isLockAt n) sent with
  | some f =>
    -- the latest frame for the lock is no other than one that engages it
    obtain ⟨hf, hat⟩ := of_latest?_eq_some hlatest
    obtain ⟨hset, haddress⟩ := isLockAt_iff.1 hat
    refine .inl ⟨f, hlatest, ?_⟩
    cases hkind : f.frame.kind with
    | lock => rfl
    | set => exact absurd hkind hset
    | unlock => exact absurd haddress (hspared f hf hkind)
  | none =>
    have hnone := latest?_eq_none_iff.1 hlatest
    refine .inr ⟨h.resolve_right ?_, hnone⟩
    rintro ⟨f, hf, hkind, haddress⟩
    have hat : isLockAt n f = true := isLockAt_iff.2 ⟨by simp [hkind], haddress⟩
    exact Bool.false_ne_true ((hnone f hf).symm.trans hat)

/-- The locks of all active routes are engaged. -/
def Yard.HoldsLocks (y : Yard) : Prop :=
  ∀ r ∈ y.active.routes, ∀ n, r.Locks n → Engaged y.line.accepted n

/-- **A route that is new** after a call has been set by it, with the frames that engage its locks.
-/
theorem Yard.Effect.engaged_of_new {y w : Yard} {job : Job} {sent : List AcceptedFrame}
    {result : JobResult} (h : y.Effect job sent result w) {r : RouteCommand}
    (hr : r ∈ w.active.routes) (hnew : r ∉ y.active.routes) {n : Nat} (hn : r.Locks n) :
    Engaged w.line.accepted n := by
  obtain ⟨request, token, route, frames, -, hset, hadmits, hsent⟩ :=
    (h.mem_routes hr).resolve_left hnew
  have hmem {f : AcceptedFrame} (hf : f ∈ sent) := hsent ▸ List.mem_map_of_mem hf
  rw [h.accepted_eq]
  refine engaged_append_of_spared (fun f hf hkind ↦ ?_) (.inr ?_)
  · have hlaunches := @Launches.setRoute y _ _ _ .never _ hset hadmits
    exact absurd hkind (hlaunches.fits f.frame (hmem hf))
  · obtain ⟨moves, locks, -, hlocks, hflat⟩ := RouteCommand.setFrames_eq_ok_iff.1 hadmits.encoded
    obtain ⟨p, hp, a, ha, rfl⟩ := hn
    obtain ⟨frame, hframe, hencodes⟩ := (encodes_locks
      (hlocks.imp fun p fs ↦ PointCommand.encodes_of_lockFrames)).2 p hp a ha
    have hframe : frame ∈ sent.map (·.frame) := by
      rw [hsent, ← hflat]
      exact List.mem_append_right _ hframe
    obtain ⟨f, hf, rfl⟩ := List.mem_map.1 hframe
    exact ⟨f, hf, hencodes.kind_eq, hencodes.address_eq⟩

namespace Turn.Valid

variable {turn : Turn}

/-- **During a call** the locks of a route that remains stay engaged. -/
theorem engaged_of_prefix (h : turn.Valid) (hdisjoint : turn.before.active.LocksDisjoint)
    (hbefore : turn.before.HoldsLocks) {first : List AcceptedFrame} (hfirst : first <+: turn.sent)
    {r : RouteCommand} (hr : r ∈ turn.before.active.routes) (hr' : r ∈ turn.after.active.routes)
    {n : Nat} (hn : r.Locks n) : Engaged (turn.before.line.accepted ++ first) n := by
  refine engaged_append_of_spared (fun f hf hkind haddress ↦ ?_) (.inl (hbefore r hr n hn))
  exact h.spares hdisjoint hr hr' (hfirst.subset hf) hkind (haddress ▸ hn)

/-- **One call** leaves the locks of all active routes engaged. -/
theorem holdsLocks (h : turn.Valid) (hdisjoint : turn.before.active.LocksDisjoint)
    (hbefore : turn.before.HoldsLocks) : turn.after.HoldsLocks := by
  intro r hr n hn
  by_cases hr' : r ∈ turn.before.active.routes
  · rw [h.accepted_eq]
    exact h.engaged_of_prefix hdisjoint hbefore (List.prefix_refl _) hr' hr hn
  · exact h.effect.engaged_of_new hr hr' hn

end Turn.Valid

/-! ### Sequential runs -/

/-- A turn asks for a point: it is to set a route, and the point is one of its request or of the
legs of its request. -/
def Turn.AsksFor (turn : Turn) (c : PointCommand) : Prop :=
  ∃ request token route, turn.job = .command (.route request) token ∧
    request.state.isSet = true ∧ turn.before.withPoints request = .ok route ∧ c ∈ route.points

namespace Turn.AsksFor

variable {turn : Turn} {c : PointCommand} {request : RouteCommand} {token : Token}

theorem isSet (h : turn.AsksFor c) (hjob : turn.job = .command (.route request) token) :
    request.state.isSet = true := by
  obtain ⟨request', token', route, hjob', hset, -, -⟩ := h
  cases hjob.symm.trans hjob'
  exact hset

/-- A request that brings points asks for no others. -/
theorem mem_points (h : turn.AsksFor c) (hjob : turn.job = .command (.route request) token)
    (hpoints : request.points ≠ []) : c ∈ request.points := by
  obtain ⟨request', token', route, hjob', -, hroute, hc⟩ := h
  cases hjob.symm.trans hjob'
  rw [Yard.withPoints, if_neg (by simp [hpoints])] at hroute
  cases hroute
  exact hc

end Turn.AsksFor

namespace Turns

variable {layout : Layout} {delay capacity : Nat} {faults : BusFaults} {turns : List Turn}
  {y : Yard}

/-- **Points of active routes** are those that turns have asked for, as the layout resolves them. -/
theorem exists_asksFor (h : Turns (.start layout delay capacity faults) turns y) :
    ∀ r ∈ y.active.routes, ∀ p ∈ r.points,
      ∃ turn ∈ turns, ∃ c, turn.AsksFor c ∧ layout.Resolves c p := by
  induction h with
  | nil => exact fun r hr ↦ absurd hr List.not_mem_nil
  | @concat turns turn hrun hturn ih =>
    intro r hr p hp
    rcases hturn.effect.mem_routes hr with
        hr | ⟨request, token, route, frames, hjob, hset, hadmits, -⟩
    · obtain ⟨t, ht, hasks⟩ := ih r hr p hp
      exact ⟨t, List.mem_append_left _ ht, hasks⟩
    · obtain ⟨points, hpoints, rfl⟩ := Layout.resolveRoute_eq_ok_iff.1 hadmits.resolves
      obtain ⟨c, hc, hresolves⟩ := exists_left_of_mem_right hpoints hp
      rw [hrun.layout_eq] at hresolves
      exact ⟨turn, by simp, c, ⟨request, token, route, hjob, hset, hadmits.expanded, hc⟩, hresolves⟩

/-- Points that calls have asked for have different locks if their numbers differ, and so have those
of active routes. -/
theorem locksDisjoint (h : Turns (.start layout delay capacity faults) turns y)
    (hdisjoint : ∀ t ∈ turns, ∀ u ∈ turns, ∀ c d, t.AsksFor c → u.AsksFor d →
      ∀ p q, layout.Resolves c p → layout.Resolves d q → p.LocksDisjoint q) :
    y.active.LocksDisjoint := by
  intro r hr s hs p hp q hq
  obtain ⟨t, ht, c, hc, hp⟩ := h.exists_asksFor r hr p hp
  obtain ⟨u, hu, d, hd, hq⟩ := h.exists_asksFor s hs q hq
  exact hdisjoint t ht u hu c d hc hd p q hp hq

/-- **Locks of active routes** in a sequential run in which points of different numbers are resolved
to different locks. They are engaged between the calls, and those of a route that remains are so at
every moment of a call. -/
theorem engaged_of_active (layout : Layout) (delay capacity : Nat) (faults : BusFaults)
    {turns : List Turn} {y : Yard} (h : Turns (.start layout delay capacity faults) turns y)
    (hdisjoint : ∀ t ∈ turns, ∀ u ∈ turns, ∀ c d, t.AsksFor c → u.AsksFor d →
      ∀ p q, layout.Resolves c p → layout.Resolves d q → p.LocksDisjoint q) :
    (∀ r ∈ y.active.routes, ∀ n, r.Locks n → Engaged y.line.accepted n) ∧
      ∀ turn ∈ turns, ∀ first, first <+: turn.sent →
        ∀ r ∈ turn.before.active.routes, r ∈ turn.after.active.routes →
          ∀ n, r.Locks n → Engaged (turn.before.line.accepted ++ first) n := by
  induction h with
  | nil =>
    exact ⟨fun r hr ↦ absurd hr List.not_mem_nil, fun turn ht ↦ absurd ht List.not_mem_nil⟩
  | @concat turns turn hrun hturn ih =>
    have hdisjoint' : ∀ t ∈ turns, ∀ u ∈ turns, ∀ c d, t.AsksFor c → u.AsksFor d →
        ∀ p q, layout.Resolves c p → layout.Resolves d q → p.LocksDisjoint q :=
      fun t ht u hu ↦ hdisjoint t (List.mem_append_left _ ht) u (List.mem_append_left _ hu)
    obtain ⟨hbefore, hall⟩ := ih hdisjoint'
    have hactive := hrun.locksDisjoint hdisjoint'
    refine ⟨hturn.holdsLocks hactive hbefore, fun t ht ↦ ?_⟩
    rcases List.mem_append.1 ht with ht | ht
    · exact hall t ht
    · rw [List.mem_singleton.1 ht]
      exact fun first hfirst r hr hr' n hn ↦
        hturn.engaged_of_prefix hactive hbefore hfirst hr hr' hn

/-- A junction with two points that have locks of their own. -/
def twoLockedPoints : Layout :=
  .junction [.linked "27" [12] [13] 100, .linked "28" [14] [15] 100]

/-- A lock at this junction tells the number of its point. -/
theorem number_eq_of_hasLockAt {c p : PointCommand} {n : Nat}
    (hc : c ∈ [PointCommand.plain 27 .straight, .plain 28 .straight])
    (h : twoLockedPoints.Resolves c p) (hn : p.HasLockAt n) :
    p.number = if n = 112 then 27 else 28 := by
  obtain ⟨a, ha, rfl⟩ := hn
  obtain rfl | rfl : c = .plain 27 .straight ∨ c = .plain 28 .straight := by simpa using hc
  · have hp : twoLockedPoints.resolvePoint? (.plain 27 .straight) = some
        { PointCommand.plain 27 .straight with lockOffset := some 100, addresses := [12] } := by
      decide +kernel
    obtain rfl := Option.some.inj (hp.symm.trans h)
    rw [List.mem_singleton.1 (show a ∈ [112] from ha)]
    rfl
  · have hp : twoLockedPoints.resolvePoint? (.plain 28 .straight) = some
        { PointCommand.plain 28 .straight with lockOffset := some 100, addresses := [14] } := by
      decide +kernel
    obtain rfl := Option.some.inj (hp.symm.trans h)
    rw [List.mem_singleton.1 (show a ∈ [114] from ha)]
    rfl

/-- Two routes share a point with a lock. The first one is released, and the bus refuses the frame
that unlocks its other point; the shared point stays locked. -/
theorem engaged_of_shared_point :
    let y := Yard.start twoLockedPoints 0 64 { BusFaults.none with refuseAt := some 6 }
    let first := Turn.ofMoves y (routeJob 64 72 .setMain [.plain 27 .straight, .plain 28 .straight])
      (List.replicate 13 (.go 0)) (.command (.ok (.route .set)))
    let second := Turn.ofMoves first.after (routeJob 60 80 .setMain [.plain 27 .straight])
      (List.replicate 7 (.go 0)) (.command (.ok (.route .set)))
    let third := Turn.ofMoves second.after (routeJob 64 72 .clear []) (List.replicate 4 (.go 0))
      (.command (.error (.transport 0 (.refused 6))))
    (∀ r ∈ third.after.active.routes, ∀ n, r.Locks n → Engaged third.after.line.accepted n) ∧
      ∀ turn ∈ [first, second, third], ∀ first, first <+: turn.sent →
        ∀ r ∈ turn.before.active.routes, r ∈ turn.after.active.routes →
          ∀ n, r.Locks n → Engaged (turn.before.line.accepted ++ first) n := by
  intro y first second third
  have hfirst : Turns y [first] first.after :=
    Turns.nil.ofMoves rfl (show _ = [Task.ended _ 0] by decide +kernel)
  have hsecond : Turns y ([first] ++ [second]) second.after :=
    hfirst.ofMoves rfl (show _ = [Task.ended _ 0] by decide +kernel)
  have hthird : Turns y ([first] ++ [second] ++ [third]) third.after :=
    hsecond.ofMoves rfl (show _ = [Task.ended _ 0] by decide +kernel)
  have hasks : ∀ t ∈ [first, second, third], ∀ c, t.AsksFor c →
      c ∈ [PointCommand.plain 27 .straight, .plain 28 .straight] := by
    intro t ht c hc
    obtain rfl | rfl | rfl : t = first ∨ t = second ∨ t = third := by simpa using ht
    · exact hc.mem_points rfl (by simp)
    · exact List.mem_append_left [_] (hc.mem_points rfl (by simp))
    · cases hc.isSet rfl
  refine engaged_of_active twoLockedPoints 0 64 _ hthird fun t ht u hu c d hc hd p q hp hq ↦ ?_
  intro hne n hn hn'
  have hnumber := number_eq_of_hasLockAt (hasks t ht c hc) hp hn
  have hnumber' := number_eq_of_hasLockAt (hasks u hu d hd) hq hn'
  exact hne (hnumber.trans hnumber'.symm)

end Turns

end SignalBox
