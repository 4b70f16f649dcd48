import SignalBox.Proofs.SentFrames
import SignalBox.Proofs.Unlocking

/-!
# Which locks are left engaged

Locks are engaged with a route and released after it. They are engaged address by address, but
which of them a release unlocks is decided by numbers and letters: a point is left out if a
remaining route has a point of its number, and of several commands for one sub-point only the first
counts. The invariant that every engaged lock belongs to an active route (`Yard.Secured`) is
therefore kept by every call that is not disturbed, except by a release that passes over an engaged
lock in one of these two ways (`Yard.PassesOver`). The main statement is `secures_iff`: in a
sequential run no lock is left engaged, at any time, exactly if no release passes over one.

A run with such a release is `not_secured_of_letters`, where two routes lock two sub-points of one
number.
-/

namespace SignalBox

/-! ### Locks -/

/-- Whether a frame engages or releases the lock at an address. -/
def isLockAt (n : Nat) (f : AcceptedFrame) : Bool :=
  f.frame.kind != .set && f.frame.address == n

/-- The latest frame for the lock at an address engages it. -/
def Engaged (accepted : List AcceptedFrame) (n : Nat) : Prop :=
  ∃ f, latest? (isLockAt n) accepted = some f ∧ f.frame.kind = .lock

/-- A route has a point with a lock at an address. -/
def RouteCommand.Locks (r : RouteCommand) (n : Nat) : Prop :=
  ∃ p ∈ r.points, p.HasLockAt n

instance (r : RouteCommand) (n : Nat) : Decidable (r.Locks n) :=
  inferInstanceAs (Decidable (∃ p ∈ r.points, _))

/-- Every engaged lock is one of an active route. -/
def Yard.Secured (y : Yard) : Prop :=
  ∀ n, Engaged y.line.accepted n → ∃ r ∈ y.active.routes, r.Locks n

section

variable {accepted sent : List AcceptedFrame} {n : Nat}

theorem isLockAt_iff {f : AcceptedFrame} :
    isLockAt n f = true ↔ f.frame.kind ≠ .set ∧ f.frame.address = n := by
  simp [isLockAt]

/-- **Engaged locks** after some frames have been sent: those that one of the frames engages last,
and those that none of them is for. -/
theorem engaged_append :
    Engaged (accepted ++ sent) n ↔
      Engaged sent n ∨ Engaged accepted n ∧ ∀ f ∈ sent, isLockAt n f = false := by
  simp only [Engaged, latest?_append]
  cases hsent : latest? (isLockAt n) sent with
  | some f =>
    have hlate : ¬ ∀ f ∈ sent, isLockAt n f = false := fun hall ↦ by
      simp [latest?_eq_none_iff.2 hall] at hsent
    rw [Option.some_or, or_iff_left fun h ↦ hlate h.2]
  | none =>
    rw [Option.none_or, and_iff_left (latest?_eq_none_iff.1 hsent), or_iff_right (by simp)]

theorem not_engaged_of_forall (h : ∀ f ∈ sent, f.frame.kind ≠ .lock) : ¬ Engaged sent n := by
  rintro ⟨f, hf, hkind⟩
  exact h f (of_latest?_eq_some hf).1 hkind

/-- Frames that set do not matter for locks. -/
theorem engaged_append_of_set (h : ∀ f ∈ sent, f.frame.kind = .set) :
    Engaged (accepted ++ sent) n ↔ Engaged accepted n := by
  have hlock : ∀ f ∈ sent, f.frame.kind ≠ .lock := fun f hf ↦ by simp [h f hf]
  have hat : ∀ f ∈ sent, isLockAt n f = false := fun f hf ↦ by simp [isLockAt, h f hf]
  rw [engaged_append, or_iff_right (not_engaged_of_forall hlock), and_iff_left hat]

/-- Frames that unlock release the locks that they are for. -/
theorem engaged_append_of_unlock (h : ∀ f ∈ sent, f.frame.kind = .unlock) :
    Engaged (accepted ++ sent) n ↔ Engaged accepted n ∧ ∀ f ∈ sent, f.frame.address ≠ n := by
  have hlock : ∀ f ∈ sent, f.frame.kind ≠ .lock := fun f hf ↦ by simp [h f hf]
  rw [engaged_append, or_iff_right (not_engaged_of_forall hlock)]
  refine and_congr_right fun _ ↦ forall₂_congr fun f hf ↦ ?_
  simp [isLockAt, h f hf]

end

/-! ### Releases that pass over a lock -/

/-- A release passes over an engaged lock: it takes away a route with the lock, no remaining route
has the lock, and it overlooks the lock with every point that has it. -/
def Yard.PassesOver (y : Yard) (job : Job) : Prop :=
  ∃ removed remaining n, y.Releases job removed remaining ∧ Engaged y.line.accepted n ∧
    (∃ r ∈ removed, r.Locks n) ∧ (∀ r ∈ remaining.routes, ¬ r.Locks n) ∧
    ∀ r ∈ removed, ∀ p ∈ r.points, p.HasLockAt n → remaining.Overlooks removed p n

theorem Yard.not_passesOver {y : Yard} {job : Job} (h : job.isRelease = false) :
    ¬ y.PassesOver job := by
  rintro ⟨removed, remaining, n, hreleases, -⟩
  exact Bool.false_ne_true (h.symm.trans hreleases.isRelease)

/-- The locks of all active routes can be encoded. -/
def Reservations.LocksOnBus (active : Reservations) : Prop :=
  ∀ r ∈ active.routes, ∀ p ∈ r.points, ∃ frames, p.lockFrames = .ok frames

/-- At every moment of a turn each engaged lock is one of a route that is active after the turn, or
a later frame of the turn is for it. -/
def Turn.Secures (turn : Turn) : Prop :=
  ∀ first rest, turn.sent = first ++ rest →
    ∀ n, Engaged (turn.before.line.accepted ++ first) n →
      (∃ r ∈ turn.after.active.routes, r.Locks n) ∨ ∃ f ∈ rest, isLockAt n f = true

/-- What holds at the end of a turn decides about all of it. -/
theorem Turn.Valid.secures_iff_secured {turn : Turn} (h : turn.Valid) :
    turn.Secures ↔ turn.after.Secured := by
  constructor
  · intro hsecures n hn
    rw [h.accepted_eq] at hn
    rcases hsecures turn.sent [] (List.append_nil _).symm n hn with hlocks | ⟨f, hf, -⟩
    · exact hlocks
    · cases hf
  · intro hsecured first rest hsent n hn
    by_cases hrest : ∃ f ∈ rest, isLockAt n f = true
    · exact .inr hrest
    · refine .inl (hsecured n ?_)
      rw [h.accepted_eq, hsent, ← List.append_assoc, engaged_append]
      exact .inr ⟨hn, by simpa using hrest⟩

/-- **Unlocked locks.** The frames of a release are for the locks that it does not overlook. -/
theorem exists_sent_iff_not_overlooks {remaining : Reservations} {removed : List RouteCommand}
    {frames : List Frame} {sent : List AcceptedFrame}
    (hframes : unlockFrames (remaining.pointsToUnlock removed) = .ok frames)
    (hsent : sent.map (·.frame) = frames) (n : Nat) :
    (∃ f ∈ sent, f.frame.address = n) ↔
      ∃ r ∈ removed, ∃ p ∈ r.points, p.HasLockAt n ∧ ¬ remaining.Overlooks removed p n := by
  obtain ⟨hunlock, hall⟩ := encodes_of_unlockFrames hframes
  rw [← Reservations.exists_mem_pointsToUnlock_iff]
  constructor
  · rintro ⟨f, hf, rfl⟩
    obtain ⟨p, hp, a, ha, hencodes⟩ := hunlock _ (hsent ▸ List.mem_map_of_mem hf)
    exact ⟨p, hp, a, ha, hencodes.address_eq.symm⟩
  · rintro ⟨p, hp, a, ha, rfl⟩
    obtain ⟨f, hf, hencodes⟩ := hall p hp a ha
    obtain ⟨f', hf', rfl⟩ := List.mem_map.1 (hsent ▸ hf)
    exact ⟨f', hf', hencodes.address_eq⟩

/-- No frame of the call is refused, and the call is not cancelled. -/
def Turn.Undisturbed (turn : Turn) : Prop :=
  ∀ failure, turn.result = .command (.error failure) → ∃ cause, failure = .protocol cause

namespace Yard.Effect

variable {y w : Yard} {job : Job} {sent : List AcceptedFrame} {result : JobResult}

theorem locksOnBus (h : y.Effect job sent result w) (hlocks : y.active.LocksOnBus) :
    w.active.LocksOnBus := by
  intro r hr p hp
  rcases h.mem_routes hr with hr | ⟨request, token, route, frames, -, -, hadmits, -⟩
  · exact hlocks r hr p hp
  · -- a route is admitted with its frames, those of its locks among them
    obtain ⟨moves, locks, -, hframes, -⟩ := RouteCommand.setFrames_eq_ok_iff.1 hadmits.encoded
    obtain ⟨fs, -, hfs⟩ := exists_right_of_mem_left hframes hp
    exact ⟨fs, hfs⟩

/-- **A release** keeps the yard secured exactly if it does not pass over an engaged lock. -/
theorem secured_iff_of_release {removed : List RouteCommand} {remaining : Reservations}
    {frames : List Frame} (hreleases : y.Releases job removed remaining)
    (hframes : unlockFrames (remaining.pointsToUnlock removed) = .ok frames)
    (hsent : sent.map (·.frame) = frames) {positions : Positions}
    (hw : y.After sent remaining positions w) (hy : y.Secured) :
    w.Secured ↔ ¬ y.PassesOver job := by
  have hkind : ∀ f ∈ sent, f.frame.kind = .unlock := fun f hf ↦
    (unlocks_of_unlockFrames hframes (hsent ▸ List.mem_map_of_mem hf)).1
  have hengaged (n : Nat) : Engaged w.line.accepted n ↔ Engaged y.line.accepted n ∧
      ∀ r ∈ removed, ∀ p ∈ r.points, p.HasLockAt n → remaining.Overlooks removed p n := by
    rw [hw.accepted_eq, engaged_append_of_unlock hkind]
    refine and_congr_right fun _ ↦ ?_
    have h := not_congr (exists_sent_iff_not_overlooks hframes hsent n)
    push Not at h
    exact h
  rw [Secured, hw.active_eq]
  constructor
  · -- a lock that is passed over stays engaged, and no route has it any more
    rintro hsecured ⟨removed', remaining', n, hreleases', hn, -, hnone, hoverlooks⟩
    obtain ⟨rfl, rfl⟩ := hreleases.unique hreleases'
    obtain ⟨r, hr, hlocks⟩ := hsecured n ((hengaged n).2 ⟨hn, hoverlooks⟩)
    exact hnone r hr hlocks
  · intro hpasses n hn
    obtain ⟨hn, hoverlooks⟩ := (hengaged n).1 hn
    obtain ⟨r, hr, hlocks⟩ := hy n hn
    rcases hreleases.mem_routes_iff.1 hr with hr | hr
    · -- the lock was one of a released route, and it has not been unlocked
      by_contra hnone
      exact hpasses ⟨removed, remaining, n, hreleases, hn, ⟨r, hr, hlocks⟩,
        fun r hr hlocks ↦ hnone ⟨r, hr, hlocks⟩, hoverlooks⟩
    · exact ⟨r, hr, hlocks⟩

/-- **Frames that set** keep the yard secured, if no route comes or goes with them. -/
theorem secured_of_set {positions : Positions} (hw : y.After sent y.active positions w)
    (hkind : ∀ f ∈ sent, f.frame.kind = .set) (hy : y.Secured) : w.Secured := by
  intro n hn
  rw [hw.active_eq]
  rw [hw.accepted_eq, engaged_append_of_set hkind] at hn
  exact hy n hn

/-- **A route that is set** brings the locks that are engaged with it. -/
theorem secured_of_setRoute {resolved : RouteCommand} {frames : List Frame} {positions : Positions}
    (hframes : resolved.setFrames = .ok frames) (hsent : sent.map (·.frame) = frames)
    (hw : y.After sent (y.active.insert resolved) positions w) (hy : y.Secured) : w.Secured := by
  intro n hn
  rw [hw.active_eq]
  rw [hw.accepted_eq, engaged_append] at hn
  rcases hn with ⟨f, hlatest, hkind⟩ | ⟨hn, -⟩
  · -- the frame that engages the lock is not among those that move the points
    obtain ⟨hf, hat⟩ := of_latest?_eq_some hlatest
    obtain ⟨moves, locks, hmoves, hlocks, hflat⟩ := RouteCommand.setFrames_eq_ok_iff.1 hframes
    have hmem : f.frame ∈ moves.flatten ++ locks.flatten := by
      rw [hflat, ← hsent]
      exact List.mem_map_of_mem hf
    rcases List.mem_append.1 hmem with hmem | hmem
    · obtain ⟨fs, hfs, hmem⟩ := List.mem_flatten.1 hmem
      obtain ⟨p, -, hp⟩ := exists_left_of_mem_right hmoves hfs
      rw [PointCommand.kind_of_mem_setFrames hp hmem] at hkind
      cases hkind
    · obtain ⟨p, hp, a, ha, hencodes⟩ :=
        (encodes_locks (hlocks.imp fun p fs ↦ PointCommand.encodes_of_lockFrames)).1 _ hmem
      refine ⟨resolved, List.mem_append_right _ (List.mem_singleton_self _), p, hp, a, ha, ?_⟩
      rw [← hencodes.address_eq]
      exact (isLockAt_iff.1 hat).2
  · obtain ⟨r, hr, hlocks⟩ := hy n hn
    exact ⟨r, List.mem_append_left _ hr, hlocks⟩

/-- **One call** that is not disturbed keeps the yard secured exactly if it does not pass over an
engaged lock. -/
theorem secured_iff (h : y.Effect job sent result w)
    (hresult : ∀ failure, result = .command (.error failure) → ∃ cause, failure = .protocol cause)
    (hlocks : y.active.LocksOnBus) (hy : y.Secured) : w.Secured ↔ ¬ y.PassesOver job := by
  cases h with
  | idle hjob _ hw =>
    exact iff_of_true (secured_of_set hw (by simp) hy) (not_passesOver hjob)
  | inPosition _ _ hw =>
    exact iff_of_true (secured_of_set hw (by simp) hy) (not_passesOver rfl)
  | moved hmoves hsent hw =>
    have hkind : ∀ f ∈ sent, f.frame.kind = .set := fun f hf ↦
      PointCommand.kind_of_mem_setFrames hmoves.encoded (hsent ▸ List.mem_map_of_mem hf)
    exact iff_of_true (secured_of_set hw hkind hy) (not_passesOver rfl)
  | set hset hadmits hsent hw =>
    exact iff_of_true (secured_of_setRoute hadmits.encoded hsent hw hy)
      (not_passesOver (RouteState.isTeardown_of_isSet hset))
  | released hreleases hframes hsent hw =>
    exact secured_iff_of_release hreleases hframes hsent hw hy
  | @stuck _ removed remaining _ _ hreleases hframes =>
    -- the locks of active routes could be engaged, so they can be released
    have hok : ∀ p ∈ remaining.pointsToUnlock removed, ∃ fs, p.unlockFrames = .ok fs := by
      intro p hp
      obtain ⟨r, hr, hp⟩ := Reservations.exists_of_mem_pointsToUnlock hp
      obtain ⟨fs, hfs⟩ := hlocks r (hreleases.mem_routes_iff.2 (.inl hr)) p hp
      exact PointCommand.unlockFrames_isOk hfs
    obtain ⟨unlocks, hunlocks⟩ := exists_mapM_eq_ok hok
    rw [unlockFrames, hunlocks] at hframes
    cases hframes
  | shown hjob hkind _ hw =>
    have hrelease : job.isRelease = false := by
      cases job with
      | command command token => cases command with
        | control command => cases command <;> first | rfl | cases hjob
        | route request => cases hjob
        | _ => rfl
      | _ => rfl
    exact iff_of_true (secured_of_set hw hkind hy) (not_passesOver hrelease)
  | failed hfailure =>
    obtain ⟨cause, rfl⟩ := hresult _ rfl
    exact absurd rfl (hfailure cause)

end Yard.Effect

namespace Turns

variable {layout : Layout} {delay capacity : Nat} {faults : BusFaults} {turns : List Turn}
  {y : Yard}

theorem locksOnBus (h : Turns (.start layout delay capacity faults) turns y) :
    y.active.LocksOnBus := by
  induction h with
  | nil => exact fun r hr ↦ by cases hr
  | concat _ hturn ih => exact hturn.effect.locksOnBus ih

/-- **Locks after the calls** of a sequential run that are not disturbed. -/
theorem secured_iff (h : Turns (.start layout delay capacity faults) turns y)
    (hturns : ∀ turn ∈ turns, turn.Undisturbed) :
    ((∀ turn ∈ turns, turn.after.Secured) ↔
      ∀ turn ∈ turns, ¬ turn.before.PassesOver turn.job) ∧
    ((∀ turn ∈ turns, turn.after.Secured) → y.Secured) := by
  induction h with
  | nil =>
    refine ⟨by simp, fun _ n hn ↦ ?_⟩
    obtain ⟨f, hf, -⟩ := hn
    cases hf
  | @concat turns turn hrun hturn ih =>
    obtain ⟨hiff, hlast⟩ := ih fun t ht ↦ hturns t (List.mem_append_left _ ht)
    have hstep := hturn.effect.secured_iff (hturns turn (by simp)) hrun.locksOnBus
    simp only [List.forall_mem_append, List.forall_mem_singleton]
    refine ⟨⟨fun ⟨hall, hafter⟩ ↦ ⟨hiff.1 hall, (hstep (hlast hall)).1 hafter⟩,
      fun ⟨hall, hpasses⟩ ↦ ⟨hiff.2 hall, (hstep (hlast (hiff.2 hall))).2 hpasses⟩⟩, And.right⟩

/-- **Locks in a sequential run** of calls that are not disturbed: at every moment of every call
each engaged lock is one of an active route or is about to be released, exactly if no call is a
release that passes over an engaged lock. -/
theorem secures_iff (layout : Layout) (delay capacity : Nat) (faults : BusFaults)
    {turns : List Turn} {y : Yard} (h : Turns (.start layout delay capacity faults) turns y)
    (hturns : ∀ turn ∈ turns, turn.Undisturbed) :
    (∀ turn ∈ turns, turn.Secures) ↔ ∀ turn ∈ turns, ¬ turn.before.PassesOver turn.job := by
  rw [← (secured_iff h hturns).1]
  exact forall₂_congr fun turn hturn ↦ (h.valid_of_mem hturn).secures_iff_secured

/-! ### A point with a lock -/

/-- A request for a route between two signals of a junction, in a yard without delays. -/
def routeJob (start destination : UInt32) (state : RouteState) (points : List PointCommand) : Job :=
  .command (.route { RouteCommand.plain start destination state with points := points }) .never

/-- A route over a point with a lock is set and released. -/
theorem secures_iff_of_release :
    let y := Yard.start (.junction [.linked "27" [12] [13] 100]) 0 64 .none
    let first := Turn.ofMoves y (routeJob 64 72 .setMain [.plain 27 .straight])
      (List.replicate 7 (.go 0)) (.command (.ok (.route .set)))
    let second := Turn.ofMoves first.after (routeJob 64 72 .clear [])
      (List.replicate 4 (.go 0)) (.command (.ok (.route .cleared)))
    (∀ turn ∈ [first, second], turn.Secures) ↔
      ∀ turn ∈ [first, second], ¬ turn.before.PassesOver turn.job := by
  intro y first second
  have hfirst : Turns y [first] first.after :=
    Turns.nil.ofMoves rfl (show _ = [Task.ended _ 0] by decide +kernel)
  have hsecond : Turns y ([first] ++ [second]) second.after :=
    hfirst.ofMoves rfl (show _ = [Task.ended _ 0] by decide +kernel)
  refine secures_iff _ 0 64 .none hsecond ?_
  intro t ht failure hfailure
  obtain rfl | rfl : t = first ∨ t = second := by simpa using ht
  · cases hfailure
  · cases hfailure

/-- Two routes lock two sub-points of one number. The first release passes over its lock because the
other route has a point of this number, and then no route is left that could release it. -/
theorem not_secured_of_letters :
    let y := Yard.start
      (.junction [.linked "27a" [12] [13] 100, .linked "27b" [14] [15] 100]) 0 64 .none
    let first := Turn.ofMoves y
      (routeJob 64 72 .setMain [(PointCommand.plain 27 .straight).withSubPoint 'a'])
      (List.replicate 7 (.go 0)) (.command (.ok (.route .set)))
    let second := Turn.ofMoves first.after
      (routeJob 60 80 .setMain [(PointCommand.plain 27 .straight).withSubPoint 'b'])
      (List.replicate 7 (.go 0)) (.command (.ok (.route .set)))
    let third := Turn.ofMoves second.after (routeJob 64 72 .clear []) [.go 0]
      (.command (.ok (.route .cleared)))
    let fourth := Turn.ofMoves third.after (routeJob 60 80 .clear [])
      (List.replicate 4 (.go 0)) (.command (.ok (.route .cleared)))
    Turns y [first, second, third, fourth] fourth.after ∧
      fourth.after.active = .empty ∧ Engaged fourth.after.line.accepted 112 := by
  intro y first second third fourth
  have hfirst : Turns y [first] first.after :=
    Turns.nil.ofMoves rfl (show _ = [Task.ended _ 0] by decide +kernel)
  have hsecond : Turns y ([first] ++ [second]) second.after :=
    hfirst.ofMoves rfl (show _ = [Task.ended _ 0] by decide +kernel)
  have hthird : Turns y ([first] ++ [second] ++ [third]) third.after :=
    hsecond.ofMoves rfl (show _ = [Task.ended _ 0] by decide +kernel)
  have hfourth : Turns y ([first] ++ [second] ++ [third] ++ [fourth]) fourth.after :=
    hthird.ofMoves rfl (show _ = [Task.ended _ 0] by decide +kernel)
  exact ⟨hfourth, by decide +kernel, ⟨.ofMagnitude .lock 112 .closed, 0⟩, by decide +kernel, rfl⟩

end Turns

end SignalBox
