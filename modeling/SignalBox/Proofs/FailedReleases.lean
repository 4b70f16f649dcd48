import SignalBox.Proofs.EngagedLocks
import SignalBox.Proofs.ReleaseEncoding

/-!
# Releases that fail

A release takes its routes away before the first frame for their locks. Where a request to set a
route gives its reservation back if it fails, a release does not. The main statement
(`Traffic.routes_lost_of_failed_release`) is that a release fails only if it has taken routes away,
and that all of these are gone: those of their locks whose frames have not been accepted stay
engaged, and the same release, made again, finds no route and sends nothing.

The first half is how a release ends that is disturbed (`Yard.ReleaseEnds`). For the second, what a
release means has gone where it has been made before (`Yard.Releases.eq_nil_of_again`).
-/

namespace SignalBox

/-- What a release reports that means no active route. -/
def Command.idleOutcome : Command → RouteOutcome
  | .control .clearAllRoutes => .allCleared
  | _ => .rejected .notActive

namespace Yard

variable {y w z : Yard} {token : Token} {c : Command} {failure : Failure} {result : JobResult}
  {removed : List RouteCommand} {remaining : Reservations}

/-! ### Releases that are made again -/

/-- **A release that is made again** where its routes have gone means no active route, and leaves
the others. -/
theorem Releases.eq_nil_of_again {token' : Token} {removed' : List RouteCommand}
    {remaining' : Reservations} (h : y.Releases (.command c token) removed remaining)
    (hw : w.active = remaining) (h' : w.Releases (.command c token') removed' remaining') :
    removed' = [] ∧ remaining' = w.active := by
  cases h with
  | clearAll =>
    cases h' with
    | clearAll => exact ⟨congrArg Reservations.routes hw, hw.symm⟩
  | @teardown request =>
    cases h' with
    | teardown =>
      have hothers : ∀ r ∈ w.active.routes, ¬ request.Names r := by
        intro r hr
        rw [hw, Reservations.routes_without] at hr
        simpa using (List.mem_filter.1 hr).2
      exact ⟨Reservations.matching_eq_nil_iff.2 hothers, Reservations.without_eq_self hothers⟩

/-- **A release that means no active route** changes nothing and sends nothing. -/
theorem idle_of_releases (h : y.Releases (.command c token) [] y.active)
    (hc : Task.Completes y (.pending (.command c token)) result w) :
    result = .command (.ok (.route c.idleOutcome)) ∧ y.Keeps w := by
  obtain ⟨sent, hends⟩ := releaseEnds_of_completesIn h.isRelease (Task.completesIn_true_iff.2 hc)
  have hnothing : unlockFrames (y.active.pointsToUnlock []) = .ok [] := rfl
  cases hends with
  | notActive hreleases hne hw =>
    obtain ⟨-, rfl⟩ := hreleases.unique h
    refine ⟨?_, hw⟩
    rw [Command.idleOutcome.eq_def]
    split
    · exact absurd rfl hne
    · rfl
  | unencodable hreleases hframes =>
    obtain ⟨rfl, rfl⟩ := hreleases.unique h
    cases hnothing.symm.trans hframes
  | released hreleases hframes houtcome hsent hw =>
    obtain ⟨rfl, rfl⟩ := hreleases.unique h
    obtain rfl := Except.ok.inj (hnothing.symm.trans hframes)
    obtain rfl := List.map_eq_nil_iff.1 hsent
    rcases houtcome with ⟨-, hne⟩ | ⟨rfl, rfl⟩
    · exact absurd rfl hne
    · exact ⟨rfl, hw⟩
  | disturbed hreleases hframes _ _ _ hlt =>
    obtain ⟨rfl, rfl⟩ := hreleases.unique h
    obtain rfl := Except.ok.inj (hnothing.symm.trans hframes)
    exact absurd hlt (Nat.not_lt_zero _)

/-! ### Releases that fail -/

/-- A release has failed that was to take away some routes: they are gone, a part of their locks has
been released, and the release cannot be made again. -/
structure LosesRoutes (y : Yard) (c : Command) (token : Token) (failure : Failure)
    (removed : List RouteCommand) (remaining : Reservations) (sent : List AcceptedFrame)
    (w : Yard) : Prop where
  /-- The routes are those that the release means, and there are some. -/
  releases : y.Releases (.command c token) removed remaining
  removed_ne_nil : removed ≠ []
  /-- None of them is active in the end. -/
  not_active : ∀ r ∈ removed, r ∉ w.active.routes
  /-- The other routes are left, and so is the record. -/
  active_eq : w.active = remaining
  positions_eq : w.positions = y.positions
  /-- The frames for the locks have been encoded, but not all of them have been accepted. -/
  frames_eq : ∃ frames, unlockFrames (remaining.pointsToUnlock removed) = .ok frames ∧
    sent.map (·.frame) = frames.take failure.framesSent ∧ failure.framesSent < frames.length
  accepted_eq : w.line.accepted = y.line.accepted ++ sent
  /-- The locks for which there was no frame stay engaged. -/
  engaged_iff : ∀ n, Engaged w.line.accepted n ↔
    Engaged y.line.accepted n ∧ ∀ f ∈ sent, f.frame.address ≠ n
  /-- The same release, made again, means no route and sends nothing. -/
  again : ∀ token' result z, Task.Completes w (.pending (.command c token')) result z →
    result = .command (.ok (.route c.idleOutcome)) ∧ w.Keeps z

/-- **A release that fails** where all locks can be encoded loses its routes. -/
theorem losesRoutes_of_completes (hactive : y.active.Encodable)
    (hrelease : (Job.command c token).isRelease = true)
    (h : Task.Completes y (.pending (.command c token)) (.command (.error failure)) w) :
    ∃ removed remaining sent, y.LosesRoutes c token failure removed remaining sent w := by
  obtain ⟨sent, hends⟩ := releaseEnds_of_completesIn hrelease (Task.completesIn_true_iff.2 h)
  cases hends with
  | unencodable hreleases hframes =>
    obtain ⟨frames, hok⟩ := hreleases.encodes hactive
    cases hok.symm.trans hframes
  | @disturbed removed remaining frames _ _ _ _ hreleases hframes _ hdisturbs hpre hlt hw =>
    refine ⟨removed, remaining, sent, ?_⟩
    have hkind : ∀ f ∈ sent, f.frame.kind = .unlock := fun f hf ↦
      (unlocks_of_unlockFrames hframes (hpre.subset (List.mem_map_of_mem hf))).1
    exact
      { releases := hreleases
        removed_ne_nil := by
          rintro rfl
          obtain rfl := Except.ok.inj (hframes.symm.trans (show _ = Except.ok [] from rfl))
          exact absurd hlt (Nat.not_lt_zero _)
        not_active := fun r hr ↦ hw.active_eq ▸ hreleases.not_mem_remaining hr
        active_eq := hw.active_eq
        positions_eq := hw.positions_eq
        frames_eq := by
          refine ⟨frames, hframes, ?_, by rwa [hdisturbs.framesSent_eq]⟩
          rw [hdisturbs.framesSent_eq, List.prefix_iff_eq_take.1 hpre, List.length_map]
        accepted_eq := hw.accepted_eq
        engaged_iff := fun n ↦ by rw [hw.accepted_eq, engaged_append_of_unlock hkind]
        again := fun token' result z hagain ↦ by
          obtain ⟨removed', remaining', hreleases'⟩ :=
            exists_releases (Job.isRelease_command c token token' ▸ hrelease) w
          obtain ⟨rfl, rfl⟩ := hreleases.eq_nil_of_again hw.active_eq hreleases'
          exact idle_of_releases hreleases' hagain }

end Yard

namespace Traffic

/-- **Releases that fail.** A release that begins in any state of any run, and has the yard to
itself from then on, loses its routes if it fails, whenever it is cancelled and whatever the bus
refuses. -/
theorem routes_lost_of_failed_release (layout : Layout) (delay capacity : Nat) (faults : BusFaults)
    (moves : List Move) {c : Command} {token : Token} {failure : Failure} {w : Yard}
    (hrelease : (Job.command c token).isRelease = true)
    (h : Task.Completes ((start layout delay capacity faults).run moves).yard
      (.pending (.command c token)) (.command (.error failure)) w) :
    ∃ removed remaining sent, ((start layout delay capacity faults).run moves).yard.LosesRoutes
      c token failure removed remaining sent w :=
  Yard.losesRoutes_of_completes (encodable_run layout delay capacity faults moves) hrelease h

/-- A route over a point with two locks is set. -/
def lockedRouteSet : List Move :=
  .join 0 (Turns.routeJob 64 72 .setMain [.plain 27 .straight]) :: List.replicate 13 (.go 0)

/-- The bus refuses the frame for the second lock. -/
theorem routes_lost_of_refused_lock :
    let t := (start (.junction [.linked "27" [12, 14] [13] 100]) 0 64
      { BusFaults.none with refuseAt := some 5 }).run lockedRouteSet
    let clear : Command := .route (.plain 64 72 .clear)
    t.yard.active.routes.length = 1 ∧ ∃ w removed remaining sent,
      t.yard.LosesRoutes clear .never (.transport 1 (.refused 5)) removed remaining sent w := by
  intro t clear
  have hw : Task.Completes t.yard (.pending (.command clear .never))
      (.command (.error (.transport 1 (.refused 5)))) _ :=
    completes_of_run (show (run ⟨t.yard, [.pending (.command clear .never)]⟩
      (List.replicate 7 (.go 0))).tasks = [Task.ended _ 0] by decide +kernel)
  exact ⟨by decide +kernel, _,
    routes_lost_of_failed_release _ 0 64 _ lockedRouteSet (by decide) hw⟩

/-- The release is told as rejected, but its route is gone, and the lock of its point is engaged. -/
theorem not_active_of_refused_lock :
    let t := (start (.junction [.linked "27" [12] [13] 100]) 0 64
      { BusFaults.none with refuseAt := some 2 }).run lockedRouteSet
    let clear : RouteCommand := .plain 64 72 .clear
    ∃ w r, Task.Completes t.yard (.pending (.command (.route clear) .never))
        (.command (.error (.transport 0 (.refused 2)))) w ∧
      r ∈ t.yard.active.routes ∧ clear.releases r = true ∧ r ∉ w.active.routes ∧
      Engaged w.line.accepted 112 := by
  intro t clear
  let after := run ⟨t.yard, [.pending (.command (.route clear) .never)]⟩ (List.replicate 4 (.go 0))
  have hw : Task.Completes t.yard (.pending (.command (.route clear) .never))
      (.command (.error (.transport 0 (.refused 2)))) after.yard :=
    completes_of_run (show after.tasks = [Task.ended _ 0] by decide +kernel)
  obtain ⟨r, hr⟩ : ∃ r, t.yard.active.routes = [r] := List.length_eq_one_iff.1 (by decide +kernel)
  have hmeans : ∀ r ∈ t.yard.active.routes, clear.releases r = true := by decide +kernel
  have hnone : after.yard.active.routes = [] := by decide +kernel
  have hmem : r ∈ t.yard.active.routes := hr ▸ List.mem_singleton_self r
  exact ⟨after.yard, r, hw, hmem, hmeans r hmem, hnone ▸ List.not_mem_nil,
    ⟨.ofMagnitude .lock 112 .closed, 0⟩, by decide +kernel, rfl⟩

end Traffic

end SignalBox
