import SignalBox.Proofs.CommandHistory
import SignalBox.Proofs.LateUnlocking
import SignalBox.Proofs.PerformedCalls
import SignalBox.Proofs.ReleaseEncoding
import SignalBox.Proofs.ResolvedPoints

/-!
# Clearing all routes

When all routes are cleared, none remains that could hold a point, and so all of their locks are to
be released. But of several commands for one sub-point only the first one with locks is unlocked,
whatever locks the others have. The main statement (`Deeds.clearsAll`) says exactly which locks are
released after a history of jobs of any kind, and that these are all of them if no job has replaced
the layout or brought addresses of its own, and no route wants a sub-point in different positions.

* **After any job** the active routes are interlocked and their locks can be encoded
  (`Deeds.interlocked`, `Deeds.encodable`), so clearing them does not fail.
* **Commands for one sub-point** have the same locks if one layout has resolved them and they want
  the same position (`Layout.lockAddresses_eq`).
-/

namespace SignalBox

/-! ### After jobs of any kind -/

namespace Deeds

variable {layout : Layout} {delay capacity : Nat} {faults : BusFaults} {deeds : List Deed}
  {y : Yard}

/-- **Invariants** of the active routes that moves keep hold after jobs of any kind. -/
theorem active_induction {P : Reservations → Prop} (hempty : P .empty)
    (hmove : ∀ t : Traffic, P t.yard.active → P (t.move (.go 0)).yard.active)
    (h : Deeds (.start layout delay capacity faults) deeds y) : P y.active := by
  induction h with
  | nil => exact hempty
  | concat _ hdone ih =>
    obtain ⟨_, hw⟩ := Traffic.holds_of_completes (P := fun t ↦ P t.yard.active) hmove
      (fun hw h ↦ hw.keeps.active_eq ▸ h) hdone ih
    exact hw

/-- The locks of all active routes can be encoded. -/
theorem encodable (h : Deeds (.start layout delay capacity faults) deeds y) :
    y.active.Encodable :=
  h.active_induction (fun _ hr ↦ absurd hr List.not_mem_nil) fun _ h ↦ Traffic.encodable_move h _

/-- The active routes are interlocked. -/
theorem interlocked (h : Deeds (.start layout delay capacity faults) deeds y) :
    y.active.Interlocked :=
  h.active_induction .empty fun _ h ↦ Traffic.interlocked_move _ h

/-- The layout is still in force, and has resolved all points of active routes, if all jobs have
been bare. -/
theorem keepsTo (h : Deeds (.start layout delay capacity faults) deeds y)
    (hbare : ∀ d ∈ deeds, d.job.Bare) : Traffic.KeepsTo layout ⟨y, []⟩ := by
  induction h with
  | nil => exact .start layout delay capacity faults
  | @concat deeds z w job result _ hdone ih =>
    have hz := ih fun d hd ↦ hbare d (List.mem_append_left _ hd)
    have hjob : job.Bare := hbare ⟨z.layout, job, result⟩ (by simp)
    have hpending : Traffic.KeepsTo layout ⟨z, [.pending job]⟩ :=
      { layout_eq := hz.layout_eq
        routes := hz.routes
        jobs := fun place task job' ht hj ↦ by
          rw [List.mem_singleton.1 (List.mem_of_getElem? ht)] at hj
          exact Option.some.inj hj ▸ hjob }
    obtain ⟨_, hw⟩ := Traffic.holds_of_completes (P := Traffic.KeepsTo layout)
      (fun _ h ↦ h.move trivial) (fun hw h ↦
        { layout_eq := by
            rw [Yard.layout, hw.keeps.plan_eq]
            exact h.layout_eq
          routes := hw.keeps.active_eq ▸ h.routes
          jobs := h.jobs }) hdone hpending
    exact
      { layout_eq := hw.layout_eq
        routes := hw.routes
        jobs := fun place task _ ht ↦ absurd ht (by simp) }

end Deeds

/-! ### Commands for one sub-point -/

/-- Two routes want a sub-point with locks in different positions. -/
def RouteCommand.Disagrees (r s : RouteCommand) : Prop :=
  ∃ p ∈ r.points, ∃ q ∈ s.points, Reservations.sameKey p q = true ∧
    p.hasLock = true ∧ q.hasLock = true ∧ p.position ≠ q.position

instance (r s : RouteCommand) : Decidable (r.Disagrees s) :=
  inferInstanceAs (Decidable (∃ p ∈ r.points, ∃ q ∈ s.points, _ ∧ _ ∧ _ ∧ _))

theorem Reservations.sameKey_iff {p q : PointCommand} :
    sameKey p q = true ↔ q.number = p.number ∧ q.subPoint = p.subPoint := by
  simp [sameKey]

/-- **Interlocked routes** do not disagree with each other if none disagrees with itself. -/
theorem Reservations.Interlocked.not_disagrees {a : Reservations} (h : a.Interlocked)
    (hself : ∀ r ∈ a.routes, ¬ r.Disagrees r) {r s : RouteCommand} (hr : r ∈ a.routes)
    (hs : s ∈ a.routes) : ¬ r.Disagrees s := by
  have hlater : a.routes.Pairwise fun r s ↦ ¬ r.Disagrees s := by
    refine h.agree.imp ?_
    rintro r s hagree ⟨p, hp, q, hq, hkey, -, -, hne⟩
    exact hne (hagree p hp q hq (sameKey_iff.1 hkey).1.symm)
  have hearlier : a.routes.Pairwise (flip fun r s ↦ ¬ r.Disagrees s) := by
    refine h.agree.imp ?_
    rintro r s hagree ⟨q, hq, p, hp, hkey, -, -, hne⟩
    exact hne (hagree p hp q hq (sameKey_iff.1 hkey).1).symm
  exact hlater.forall_of_forall_of_flip hself hearlier hr hs

/-- Commands that bring nothing have the same locks if they ask the same position of the same
sub-point. -/
theorem Layout.lockAddresses_eq {l : Layout} {c d p q : PointCommand} (hc : c.Bare) (hd : d.Bare)
    (hp : l.resolvePoint? c = some p) (hq : l.resolvePoint? d = some q)
    (hkey : Reservations.sameKey p q = true) (hposition : p.position = q.position) :
    p.lockAddresses = q.lockAddresses := by
  have hsame := sameRequest_of_resolvePoint? hp
  have hsame' := sameRequest_of_resolvePoint? hq
  obtain ⟨hnumber, hletter⟩ := Reservations.sameKey_iff.1 hkey
  have hdefinitions : l.definitionsOf c = l.definitionsOf d :=
    definitionsOf_congr (by rw [← hsame.number, ← hsame'.number, hnumber])
      (by rw [← hsame.subPoint, ← hsame'.subPoint, hletter])
  have hposition' : c.position = d.position := by
    rw [← hsame.position, ← hsame'.position, hposition]
  rw [lockAddresses_of_resolved hp hc, lockAddresses_of_resolved hq hd, lockOffsetOf?,
    lockOffsetOf?, addressesOf, addressesOf, hdefinitions, hposition']

/-- **What counts** for a sub-point has the locks of all commands for it, if one layout has resolved
them and no route wants it in different positions. -/
theorem Traffic.KeepsTo.not_overlooks {l : Layout} {t : Traffic} (h : t.KeepsTo l)
    (hinterlocked : t.yard.active.Interlocked) (hself : ∀ r ∈ t.yard.active.routes, ¬ r.Disagrees r)
    {r : RouteCommand} (hr : r ∈ t.yard.active.routes) {p : PointCommand} (hp : p ∈ r.points)
    {n : Nat} (hlock : p.HasLockAt n) :
    ¬ Reservations.empty.Overlooks t.yard.active.routes p n := by
  rintro (hholds | ⟨q, hcounts, hnone⟩)
  · cases hholds
  · obtain ⟨s, hs, hq⟩ := List.mem_flatMap.1 (List.mem_of_find?_eq_some hcounts)
    have hfound := List.find?_some (Reservations.counting?.eq_def _ _ ▸ hcounts)
    obtain ⟨hlock', hkey⟩ := Bool.and_eq_true_iff.1 hfound
    have hposition : p.position = q.position := Classical.not_not.1 fun hne ↦
      hinterlocked.not_disagrees hself hr hs ⟨p, hp, q, hq, hkey, hlock.hasLock, hlock', hne⟩
    obtain ⟨c, hc, hcp⟩ := h.exists_resolvePoint? hr hp hlock.hasLock
    obtain ⟨d, hd, hdq⟩ := h.exists_resolvePoint? hs hq hlock'
    obtain ⟨a, ha, hn⟩ := hlock
    exact hnone ⟨a, Layout.lockAddresses_eq hc hd hcp hdq hkey hposition ▸ ha, hn⟩

/-! ### Clearing -/

namespace Yard

variable {y w : Yard} {token : Token} {result : JobResult}

/-- What clearing all routes does: they are gone, and exactly those of their locks are released that
are not overlooked with every point that has them. -/
structure ClearsAll (y : Yard) (sent : List AcceptedFrame) (result : JobResult) (w : Yard) :
    Prop where
  result_eq : result = .command (.ok (.route .allCleared))
  routes_eq : w.active.routes = []
  accepted_eq : w.line.accepted = y.line.accepted ++ sent
  unlocks : ∀ f ∈ sent, f.frame.kind = .unlock ∧ f.frame.position = .thrown
  unlocks_iff : ∀ n, (∃ f ∈ sent, f.frame.address = n) ↔ ∃ r ∈ y.active.routes, ∃ p ∈ r.points,
    p.HasLockAt n ∧ ¬ Reservations.empty.Overlooks y.active.routes p n

/-- **Clearing all routes** goes through if nothing disturbs it. -/
theorem clearsAll_of_performs (hactive : y.active.Encodable)
    (h : y.Performs (.control .clearAllRoutes) token result w) :
    ∃ sent, y.ClearsAll sent result w := by
  obtain ⟨z, hz, h⟩ := Task.begin_of_completesIn_pending h
  have hclear : z.Releases (.command (.control .clearAllRoutes) token) _ _ := .clearAll
  rcases z.clearAllRoutes_cases token with ⟨cause, hframes, -⟩ | ⟨frames, hframes, hbegins⟩
  · obtain ⟨frames, hok⟩ := hclear.encodes (hz.active_eq ▸ hactive)
    cases hok.symm.trans hframes
  · rw [Task.begin, startCommand, hbegins] at h
    obtain ⟨sent, ⟨hsent, hresult, hw⟩ | ⟨x, failure, hx, hdisturbs, -⟩⟩ :=
      delivered_of_completesIn rfl h
    · rw [hz.active_eq] at hframes
      exact ⟨sent,
        { result_eq := hresult
          routes_eq := congrArg Reservations.routes hw.active_eq
          accepted_eq := by
            rw [hw.accepted_eq]
            exact congrArg (· ++ sent) (hz.accepted_eq.trans (List.append_nil _))
          unlocks := fun f hf ↦
            unlocks_of_unlockFrames hframes (hsent ▸ List.mem_map_of_mem hf)
          unlocks_iff := exists_sent_iff_not_overlooks hframes hsent }⟩
    · exact absurd hdisturbs hx.not_disturbs

end Yard

namespace Deeds

variable {layout : Layout} {delay capacity : Nat} {faults : BusFaults} {deeds : List Deed}
  {y : Yard} {token : Token}

/-- **Clearing all routes** after jobs of any kind, in a sound yard. It goes through and leaves no
active route. Each lock is released that is one of an active route, unless it is overlooked with
every point that has it because another command for the sub-point counts. None is overlooked if no
job has replaced the layout or brought addresses or locks of its own, and no active route wants a
sub-point in different positions. -/
theorem clearsAll (h : Deeds (.start layout delay capacity faults) deeds y)
    (hsound : y.Sound token) :
    (∃ result w, y.Performs (.control .clearAllRoutes) token result w) ∧
      ∀ result w, y.Performs (.control .clearAllRoutes) token result w →
        ∃ sent, y.ClearsAll sent result w ∧
          ((∀ d ∈ deeds, d.job.Bare) → (∀ r ∈ y.active.routes, ¬ r.Disagrees r) →
            ∀ r ∈ y.active.routes, ∀ n, r.Locks n → ∃ f ∈ sent, f.frame.address = n) := by
  constructor
  · obtain ⟨result, w, hperforms, -⟩ := Yard.exists_performs hsound (.control .clearAllRoutes)
    exact ⟨result, w, hperforms⟩
  · intro result w hperforms
    obtain ⟨sent, hclears⟩ := Yard.clearsAll_of_performs h.encodable hperforms
    refine ⟨sent, hclears, fun hbare hself r hr n hlocks ↦ ?_⟩
    obtain ⟨p, hp, hlock⟩ := hlocks
    exact (hclears.unlocks_iff n).2
      ⟨r, hr, p, hp, hlock, (h.keepsTo hbare).not_overlooks h.interlocked hself hr hp hlock⟩

/-- Two routes share a point with a lock, and one of them has another such point. -/
theorem clearsAll_of_shared_point :
    let layout := Layout.junction [.linked "27" [12] [13] 100, .linked "28" [14] [15] 100]
    ∃ deeds y result w sent, Deeds (.start layout 0 64 .none) deeds y ∧
      y.Sound .never ∧ y.active.routes.length = 2 ∧
      y.Performs (.control .clearAllRoutes) .never result w ∧ y.ClearsAll sent result w ∧
      (∃ f ∈ sent, f.frame.address = 112) ∧ ∃ f ∈ sent, f.frame.address = 114 := by
  intro layout
  have hfirst : Deeds (.start layout 0 64 .none) _ _ :=
    Deeds.nil.ofMoves (Turns.routeJob 64 72 .setMain [.plain 27 .straight, .plain 28 .straight])
      (List.replicate 13 (.go 0)) (.command (.ok (.route .set)))
      (show _ = [Task.ended _ 0] by decide +kernel)
  obtain ⟨deeds, y, hbare, hy, hlength, hlocks, hself, h⟩ : ∃ deeds y, (∀ d ∈ deeds, d.job.Bare) ∧
      y.Sound .never ∧ y.active.routes.length = 2 ∧
      (∀ n ∈ [112, 114], ∃ r ∈ y.active.routes, r.Locks n) ∧
      (∀ r ∈ y.active.routes, ¬ r.Disagrees r) ∧
      Deeds (.start layout 0 64 .none) deeds y :=
    ⟨_, _, by decide +kernel, ⟨rfl, by decide +kernel, fun _ _ _ h ↦ nomatch h⟩,
      by decide +kernel, by decide +kernel, by decide +kernel,
      hfirst.ofMoves (Turns.routeJob 60 80 .setMain [.plain 27 .straight])
        (List.replicate 7 (.go 0)) (.command (.ok (.route .set)))
        (show _ = [Task.ended _ 0] by decide +kernel)⟩
  obtain ⟨⟨result, w, hperforms⟩, hall⟩ := h.clearsAll hy
  obtain ⟨sent, hclears, hunlocked⟩ := hall result w hperforms
  have hlock (n : Nat) (hn : n ∈ [112, 114]) : ∃ f ∈ sent, f.frame.address = n := by
    obtain ⟨r, hr, hlocks⟩ := hlocks n hn
    exact hunlocked hbare hself r hr n hlocks
  exact ⟨deeds, y, result, w, sent, h, hy, hlength, hperforms, hclears, hlock 112 (by simp),
    hlock 114 (by simp)⟩

/-- The layout is replaced between two routes, and the point of both gets another lock: the one that
the second route has engaged is not released, and no active route is left that has it. -/
theorem not_unlocked_of_replaced_layout :
    let locked (address : Int32) := Layout.junction [.linked "27" [address] [13] 100]
    ∃ deeds y result w r sent, Deeds (.start (locked 12) 0 64 .none) deeds y ∧
      deeds.map (·.result) = [.command (.ok (.route .set)), .nothing,
        .command (.ok (.route .set))] ∧
      y.Sound .never ∧ y.Performs (.control .clearAllRoutes) .never result w ∧
      y.ClearsAll sent result w ∧ r ∈ y.active.routes ∧ r.Locks 114 ∧
      ¬ ∃ f ∈ sent, f.frame.address = 114 := by
  intro locked
  have hfirst : Deeds (.start (locked 12) 0 64 .none) _ _ :=
    Deeds.nil.ofMoves (Turns.routeJob 64 72 .setMain [.plain 27 .straight])
      (List.replicate 7 (.go 0)) (.command (.ok (.route .set)))
      (show _ = [Task.ended _ 0] by decide +kernel)
  have hreplaced := hfirst.ofMoves (.replaceLayout (locked 14)) [.go 0] .nothing
    (show _ = [Task.ended _ 0] by decide +kernel)
  obtain ⟨deeds, y, hresults, hy, hlocks, hcounts, h⟩ : ∃ deeds y,
      deeds.map (·.result) = [.command (.ok (.route .set)), .nothing,
        .command (.ok (.route .set))] ∧ y.Sound .never ∧
      (∃ r ∈ y.active.routes, r.Locks 114) ∧
      (¬ ∃ p ∈ Reservations.empty.pointsToUnlock y.active.routes, p.HasLockAt 114) ∧
      Deeds (.start (locked 12) 0 64 .none) deeds y :=
    ⟨_, _, rfl, ⟨rfl, by decide +kernel, fun _ _ _ h ↦ nomatch h⟩, by decide +kernel,
      by decide +kernel,
      hreplaced.ofMoves (Turns.routeJob 60 80 .setMain [.plain 27 .straight])
        (List.replicate 7 (.go 0)) (.command (.ok (.route .set)))
        (show _ = [Task.ended _ 0] by decide +kernel)⟩
  obtain ⟨result, w, hperforms, -⟩ := Yard.exists_performs hy (.control .clearAllRoutes)
  obtain ⟨sent, hclears⟩ := Yard.clearsAll_of_performs h.encodable hperforms
  obtain ⟨r, hr, hlocks⟩ := hlocks
  refine ⟨deeds, y, result, w, r, sent, h, hresults, hy, hperforms, hclears, hr, hlocks, ?_⟩
  rwa [hclears.unlocks_iff, ← Reservations.exists_mem_pointsToUnlock_iff]

end Deeds

end SignalBox
