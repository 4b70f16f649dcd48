import SignalBox.Proofs.IndependentRoutes
import SignalBox.Proofs.ReleaseEncoding

/-!
# Releases of named routes

A release names active routes by their end signals, and may leave the start open. The main statement
(`Traffic.teardown_exact`) is that a release that nothing disturbs takes away the routes it names
and nothing else, and that the release of a route that has just been set undoes it.

* **What is released is named** (`RouteCommand.releases_iff_names`): an open start stands for any,
  and never for a route that starts at no signal.
* **A release does not fail** unless it is disturbed: the locks of all active routes can be encoded
  (`Traffic.encodable_run`), those of a route that has just been set among them
  (`Yard.encodable_of_set`).
* **A request is undone** by the release of its end signals (`Yard.active_eq_of_undone`): it was
  admitted, so no other active route has them.
-/

namespace SignalBox

namespace Yard

variable {y z w : Yard} {token : Token} {request : RouteCommand} {result : JobResult}

/-! ### Releases that nothing disturbs -/

/-- What a release makes of a yard: the routes it names are gone, and nothing else has changed. -/
structure TearsDown (y : Yard) (request : RouteCommand) (result : JobResult) (w : Yard) :
    Prop where
  /-- It is rejected exactly if it names no active route. -/
  rejected_iff : result = .command (.ok (.route (.rejected .notActive))) ↔
    ∀ r ∈ y.active.routes, ¬ request.Names r
  /-- A release that is rejected sends nothing and changes nothing. -/
  keeps_of_rejected : result = .command (.ok (.route (.rejected .notActive))) → y.Keeps w
  cleared_of_names : (∃ r ∈ y.active.routes, request.Names r) →
    result = .command (.ok (.route .cleared))
  /-- The other routes are left, in their order. -/
  routes_eq : w.active.routes = y.active.routes.filter fun r ↦ ¬ request.Names r
  positions_eq : w.positions = y.positions

/-- **A release** that nothing disturbs takes away exactly what it names. -/
theorem tearsDown_of_performs (hactive : y.active.Encodable)
    (hteardown : request.state.isTeardown = true)
    (h : y.Performs (.route request) token result w) : y.TearsDown request result w := by
  have hteardown : y.Releases (.command (.route request) token) _ _ := .teardown hteardown
  obtain ⟨sent, hends⟩ := releaseEnds_of_completesIn hteardown.isRelease h
  cases hends with
  | notActive hreleases _ hw =>
    obtain ⟨hnone, rfl⟩ := hteardown.unique hreleases
    have hunnamed := Reservations.matching_eq_nil_iff.1 hnone
    have hall : y.active.without request = y.active :=
      Reservations.without_eq_self hunnamed
    exact
      { rejected_iff := ⟨fun _ ↦ hunnamed, fun _ ↦ rfl⟩
        keeps_of_rejected := fun _ ↦
          ⟨hw.plan_eq, hw.active_eq.trans hall, hw.positions_eq, hw.accepted_eq⟩
        cleared_of_names := fun ⟨r, hr, hnames⟩ ↦ absurd hnames (hunnamed r hr)
        routes_eq := hw.active_eq ▸ y.active.routes_without request
        positions_eq := hw.positions_eq }
  | unencodable hreleases hframes =>
    obtain ⟨frames, hok⟩ := hreleases.encodes hactive
    cases hok.symm.trans hframes
  | disturbed _ _ hx hdisturbs => exact absurd hdisturbs hx.not_disturbs
  | released hreleases _ houtcome _ hw =>
    obtain ⟨rfl, rfl⟩ := hteardown.unique hreleases
    obtain ⟨rfl, hsome⟩ | ⟨-, hc⟩ := houtcome
    · have hnamed : ¬ ∀ r ∈ y.active.routes, ¬ request.Names r :=
        mt Reservations.matching_eq_nil_iff.2 hsome
      exact
        { rejected_iff := ⟨nofun, fun hunnamed ↦ absurd hunnamed hnamed⟩
          keeps_of_rejected := nofun
          cleared_of_names := fun _ ↦ rfl
          routes_eq := hw.active_eq ▸ y.active.routes_without request
          positions_eq := hw.positions_eq }
    · cases hc

/-! ### Requests that are undone -/

section

variable {set : RouteCommand} {token' : Token}

/-- After a route has been set, all locks can be encoded if they could before. -/
theorem encodable_of_set (hactive : y.active.Encodable) (hset : set.state.isSet = true)
    (h : Task.Completes y (.pending (.command (.route set) token'))
      (.command (.ok (.route .set))) z) : z.active.Encodable := by
  obtain ⟨route, resolved, frames, hadmits, hz⟩ := exists_setsTo_of_completes hset h
  intro r hr
  rw [hz.active_eq] at hr
  rcases List.mem_append.1 hr with hr | hr
  · exact hactive r hr
  · rw [List.mem_singleton.1 hr]
    exact RouteCommand.hasEncodableLocks_of_setFrames hadmits.encoded

/-- **A request is undone** by the release of its end signals. -/
theorem active_eq_of_undone (hactive : y.active.Encodable) (hset : set.state.isSet = true)
    (hstands : Task.Completes y (.pending (.command (.route set) token'))
      (.command (.ok (.route .set))) z)
    (hteardown : request.state.isTeardown = true) (hstart : request.start = set.start)
    (hdestination : request.destination = set.destination)
    (h : z.Performs (.route request) token result w) :
    result = .command (.ok (.route .cleared)) ∧ w.active.routes = y.active.routes := by
  obtain ⟨route, resolved, frames, hadmits, hz⟩ := exists_setsTo_of_completes hset hstands
  have htears := tearsDown_of_performs (encodable_of_set hactive hset hstands) hteardown h
  obtain ⟨⟨hstart₁, hdestination₁⟩, hstart₂, hdestination₂⟩ := hadmits.ends_eq
  refine ⟨htears.cleared_of_names ⟨resolved, ?_, ?_⟩, ?_⟩
  · rw [hz.active_eq]
    exact List.mem_append_right _ (List.mem_singleton_self _)
  · exact ⟨hdestination₂.trans hdestination.symm, fun _ ↦ hstart₂.trans hstart.symm⟩
  · -- the release means what the request gives back if it is disturbed
    have hsame : z.active.without request = z.active.without route := by
      simp only [Reservations.without, RouteCommand.releases, hstart, hdestination, hstart₁,
        hdestination₁]
    rw [htears.routes_eq, ← Reservations.routes_without, hsame, hz.active_eq,
      hadmits.without_insert hset]

end

end Yard

namespace Traffic

/-- **Releases are exact.** A release that nothing disturbs, in any state of any run, takes away the
routes it names and leaves everything else. It is rejected if there are none. Made after a request
that has set its route, and with the same end signals, it leaves the routes that were active before
the request. -/
theorem teardown_exact (layout : Layout) (delay capacity : Nat) (faults : BusFaults)
    (moves : List Move) {request : RouteCommand} {token : Token}
    (hteardown : request.state.isTeardown = true) :
    let y := ((start layout delay capacity faults).run moves).yard
    (y.Sound token → ∃ result w, y.Performs (.route request) token result w) ∧
      (∀ result w, y.Performs (.route request) token result w → y.TearsDown request result w) ∧
      ∀ (set : RouteCommand) (token' : Token) (z : Yard), set.state.isSet = true →
        Task.Completes y (.pending (.command (.route set) token'))
          (.command (.ok (.route .set))) z →
        request.start = set.start → request.destination = set.destination →
        (z.Sound token → ∃ result w, z.Performs (.route request) token result w) ∧
          ∀ result w, z.Performs (.route request) token result w →
            result = .command (.ok (.route .cleared)) ∧ w.active.routes = y.active.routes := by
  intro y
  have hactive : y.active.Encodable := encodable_run layout delay capacity faults moves
  have hperforms (z : Yard) (hz : z.Sound token) :
      ∃ result w, z.Performs (.route request) token result w := by
    obtain ⟨result, w, h, -⟩ := Yard.exists_performs hz (.route request)
    exact ⟨result, w, h⟩
  exact ⟨hperforms y, fun _ _ h ↦ Yard.tearsDown_of_performs hactive hteardown h,
    fun set token' z hset hstands hstart hdestination ↦ ⟨hperforms z, fun _ _ h ↦
      Yard.active_eq_of_undone hactive hset hstands hteardown hstart hdestination h⟩⟩

/-- Of two routes to one signal, the second one is undone, and a release without a start takes both
away. -/
theorem teardown_exact_of_shared_destination :
    let route (start number : UInt32) : Job :=
      .command (.route { RouteCommand.plain start 72 .setMain with
        points := [.plain number .straight] }) .never
    let layout := Layout.junction [.linked "27" [12] [13] 100, .linked "28" [14] [15] 0]
    let first : List Move := .join 0 (route 64 27) :: List.replicate 7 (.go 0)
    let second : List Move := .join 0 (route 60 28) :: List.replicate 4 (.go 1)
    let y := ((start layout 0 64 .none).run first).yard
    let z := ((start layout 0 64 .none).run (first ++ second)).yard
    let undone := (run ⟨y, [.pending (route 60 28)]⟩ (List.replicate 4 (.go 0))).yard
    y.active.routes.length = 1 ∧ undone.active.routes.length = 2 ∧
    (∃ result w, undone.Performs (.route (.plain 60 72 .clear)) .never result w ∧
      result = .command (.ok (.route .cleared)) ∧ w.active.routes = y.active.routes) ∧
    z.active.routes.length = 2 ∧
    ∃ result w, z.Performs (.route (.plain 0 72 .clear)) .never result w ∧
      result = .command (.ok (.route .cleared)) ∧ w.active.routes = [] := by
  intro route layout first second y z undone
  have hstands : Task.Completes y (.pending (route 60 28)) (.command (.ok (.route .set))) undone :=
    completes_of_run (show _ = [Task.ended _ 0] by decide +kernel)
  have hundone : undone.Sound .never := ⟨rfl, by decide +kernel, fun _ _ _ h ↦ nomatch h⟩
  have hz : z.Sound .never := ⟨rfl, by decide +kernel, fun _ _ _ h ↦ nomatch h⟩
  have hnames : ∀ r ∈ z.active.routes, (RouteCommand.plain 0 72 .clear).Names r := by
    decide +kernel
  have hlength : z.active.routes.length = 2 := by decide +kernel
  refine ⟨by decide +kernel, by decide +kernel, ?_, hlength, ?_⟩
  · obtain ⟨-, -, hundoes⟩ := @teardown_exact layout 0 64 .none first (.plain 60 72 .clear)
      .never rfl
    rw [show ((start layout 0 64 .none).run first).yard = y from rfl] at hundoes
    obtain ⟨hperforms, hall⟩ := hundoes _ .never undone rfl hstands rfl rfl
    obtain ⟨result, w, h⟩ := hperforms hundone
    exact ⟨result, w, h, hall result w h⟩
  · obtain ⟨hperforms, hall, -⟩ := @teardown_exact layout 0 64 .none (first ++ second)
      (.plain 0 72 .clear) .never rfl
    rw [show ((start layout 0 64 .none).run (first ++ second)).yard = z from rfl] at hperforms hall
    obtain ⟨result, w, h⟩ := hperforms hz
    have htears := hall result w h
    obtain ⟨r, hr⟩ := List.exists_mem_of_length_pos (Nat.lt_of_lt_of_eq Nat.two_pos hlength.symm)
    refine ⟨result, w, h, htears.cleared_of_names ⟨r, hr, hnames r hr⟩, ?_⟩
    rw [htears.routes_eq, List.filter_eq_nil_iff]
    exact fun r hr ↦ by simpa using hnames r hr

end Traffic

end SignalBox
