import SignalBox.Proofs.Beginnings

/-!
# Where results come from

A command in flight keeps its purpose until it ends, except that the stop of all signals goes on
with the next signal. So a result can be traced back to the step in which the command began: only a
request to set a route that was admitted ever ends with the news that the route is set
(`setRoute_of_step`, `setsNoRoute_startCommand`).
-/

namespace SignalBox

namespace Yard

variable {y y' : Yard} {token : Token}

/-- **The stop of signals** ends with their number or an address that is not on the bus, or goes on
with one of them. -/
theorem showSignals_cases (y : Yard) (token : Token) (count : Nat) (signals : List SignalCommand) :
    (y.showSignals token count signals).2 = .done (.ok (.signalsStopped count)) ∨
      (∃ cause, (y.showSignals token count signals).2 = .done (.error (.protocol cause))) ∨
      ∃ signal rest delivery, (y.showSignals token count signals).2 =
        .underWay { purpose := .stopSignals signal rest count, delivery } := by
  fun_induction showSignals y token count signals with
  | case1 => exact .inl rfl
  | case2 y signal rest cause => exact .inr (.inl ⟨cause, rfl⟩)
  | case3 y signal rest _ ih => exact ih
  | case4 y signal rest => exact .inr (.inr ⟨signal, rest, _, rfl⟩)

/-- No signal command ends with the news that a route is set, or goes on as one that sets a route.
-/
theorem showSignals_ne (y : Yard) (token : Token) (count : Nat) (signals : List SignalCommand) :
    (y.showSignals token count signals).2 ≠ .done (.ok (.route .set)) ∧
      ∀ a, (y.showSignals token count signals).2 = .underWay a →
        ∀ layout route resolved, a.purpose ≠ .setRoute layout route resolved := by
  rcases y.showSignals_cases token count signals with h | ⟨cause, h⟩ | ⟨signal, rest, delivery, h⟩
  · rw [h]
    exact ⟨by simp, by simp⟩
  · rw [h]
    exact ⟨by simp, by simp⟩
  · rw [h]
    refine ⟨by simp, ?_⟩
    rintro a ha layout route resolved
    rw [← Progress.underWay.inj ha]
    simp

/-! ### Ends of deliveries -/

/-- The news that a route is set comes from a delivery for that purpose, and is published. -/
theorem set_of_finish {purpose : Purpose}
    (h : y.finish token purpose = (y', .done (.ok (.route .set)))) :
    ∃ layout route resolved, purpose = .setRoute layout route resolved ∧
      y'.channel = y.channel.publish (.route route.start route.destination .set) := by
  cases purpose with
  | setRoute layout route resolved =>
    exact ⟨layout, route, resolved, rfl, (congrArg (·.1.channel) h).symm⟩
  | stopSignals signal rest count =>
    -- the end of this frame goes on with the next signal
    rw [finish] at h
    exact absurd (congrArg Prod.snd h) ((y.announce signal true).showSignals_ne token count rest).1
  | _ => simp [finish, endPoint, endRoute, endTurntable] at h

theorem ne_setRoute_of_finish {purpose : Purpose} {a : Activity}
    (h : (y.finish token purpose).2 = .underWay a) (layout : Layout)
    (route resolved : RouteCommand) :
    a.purpose ≠ .setRoute layout route resolved := by
  cases purpose with
  | stopSignals signal rest count =>
    rw [finish] at h
    exact ((y.announce signal true).showSignals_ne token count rest).2 a h layout route resolved
  | _ => simp [finish, endPoint, endRoute, endTurntable] at h

/-- The frames of a route go out for the purpose that was given. -/
theorem purpose_of_deliver {purpose : Purpose} {frames : List Frame} {a : Activity}
    {layout : Layout} {route resolved : RouteCommand}
    (h : (y.deliver token purpose frames).2 = .underWay a)
    (ha : a.purpose = .setRoute layout route resolved) :
    purpose = .setRoute layout route resolved := by
  cases frames with
  | nil => exact absurd ha (ne_setRoute_of_finish h layout route resolved)
  | cons frame rest => exact (congrArg Activity.purpose (Progress.underWay.inj h)).trans ha

theorem set_of_deliver {purpose : Purpose} {frames : List Frame}
    (h : y.deliver token purpose frames = (y', .done (.ok (.route .set)))) :
    ∃ layout route resolved, purpose = .setRoute layout route resolved ∧
      y'.channel = y.channel.publish (.route route.start route.destination .set) := by
  cases frames with
  | nil => exact set_of_finish h
  | cons frame rest => cases congrArg Prod.snd h

end Yard

/-! ### Commands in flight -/

namespace Activity

variable {y y' : Yard} {a a' : Activity}

/-- **A route on its way** keeps its purpose from step to step. -/
theorem purpose_of_step {layout : Layout} {route resolved : RouteCommand}
    (h : (a.step y).2 = .underWay a') (ha : a'.purpose = .setRoute layout route resolved) :
    a.purpose = .setRoute layout route resolved := by
  rw [step] at h
  split at h
  next => exact (congrArg Activity.purpose (Progress.underWay.inj h)).trans ha
  next => rw [Yard.abandon_snd] at h; cases h
  next => exact absurd ha (Yard.ne_setRoute_of_finish h layout route resolved)

/-- **A route reported as set** was on its way until this step, in which the news is published. -/
theorem setRoute_of_step (h : a.step y = (y', .done (.ok (.route .set)))) :
    ∃ layout route resolved, a.purpose = .setRoute layout route resolved ∧
      y'.channel = y.channel.publish (.route route.start route.destination .set) := by
  obtain ⟨line, setOff, hd⟩ := a.delivery.step_eq y
  rw [step] at h
  split at h
  next => cases congrArg Prod.snd h
  next failure _ =>
    have hs := congrArg Prod.snd h
    rw [Yard.abandon_snd] at hs
    cases hs
  next hs =>
    obtain ⟨layout, route, resolved, hp, hc⟩ := Yard.set_of_finish h
    refine ⟨layout, route, resolved, hp, ?_⟩
    rw [hs] at hd
    rw [hc, show _ = _ from congrArg Yard.channel hd]

end Activity

/-! ### Beginnings -/

namespace Yard

variable {y y' : Yard} {token : Token}

/-- What begins without setting a route does not go on to set one, and does not report one. -/
def SetsNoRoute (p : Yard × Progress) : Prop :=
  p.2 ≠ .done (.ok (.route .set)) ∧
    ∀ a, p.2 = .underWay a → ∀ layout route resolved, a.purpose ≠ .setRoute layout route resolved

theorem setsNoRoute_of_done {result : Except Failure Outcome} (h : result ≠ .ok (.route .set)) :
    SetsNoRoute (y, .done result) :=
  ⟨fun he ↦ h (Progress.done.inj he), by simp⟩

theorem setsNoRoute_deliver {purpose : Purpose} {frames : List Frame}
    (h : ∀ layout route resolved, purpose ≠ .setRoute layout route resolved) :
    SetsNoRoute (y.deliver token purpose frames) := by
  refine ⟨fun he ↦ ?_, fun a ha layout route resolved hp ↦
    h layout route resolved (purpose_of_deliver ha hp)⟩
  obtain ⟨layout, route, resolved, hp, -⟩ := set_of_deliver (Prod.ext rfl he)
  exact h layout route resolved hp

theorem setsNoRoute_startPoint (command : PointCommand) :
    SetsNoRoute (y.startPoint token command) := by
  rcases y.startPoint_cases token command with ⟨outcome, -, h⟩ | ⟨cause, h⟩ | ⟨point, frames, -, h⟩
  · exact h ▸ setsNoRoute_of_done (by simp)
  · exact h ▸ setsNoRoute_of_done (by simp)
  · exact h ▸ setsNoRoute_deliver (by simp)

theorem setsNoRoute_startTurntable (command : TurntableCommand) :
    SetsNoRoute (y.startTurntable token command) := by
  rw [startTurntable]
  split
  · exact setsNoRoute_of_done (by simp)
  · split
    · exact setsNoRoute_of_done (by simp)
    · exact setsNoRoute_deliver (by simp)

theorem setsNoRoute_startSignal (signal : SignalCommand) :
    SetsNoRoute (y.startSignal token signal) := by
  rw [startSignal]
  split
  · exact setsNoRoute_of_done (by simp)
  · exact setsNoRoute_of_done (by simp)
  · exact setsNoRoute_deliver (by simp)

theorem setsNoRoute_releaseRoute (request : RouteCommand) :
    SetsNoRoute (y.releaseRoute token request) := by
  rcases y.releaseRoute_cases token request with ⟨-, h⟩ | ⟨-, ⟨cause, -, h⟩ | ⟨frames, -, h⟩⟩
  · exact h ▸ setsNoRoute_of_done (by simp)
  · exact h ▸ setsNoRoute_of_done (by simp)
  · exact h ▸ setsNoRoute_deliver (by simp)

theorem setsNoRoute_clearAllRoutes : SetsNoRoute (y.clearAllRoutes token) := by
  rcases y.clearAllRoutes_cases token with ⟨cause, -, h⟩ | ⟨frames, -, h⟩
  · exact h ▸ setsNoRoute_of_done (by simp)
  · exact h ▸ setsNoRoute_deliver (by simp)

/-- **Beginnings.** A command sets no route unless it is a request to set one; such a request is
admitted, or sets none either. -/
theorem setsNoRoute_startCommand (command : Command) :
    SetsNoRoute (y.startCommand token command) ∨
      ∃ request route resolved frames, command = .route request ∧ request.state.isSet = true ∧
        y.Admits request route resolved frames ∧
        y.startCommand token command = (y.withActive (y.active.insert resolved)).deliver token
          (.setRoute y.layout route resolved) frames := by
  cases command with
  | point command => exact .inl (setsNoRoute_startPoint command)
  | turntable command => exact .inl (setsNoRoute_startTurntable command)
  | control command =>
    cases command with
    | reload => exact .inl (setsNoRoute_of_done (by simp))
    | clearAllRoutes => exact .inl setsNoRoute_clearAllRoutes
    | stopAllSignals => exact .inl (y.showSignals_ne token _ _)
  | route request =>
    rw [startCommand, startRoute]
    by_cases hset : request.state.isSet = true
    · rw [if_pos hset]
      rcases y.setRoute_cases token request with
          ⟨reason, h⟩ | ⟨cause, h⟩ | ⟨route, resolved, frames, ha, h⟩
      · exact .inl (h ▸ setsNoRoute_of_done (by simp))
      · exact .inl (h ▸ setsNoRoute_of_done (by simp))
      · exact .inr ⟨request, route, resolved, frames, rfl, hset, ha, h⟩
    · rw [if_neg hset]
      split
      · exact .inl (setsNoRoute_releaseRoute request)
      · exact .inl (setsNoRoute_of_done (by simp))

end Yard

end SignalBox
