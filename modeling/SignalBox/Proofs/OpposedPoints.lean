import SignalBox.Proofs.Course
import SignalBox.Proofs.Interlocking

/-!
# Points that are moved under a route

A route holds its points: a point command for one of them is turned away when it begins. It looks
for the route only then, though, and not again before each of its frames or before it records its
position. So a point command that was in flight when the route took its reservation goes on, and
moves the point under the route. The main statement (`movesAgainst_iff`) says that nothing else
does: as long as a route stands, from its reservation on, the moves in which a point command sends a
frame against the route or records a position against it are exactly the moves in which a command
that was in flight at the reservation delivers a frame.

* **Commands that begin** while the route is active are turned away (`not_launches_of_active`), and
  do nothing at all (`idle_of_begins`).
* **Commands in flight** record their position in the step that delivers their last frame, so that a
  step without a frame does nothing (`positions_of_not_delivers`).

A run in which a point is moved under a route that is set is `movesAgainst_of_overlap`.
-/

namespace SignalBox

/-- A route wants a point in another position than the given one. -/
def RouteCommand.Opposes (r : RouteCommand) (number : UInt32) (position : Position) : Prop :=
  ∃ p ∈ r.points, p.number = number ∧ p.position ≠ position

/-- What a task is to do with a point: the number and the position of a point command that is to
begin or is in flight. -/
def Task.point? : Task → Option (UInt32 × Position)
  | pending (.command (.point c) _) => some (c.number, c.position)
  | planned _ (.command (.point c) _) => some (c.number, c.position)
  | inFlight ⟨.movePoint number _ position, _⟩ _ => some (number, position)
  | _ => none

theorem Task.point?_inFlight_iff {a : Activity} {alert : Bool} {number : UInt32}
    {position : Position} :
    (inFlight a alert).point? = some (number, position) ↔
      ∃ keys, a.purpose = .movePoint number keys position := by
  obtain ⟨purpose, delivery⟩ := a
  cases purpose <;> simp [point?]

theorem Task.point?_cases {task : Task} {number : UInt32} {position : Position}
    (h : task.point? = some (number, position)) :
    (∃ c token, task.job? = some (.command (.point c) token) ∧ c.number = number) ∨
      ∃ a alert, task = .inFlight a alert := by
  rw [point?.eq_def] at h
  split at h
  next c token => exact .inl ⟨c, token, rfl, congrArg Prod.fst (Option.some.inj h)⟩
  next due c token => exact .inl ⟨c, token, rfl, congrArg Prod.fst (Option.some.inj h)⟩
  next => exact .inr ⟨_, _, rfl⟩
  next => cases h

/-- A step of a command in flight that sends no frame records no position. -/
theorem Activity.Goes.positions_of_not_delivers {y : Yard} {a : Activity} {p : Yard × Task}
    (h : a.Goes y p) (hidle : ¬ a.Delivers y) : p.1.positions = y.positions := by
  cases h with
  | listens hz | writes hz => exact hz.passes.positions_eq
  | @cancelled z hz | @refused z hz =>
    obtain ⟨channel, hs⟩ := z.abandon_eq _ a.purpose
    rw [Task.ofProgress_fst, hs]
    exact hz.passes.positions_eq
  | sends hz hdelivers | completes hz hdelivers => exact absurd hdelivers hidle

namespace Traffic

variable {t : Traffic} {r : RouteCommand} {place : Nat} {a : Activity} {alert : Bool}

/-- The next move of the task at a place moves a point against a route: it is a step of a point
command that sends a frame for a position that the route does not want, or records this position. -/
def MovesAgainst (t : Traffic) (r : RouteCommand) (place : Nat) : Prop :=
  ∃ task number position, t.tasks[place]? = some task ∧
    task.point? = some (number, position) ∧ r.Opposes number position ∧
    ((∃ f ∈ t.sentIn (.go place), ∃ a : Int32,
        f.frame.Encodes .set (.ofPosition (position.forAddress a)) a.toInt) ∨
      ∃ key : PointKey, key.number = number ∧ t.yard.positions.get? key ≠ some position ∧
        (t.move (.go place)).yard.positions.get? key = some position)

/-- A point command is in flight that moves a point against a route. -/
def Opposed (t : Traffic) (r : RouteCommand) (place : Nat) : Prop :=
  ∃ a alert number position, t.tasks[place]? = some (.inFlight a alert) ∧
    (Task.inFlight a alert).point? = some (number, position) ∧ r.Opposes number position

/-! ### What point commands do not do -/

/-- A point command against an active route is not launched. -/
theorem not_launches_of_active {y : Yard} {job : Job} {number : UInt32} {keys : List PointKey}
    {position : Position} {frames : List Frame} (hr : r ∈ y.active.routes)
    (hopposes : r.Opposes number position) :
    ¬ y.Launches job (.movePoint number keys position) frames := by
  intro h
  cases h with
  | movePoint hmoves =>
    obtain ⟨p, hp, hnumber, -⟩ := hopposes
    have hsame := Layout.sameRequest_of_resolvePoint? hmoves.resolves
    have hheld := Reservations.holds_iff.2 ⟨r, hr, p, hp, hnumber.trans hsame.number.symm⟩
    exact Bool.false_ne_true (hmoves.free.symm.trans hheld)
  | release hreleases hpurpose => cases hpurpose
  | shows hjob hpurpose => cases hpurpose

/-- A point command that begins while its point is held records nothing. -/
theorem positions_startPoint_of_holds {y : Yard} {token : Token} {c : PointCommand}
    (h : y.active.holds c.number = true) : (y.startPoint token c).1.positions = y.positions := by
  rcases y.startPoint_cases token c with ⟨outcome, -, hs⟩ | ⟨cause, hs⟩ | ⟨point, frames, hmoves, -⟩
  · rw [hs]
    rfl
  · rw [hs]
    rfl
  · have hfree := hmoves.free
    rw [(Layout.sameRequest_of_resolvePoint? hmoves.resolves).number, h] at hfree
    cases hfree

/-- **A point command that begins** while an active route has its point does nothing. -/
theorem idle_of_job? {task : Task} {c : PointCommand} {token : Token}
    (ht : t.tasks[place]? = some task) (hj : task.job? = some (.command (.point c) token))
    (h : t.yard.active.holds c.number = true) :
    t.sentIn (.go place) = [] ∧ (t.move (.go place)).yard.positions = t.yard.positions := by
  cases hr : task.isReady t.yard with
  | false =>
    have hmove : t.move (.go place) = t := advance_of_not_ready ht hr
    exact ⟨sentIn_of_accepted_eq (by rw [hmove]), by rw [hmove]⟩
  | true =>
    refine ⟨sentIn_of_begins ⟨task, ht, hr, hj⟩ (by simp), ?_⟩
    rw [move, advance_of_ready ht hr]
    cases task with
    | pending job =>
      obtain rfl := Option.some.inj hj
      exact (congrArg Yard.positions (Task.ofProgress_fst _)).trans
        (positions_startPoint_of_holds h)
    | planned due job =>
      obtain rfl := Option.some.inj hj
      exact (congrArg Yard.positions (Task.ofProgress_fst _)).trans
        (positions_startPoint_of_holds (y := t.yard.spend) h)
    | _ => cases hj

/-- **A command in flight** that sends no frame in a step records no position in it. -/
theorem positions_of_not_delivers (ht : t.tasks[place]? = some (.inFlight a alert))
    (h : ∀ frame, ¬ t.Delivers place frame) :
    (t.move (.go place)).yard.positions = t.yard.positions := by
  have hidle : ¬ a.Delivers t.yard := fun hd ↦ h _ ⟨a, alert, ht, hd, rfl⟩
  rw [move]
  cases hr : (Task.inFlight a alert).isReady t.yard with
  | false => rw [advance_of_not_ready ht hr]
  | true =>
    rw [advance_of_ready ht hr]
    exact (Activity.goes_step hr).positions_of_not_delivers hidle

/-- **One move** of a point command moves a point against an active route exactly if the command is
in flight already and delivers a frame. -/
theorem movesAgainst_iff_of_active (hr : r ∈ t.yard.active.routes) (hfits : t.FramesFit) :
    t.MovesAgainst r place ↔ t.Opposed r place ∧ ∃ frame, t.Delivers place frame := by
  constructor
  · rintro ⟨task, number, position, htask, hpoint, hopposes, hacts⟩
    rcases Task.point?_cases hpoint with ⟨c, token, hj, rfl⟩ | ⟨a, alert, rfl⟩
    · -- a command that has not begun finds its point held
      obtain ⟨p, hp, hnumber, -⟩ := hopposes
      obtain ⟨hsent, hpositions⟩ :=
        idle_of_job? htask hj (Reservations.holds_iff.2 ⟨r, hr, p, hp, hnumber⟩)
      rcases hacts with ⟨f, hf, -⟩ | ⟨key, -, hbefore, hafter⟩
      · rw [hsent] at hf
        cases hf
      · exact absurd (hpositions ▸ hafter) hbefore
    · refine ⟨⟨a, alert, number, position, htask, hpoint, hopposes⟩, ?_⟩
      by_contra hnone
      have hidle := not_exists.1 hnone
      rcases hacts with ⟨f, hf, -⟩ | ⟨key, -, hbefore, hafter⟩
      · rw [sentIn_of_not_delivers htask hidle] at hf
        cases hf
      · exact absurd (positions_of_not_delivers htask hidle ▸ hafter) hbefore
  · rintro ⟨⟨a, alert, number, position, ha, hpoint, hopposes⟩, frame, hdelivers⟩
    obtain ⟨a', alert', ha', -, rfl⟩ := id hdelivers
    obtain ⟨rfl, -⟩ := Task.inFlight.inj (Option.some.inj (ha.symm.trans ha'))
    obtain ⟨keys, hpurpose⟩ := Task.point?_inFlight_iff.1 hpoint
    have hencodes := hfits place a alert ha a.delivery.frame List.mem_cons_self
    rw [hpurpose] at hencodes
    refine ⟨_, number, position, ha, hpoint, hopposes,
      .inl ⟨⟨a.delivery.frame, t.yard.now⟩, ?_, hencodes⟩⟩
    rw [sentIn_of_delivers hdelivers]
    exact List.mem_singleton_self _

/-! ### From the reservation on -/

/-- While a route stands, a point command that is in flight against it has been so since before. -/
theorem opposed_of_run {moves : List Move} (hstands : t.Stands r moves)
    (h : (t.run moves).Opposed r place) : t.Opposed r place := by
  obtain ⟨a, alert, number, position, ha, hpoint, hopposes⟩ := h
  obtain ⟨a', alert', ha', hpoint'⟩ := inFlight_of_run (fun u ↦ r ∈ u.yard.active.routes)
    (fun a ↦ ∃ keys, a.purpose = .movePoint number keys position)
    (fun hfollows hpoint' ↦ by
      obtain ⟨keys, hpurpose⟩ := hpoint'
      cases hfollows with
      | goesOn hsame => exact ⟨keys, hsame.symm.trans hpurpose⟩
      | nextSignal hbefore hafter =>
        rw [hpurpose] at hafter
        cases hafter)
    (fun hr _ _ hlaunches hpoint' ↦ by
      obtain ⟨keys, hpurpose⟩ := hpoint'
      exact not_launches_of_active hr hopposes (hpurpose ▸ hlaunches))
    (fun first hfirst ↦ hstands.mem_routes hfirst) ha (Task.point?_inFlight_iff.1 hpoint)
  exact ⟨a', alert', number, position, ha', Task.point?_inFlight_iff.2 hpoint', hopposes⟩

/-- A point command that has been in flight against a route still is, as long as it is in flight. -/
theorem opposed_run_of_delivers {moves : List Move} {frame : Frame} (h : t.Opposed r place)
    (hdelivers : (t.run moves).Delivers place frame) : (t.run moves).Opposed r place := by
  obtain ⟨a, alert, number, position, ha, hpoint, hopposes⟩ := h
  obtain ⟨a', alert', ha', -, -⟩ := hdelivers
  obtain ⟨keys, hpurpose⟩ := Task.point?_inFlight_iff.1 hpoint
  have hsame := purpose_of_run ha (by rw [hpurpose]; rfl) ha'
  exact ⟨a', alert', number, position, ha',
    Task.point?_inFlight_iff.2 ⟨keys, hsame.trans hpurpose⟩, hopposes⟩

/-- A reservation leaves the point commands in flight as they are. -/
theorem opposed_reserves_iff {other : Nat} {request route resolved : RouteCommand}
    (hreserves : t.Reserves place request route resolved) :
    (t.move (.go place)).Opposed r other ↔ t.Opposed r other := by
  refine exists_congr fun a ↦ exists_congr fun alert ↦ exists_congr fun number ↦
    exists_congr fun position ↦ and_congr_left fun ⟨hpoint, _⟩ ↦ ?_
  obtain ⟨keys, hpurpose⟩ := Task.point?_inFlight_iff.1 hpoint
  exact inFlight_reserves_iff hreserves (by simp [hpurpose])

/-- **Points under a route.** As long as a route stands, from its reservation on, a point is moved
against it in exactly those moves in which a point command delivers a frame that was in flight
against it when the reservation was taken. -/
theorem movesAgainst_iff (layout : Layout) (delay capacity : Nat) (faults : BusFaults)
    {before since : List Move} {place : Nat} {request route resolved : RouteCommand}
    (hreserves : ((start layout delay capacity faults).run before).Reserves place request route
      resolved)
    (hstands : ((start layout delay capacity faults).run (before ++ [.go place])).Stands resolved
      since) (other : Nat) :
    ((start layout delay capacity faults).run (before ++ .go place :: since)).MovesAgainst resolved
        other ↔
      ((start layout delay capacity faults).run before).Opposed resolved other ∧
        ∃ frame, ((start layout delay capacity faults).run (before ++ .go place :: since)).Delivers
          other frame := by
  have hfits := fits_run layout delay capacity faults (before ++ .go place :: since)
  rw [run_append_cons] at hfits ⊢
  rw [movesAgainst_iff_of_active (hstands.mem_routes (List.prefix_refl since)) hfits,
    ← opposed_reserves_iff hreserves, ← run_concat]
  exact ⟨fun ⟨ho, hd⟩ ↦ ⟨opposed_of_run hstands ho, hd⟩,
    fun ⟨ho, frame, hd⟩ ↦ ⟨opposed_run_of_delivers ho hd, frame, hd⟩⟩

/-- A point command that needs two frames has begun, and a request for a route that wants the point
in the other position has joined. -/
def overlap : List Move :=
  [.join 0 (.command (.point (.plain 27 .diverging)) .never), .go 0, .go 0, .wait 50,
    .join 0 (.command (.route overOnePoint) .never)]

/-- The point command sends its first frame, then the route is set, then the point command has come
to its second frame. -/
def overlapping : List Move :=
  [.go 1, .wait 100, .go 0, .go 0, .go 0, .wait 150, .go 1, .go 1, .wait 200, .go 0]

/-- The second frame of the point command comes after the route has been set. -/
theorem movesAgainst_iff_of_second_frame :
    let t := start (.junction [.linked "27" [12] [13, 14] 0]) 100 64 .none
    (t.run (overlap ++ .go 1 :: overlapping)).MovesAgainst overOnePointReserved 0 ↔
      (t.run overlap).Opposed overOnePointReserved 0 ∧
        ∃ frame, (t.run (overlap ++ .go 1 :: overlapping)).Delivers 0 frame := by
  intro t
  have hreserves : (t.run overlap).Reserves 1 overOnePoint overOnePoint overOnePointReserved :=
    ⟨.pending (.command (.route overOnePoint) .never), by decide +kernel, rfl,
      ⟨.never, rfl⟩, rfl, ⟨[.ofMagnitude .set 12 .closed], by decide +kernel, by decide +kernel,
        by decide +kernel, by decide +kernel⟩, by decide +kernel⟩
  exact movesAgainst_iff _ 100 64 .none hreserves (by decide +kernel) 0

/-- The route has been set and is active, and the next step of the point command sends its second
frame and records the diverging position. -/
theorem movesAgainst_of_overlap :
    let t := (start (.junction [.linked "27" [12] [13, 14] 0]) 100 64 .none).run
      (overlap ++ .go 1 :: overlapping)
    t.result? 1 = some (.command (.ok (.route .set)), 150) ∧
      overOnePointReserved ∈ t.yard.active.routes ∧ t.MovesAgainst overOnePointReserved 0 ∧
      (t.move (.go 0)).yard.positions.get? ⟨27, none⟩ = some .diverging := by
  intro t
  refine ⟨by decide +kernel, by decide +kernel, ?_, by decide +kernel⟩
  exact ⟨.inFlight ⟨.movePoint 27 [⟨27, none⟩] .diverging,
      ⟨.never, 1, .ofMagnitude .set 14 .thrown, [], .write 200⟩⟩ false, 27, .diverging,
    by decide +kernel, rfl, ⟨_, List.mem_singleton_self _, rfl, by decide⟩,
    .inl ⟨⟨.ofMagnitude .set 14 .thrown, 200⟩, by decide +kernel, 14, rfl, by decide +kernel,
      by decide +kernel⟩⟩

end Traffic

end SignalBox
