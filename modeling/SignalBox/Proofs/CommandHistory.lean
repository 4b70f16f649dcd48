import SignalBox.Proofs.Admission

/-!
# The history of commands

Point commands and routes that have been carried out make up a history, in which the points of a
route stand in their order. The main statement (`Deeds.alreadyInPosition_iff`) is that a point
command finds its point in position if and only if, besides what its checks ask for, the latest
request for each sub-point it covers has asked for the same position. The jobs before it may be of
any kind: they may have failed or been cancelled, and the layout may have been replaced.

* **What is recorded** is the position of the latest request (`Deeds.get?_eq`). A request covers the
  sub-points that its own layout has, and keeps them when the layout is replaced.
* **One job** records its requests if it is carried out, and nothing otherwise
  (`Yard.records_of_completes`).
-/

namespace SignalBox

/-- A job that has been done: the layout that it was done with, and what came of it. -/
structure Deed where
  layout : Layout
  job : Job
  result : JobResult

/-- Jobs of any kind, one after another, each with the yard to itself. -/
inductive Deeds (y : Yard) : List Deed → Yard → Prop
  | nil : Deeds y [] y
  | concat {deeds : List Deed} {z w : Yard} {job : Job} {result : JobResult}
      (h : Deeds y deeds z) (hdone : Task.Completes z (.pending job) result w) :
      Deeds y (deeds ++ [⟨z.layout, job, result⟩]) w

namespace Deed

/-- What a job has asked of points, if it has been carried out: a point to be moved, or the points
of a route to be set in their order. -/
def requests : Deed → List (Layout × PointCommand)
  | ⟨layout, .command (.point c) _, .command (.ok (.point .set))⟩ => [(layout, c)]
  | ⟨layout, .command (.route request) _, .command (.ok (.route .set))⟩ =>
    (layout.routeOf request).points.map fun p ↦ (layout, p)
  | _ => []

/-- The latest request for a sub-point. -/
def latestFor? (key : PointKey) (deeds : List Deed) : Option PointCommand :=
  (latest? (fun r : Layout × PointCommand ↦ r.2.covers r.1 key) (deeds.flatMap requests)).map (·.2)

variable {key : PointKey}

theorem latestFor?_concat (deeds : List Deed) (d : Deed) :
    latestFor? key (deeds ++ [d]) = (latestFor? key [d]).or (latestFor? key deeds) := by
  rw [latestFor?, List.flatMap_append, latest?_append, Option.map_or]
  rfl

end Deed

/-! ### Jobs that are no calls -/

namespace Task

/-- Whether a task is not one of a call that is under way. -/
def isQuiet : Task → Bool
  | asleep _ => true
  | writing _ _ => true
  | ended _ _ => true
  | _ => false

theorem isQuiet_finishWrite (y : Yard) (bytes : List UInt8) :
    (finishWrite y bytes).2.isQuiet = true ∧ (finishWrite y bytes).1.positions = y.positions := by
  obtain ⟨line, setOff, h⟩ := y.sendBytes_eq bytes
  refine ⟨rfl, ?_⟩
  show (y.sendBytes bytes).1.positions = y.positions
  rw [h]

theorem isQuiet_begin (y : Yard) {job : Job} (hjob : job.isCall = false) :
    (begin y job).2.isQuiet = true ∧ (begin y job).1.positions = y.positions := by
  cases job with
  | command | signal => cases hjob
  | write bytes =>
    rw [begin]
    split
    · exact isQuiet_finishWrite y bytes
    · exact ⟨rfl, rfl⟩
  | _ => exact ⟨rfl, rfl⟩

/-- A job that is no call leaves the record, from its first step to its end. -/
theorem positions_of_isQuiet {y w : Yard} {task : Task} {result : JobResult}
    (htask : task.isQuiet = true) (h : Completes y task result w) : w.positions = y.positions := by
  induction h with
  | ended => rfl
  | wait hw _ ih => exact (ih htask).trans hw.keeps.positions_eq
  | @step y w task result hr h ih =>
    have hstep : (task.step y).2.isQuiet = true ∧ (task.step y).1.positions = y.positions := by
      cases task with
      | writing due bytes => exact isQuiet_finishWrite y.spend bytes
      | asleep | ended => exact ⟨rfl, rfl⟩
      | _ => cases htask
    exact (ih hstep.1).trans hstep.2

end Task

/-! ### One job -/

namespace Yard

variable {y z w : Yard} {token : Token} {job : Job} {result : JobResult}

/-- A job has recorded its requests over what had been recorded before. -/
def Records (z : Yard) (d : Deed) (w : Yard) : Prop :=
  ∀ key, w.positions.get? key =
    ((Deed.latestFor? key [d]).map (·.position)).or (z.positions.get? key)

/-- It is enough for a job that has asked for nothing to leave the record. -/
theorem records_of_requests_eq_nil {d : Deed} (hnil : d.requests = [])
    (hpositions : w.positions = z.positions) : z.Records d w := by
  intro key
  have hnone : Deed.latestFor? key [d] = none := by
    rw [Deed.latestFor?, List.flatMap_cons, hnil]
    rfl
  rw [hnone, hpositions]
  rfl

theorem records_of_pointEnds {c : PointCommand} {sent : List AcceptedFrame}
    (h : z.PointEnds c sent result w) :
    z.Records ⟨z.layout, .command (.point c) token, result⟩ w := by
  cases h with
  | inPosition _ hw => exact records_of_requests_eq_nil rfl hw.positions_eq
  | @rejected outcome _ _ hset _ hw =>
    refine records_of_requests_eq_nil ?_ hw.positions_eq
    cases outcome with
    | set => exact absurd rfl hset
    | _ => rfl
  | unencodable _ hw | failed _ _ hw => exact records_of_requests_eq_nil rfl hw.positions_eq
  | moved hmoves _ hw =>
    intro key
    rw [hw.positions_eq, Positions.get?_recordAll]
    by_cases hkey : key ∈ Positions.keysOf z.layout c
    · have hcovers := PointCommand.covers_iff.2 ⟨hmoves.defined, hkey⟩
      simp [Deed.latestFor?, Deed.requests, latest?, hcovers, hkey]
    · have hcovers : c.covers z.layout key = false := by simp [PointCommand.covers, hkey]
      simp [Deed.latestFor?, Deed.requests, latest?, hcovers, hkey]

theorem records_of_requestEnds {P : Yard → Prop} {request : RouteCommand}
    {sent : List AcceptedFrame} (hset : request.state.isSet = true)
    (h : RequestEnds P z request token sent result w) :
    z.Records ⟨z.layout, .command (.route request) token, result⟩ w := by
  cases h with
  | rejected _ hw | unencodable _ hw | disturbed _ _ _ _ _ hw =>
    exact records_of_requests_eq_nil rfl hw.positions_eq
  | set hadmits _ hw =>
    obtain ⟨-, rfl, rfl, -⟩ := (admits_iff hset).1 hadmits
    intro key
    have hrequests : Deed.latestFor? key [⟨z.layout, .command (.route request) token,
        .command (.ok (.route .set))⟩] =
        latest? (PointCommand.covers z.layout key) (z.layout.routeOf request).points := by
      rw [Deed.latestFor?, List.flatMap_singleton, Deed.requests, latest?_map, Option.map_map]
      exact Option.map_id'
    rw [(SetsTo.of_after hw).get?_eq, Layout.recorded?_resolvedRoute, hrequests]
    rfl

/-- A job that is not for points or routes leaves the record. -/
theorem Effect.positions_eq {sent : List AcceptedFrame} (h : y.Effect job sent result w)
    (hpoint : ∀ c token, job ≠ .command (.point c) token)
    (hroute : ∀ request token, job ≠ .command (.route request) token) :
    w.positions = y.positions := by
  cases h with
  | moved => exact absurd rfl (hpoint _ _)
  | set => exact absurd rfl (hroute _ _)
  | idle _ _ hw | inPosition _ _ hw | released _ _ _ hw | stuck _ _ hw | shown _ _ _ hw
  | failed _ _ hw => exact hw.positions_eq

/-- What is not a command for points or routes leaves the record. -/
theorem positions_of_completes (hpoint : ∀ c token, job ≠ .command (.point c) token)
    (hroute : ∀ request token, job ≠ .command (.route request) token)
    (h : Task.Completes y (.pending job) result w) : w.positions = y.positions := by
  by_cases hcall : job.isCall = true
  · obtain ⟨sent, heffect⟩ := effect_of_completes hcall h
    exact heffect.positions_eq hpoint hroute
  · obtain ⟨z, hz, h⟩ := Task.begin_of_completes_pending h
    obtain ⟨hquiet, hpositions⟩ := Task.isQuiet_begin z (Bool.eq_false_iff.2 hcall)
    rw [Task.positions_of_isQuiet hquiet h, hpositions, hz.keeps.positions_eq]

/-- A command for a route that is neither to be set nor to be released is turned away. -/
theorem records_of_undefined {request : RouteCommand} (hset : request.state.isSet = false)
    (hteardown : request.state.isTeardown = false)
    (h : Task.Completes z (.pending (.command (.route request) token)) result w) :
    z.Records ⟨z.layout, .command (.route request) token, result⟩ w := by
  obtain ⟨x, hx, h⟩ := Task.begin_of_completes_pending h
  rw [Task.begin, startCommand, startRoute, if_neg (by simp [hset]),
    if_neg (by simp [hteardown])] at h
  obtain ⟨rfl, hk⟩ := Task.keeps_of_completes_done rfl h
  exact records_of_requests_eq_nil rfl
    (((keeps_publish _ _).trans hk).positions_eq.trans hx.keeps.positions_eq)

theorem records_of_releaseEnds {P : Yard → Prop} {request : RouteCommand}
    {sent : List AcceptedFrame} (h : ReleaseEnds P z (.route request) token sent result w) :
    z.Records ⟨z.layout, .command (.route request) token, result⟩ w := by
  cases h with
  | notActive _ _ hw | unencodable _ _ hw | disturbed _ _ _ _ _ _ hw =>
    exact records_of_requests_eq_nil rfl hw.positions_eq
  | released _ _ houtcome _ hw =>
    rcases houtcome with ⟨rfl, -⟩ | ⟨rfl, -⟩ <;>
      exact records_of_requests_eq_nil rfl hw.positions_eq

/-- **One job** records its requests if it is carried out, and nothing otherwise. -/
theorem records_of_completes (h : Task.Completes z (.pending job) result w) :
    z.Records ⟨z.layout, job, result⟩ w := by
  have hother (hpoint : ∀ c token, job ≠ .command (.point c) token)
      (hroute : ∀ request token, job ≠ .command (.route request) token)
      (hnil : Deed.requests ⟨z.layout, job, result⟩ = []) :
      z.Records ⟨z.layout, job, result⟩ w :=
    records_of_requests_eq_nil hnil (positions_of_completes hpoint hroute h)
  cases job with
  | command command token =>
    cases command with
    | point c =>
      obtain ⟨sent, hends⟩ := pointEnds_of_completes h
      exact records_of_pointEnds hends
    | route request =>
      cases hset : request.state.isSet with
      | true =>
        obtain ⟨sent, hends⟩ := requestEnds_of_completesIn hset (Task.completesIn_true_iff.2 h)
        exact records_of_requestEnds hset hends
      | false =>
        cases hteardown : request.state.isTeardown with
        | true =>
          have hrelease : (Job.command (.route request) token).isRelease = true := hteardown
          obtain ⟨sent, hends⟩ :=
            releaseEnds_of_completesIn hrelease (Task.completesIn_true_iff.2 h)
          exact records_of_releaseEnds hends
        | false => exact records_of_undefined hset hteardown h
    | turntable _ | control _ => exact hother nofun nofun rfl
  | _ => exact hother nofun nofun rfl

end Yard

/-- What it takes for a point to be found in position. -/
theorem Yard.inPosition_iff_recorded {y : Yard} {c : PointCommand} :
    y.InPosition c ↔ c.position ≠ .undefined ∧ y.layout.Knows c ∧
      (∀ r ∈ y.active.routes, ∀ p ∈ r.points, p.number ≠ c.number) ∧
      ∀ key ∈ Positions.keysOf y.layout c, y.positions.get? key = some c.position := by
  have hfree : y.active.holds c.number = false ↔
      ∀ r ∈ y.active.routes, ∀ p ∈ r.points, p.number ≠ c.number := by
    rw [← Bool.not_eq_true, Reservations.holds_iff]
    simp only [not_exists, not_and, ne_eq]
  have hthere : y.positions.allAt c.position (Positions.keysOf y.layout c) = true ↔
      ∀ key ∈ Positions.keysOf y.layout c, y.positions.get? key = some c.position := by
    simp [Positions.allAt]
  rw [← PointCommand.isUndefined_eq_false_iff, ← hfree, ← hthere,
    Layout.knows_iff_exists_resolvePoint?]
  constructor
  · intro h
    exact ⟨h.defined, h.known, h.free, h.there⟩
  · rintro ⟨hdefined, hknown, hfree, hthere⟩
    exact ⟨hdefined, hknown, hfree, hthere⟩

/-! ### Sequential runs -/

namespace Deeds

variable {layout : Layout} {delay capacity : Nat} {faults : BusFaults} {deeds : List Deed}
  {y : Yard}

/-- **What is recorded** for a sub-point is the position of the latest request for it. -/
theorem get?_eq (h : Deeds (.start layout delay capacity faults) deeds y) (key : PointKey) :
    y.positions.get? key = (Deed.latestFor? key deeds).map (·.position) := by
  induction h with
  | nil => rfl
  | concat _ hdone ih =>
    rw [Deed.latestFor?_concat, Option.map_or, ← ih]
    exact Yard.records_of_completes hdone key

/-- **Points in position.** After jobs of any kind, whatever has become of them, a point command
finds its point in position if and only if it asks for a position, the layout has its point, no
active route has the point, and the latest request for each sub-point it covers has asked for the
same position. -/
theorem alreadyInPosition_iff (h : Deeds (.start layout delay capacity faults) deeds y)
    (c : PointCommand) (token : Token) :
    (∃ result w, Task.Completes y (.pending (.command (.point c) token)) result w) ∧
      ∀ result w, Task.Completes y (.pending (.command (.point c) token)) result w →
        (result = .command (.ok (.point .alreadyInPosition)) ↔
          c.position ≠ .undefined ∧ y.layout.Knows c ∧
            (∀ r ∈ y.active.routes, ∀ p ∈ r.points, p.number ≠ c.number) ∧
            ∀ key ∈ Positions.keysOf y.layout c, ∃ latest,
              Deed.latestFor? key deeds = some latest ∧ latest.position = c.position) := by
  constructor
  · obtain ⟨w, result, time, hrun⟩ :=
      Schedule.run_singleton y (.pending (.command (.point c) token))
    exact ⟨result, w, Traffic.completes_of_schedule hrun⟩
  · intro result w hdone
    obtain ⟨sent, hends⟩ := Yard.pointEnds_of_completes hdone
    rw [hends.eq_alreadyInPosition_iff, Yard.inPosition_iff_recorded]
    simp only [h.get?_eq, Option.map_eq_some_iff]

theorem ofMoves {start z : Yard} (h : Deeds start deeds z) (job : Job) (moves : List Move)
    (result : JobResult) {time : Nat}
    (hrun : (Traffic.run ⟨z, [.pending job]⟩ moves).tasks = [.ended result time]) :
    Deeds start (deeds ++ [⟨z.layout, job, result⟩])
      (Traffic.run ⟨z, [.pending job]⟩ moves).yard :=
  .concat h (Traffic.completes_of_run hrun)

/-- A route that asks for a point and then for one of its sub-points in the other position has been
set and released, a command to the same sub-point has been cancelled, and the layout has been
replaced. The other sub-point is found in position, and the whole point is not. -/
theorem alreadyInPosition_iff_of_replaced_layout :
    let sub (letter : Char) := (PointCommand.plain 27 .diverging).withSubPoint letter
    ∃ deeds y, Deeds (.start Turns.twoSubPoints 0 64 .none) deeds y ∧ deeds.length = 5 ∧
      (∀ result w, Task.Completes y (.pending (.command (.point (sub 'b')) .never)) result w →
        result = .command (.ok (.point .alreadyInPosition))) ∧
      ∀ result w, Task.Completes y (.pending (.command (.point (.plain 27 .diverging)) .never))
        result w → result ≠ .command (.ok (.point .alreadyInPosition)) := by
  intro sub
  have hset : Deeds (.start Turns.twoSubPoints 0 64 .none) _ _ :=
    Deeds.nil.ofMoves (Turns.routeJob 64 72 .setMain
      [.plain 27 .diverging, (PointCommand.plain 27 .straight).withSubPoint 'a'])
      (List.replicate 10 (.go 0)) (.command (.ok (.route .set)))
      (show _ = [Task.ended _ 0] by decide +kernel)
  have hcleared := hset.ofMoves (Turns.routeJob 64 72 .clear []) [.go 0]
    (.command (.ok (.route .cleared))) (show _ = [Task.ended _ 0] by decide +kernel)
  have hsetOff := hcleared.ofMoves (.cancel 0) [.go 0] .cancelled
    (show _ = [Task.ended _ 0] by decide +kernel)
  have hcancelled := hsetOff.ofMoves (.command (.point (sub 'a')) (.on 0)) [.go 0, .go 0]
    (.command (.error (.cancelled 0))) (show _ = [Task.ended _ 0] by decide +kernel)
  have hreplaced := hcancelled.ofMoves
    (.replaceLayout (.junction [.linked "27b" [14] [15] 0, .linked "27a" [12] [13] 0])) [.go 0]
    .nothing (show _ = [Task.ended _ 0] by decide +kernel)
  refine ⟨_, _, hreplaced, rfl, fun result w h ↦ ?_, fun result w h hresult ↦ ?_⟩
  · refine ((hreplaced.alreadyInPosition_iff _ .never).2 result w h).2
      ⟨by decide, by decide +kernel, by decide +kernel, ?_⟩
    simp only [← Option.map_eq_some_iff]
    decide +kernel
  · obtain ⟨-, -, -, hlatest⟩ := ((hreplaced.alreadyInPosition_iff _ .never).2 result w h).1 hresult
    simp only [← Option.map_eq_some_iff] at hlatest
    exact absurd hlatest (by decide +kernel)

end Deeds

end SignalBox
