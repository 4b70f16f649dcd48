import SignalBox.Proofs.Course

/-!
# What a command announces

Observers learn of a command by the notices that its own steps publish. The channel only gets
longer, so what a task has told is what the channel has gained by the moves of this task
(`Traffic.toldBy`), whatever others tell in between. If no other call takes a step meanwhile, it is
all that is published (`Traffic.published_of_uninterrupted`).

* **Notices mirror results** (`Traffic.mirrors_of_result`): a command that fails tells a rejection
  with the reason of its failure, a release tells of each route that it has removed, and any other
  command tells its outcome, once (`Command.Mirrors`). Until its end a command tells nothing, and
  what it tells then is fixed by the purpose of its delivery (`Purpose.told`, `Purpose.refusal`).
* **The stop of all signals** tells of each signal that has been handled. If it fails, observers are
  not told (`Traffic.tellsReason_iff`).
-/

namespace SignalBox

/-! ### Notices -/

/-- The reason that a notice gives for a rejection; none if it tells something else. -/
def Notice.reason? : Notice → Option RejectReason
  | point _ (.rejected reason) => some reason
  | route _ _ (.rejected reason) => some reason
  | turntable _ (.rejected reason) => some reason
  | _ => none

namespace Command

/-- The notice that a command with an outcome of its kind tells; none if it has no such outcome. -/
def notice? : Command → Outcome → Option Notice
  | point c, .point outcome => some (.point c.number outcome)
  | route r, .route outcome => some (.route r.start r.destination outcome)
  | turntable c, .turntable outcome => some (.turntable c.track outcome)
  | control .clearAllRoutes, .route outcome => some (.route 0 0 outcome)
  | control .reload, .reloadRequested => some .reloadRequested
  | _, _ => none

/-- The notice that rejects a command, which names what was asked for; none for the commands that
have no such notice. -/
def rejection? (reason : RejectReason) : Command → Option Notice
  | point c => some (.point c.number (.rejected reason))
  | route r => some (.route r.start r.destination (.rejected reason))
  | turntable c => some (.turntable c.track (.rejected reason))
  | control .clearAllRoutes => some (.route 0 0 (.rejected reason))
  | control _ => none

/-- The notices of a command mirror its result, for the routes that were active when it began. -/
inductive Mirrors (active : Reservations) : Command → Except Failure Outcome → List Notice → Prop
  /-- It fails, which is told as a rejection. -/
  | failed {c : Command} {failure : Failure} {notice : Notice}
      (hnotice : c.rejection? failure.reason = some notice) :
      Mirrors active c (.error failure) [notice]
  /-- Routes are released, which is told of each of them. -/
  | released {request : RouteCommand} (hteardown : request.state.isTeardown = true) :
      Mirrors active (.route request) (.ok (.route .cleared))
        ((active.matching request).map fun r ↦ .route r.start r.destination .cleared)
  /-- It has any other outcome, which is told once. -/
  | ended {c : Command} {outcome : Outcome} {notice : Notice} (hother : outcome ≠ .route .cleared)
      (hnotice : c.notice? outcome = some notice) : Mirrors active c (.ok outcome) [notice]

/-- A notice that rejects a command gives the reason. -/
theorem reason?_of_rejection? {c : Command} {reason : RejectReason} {notice : Notice}
    (h : c.rejection? reason = some notice) : notice.reason? = some reason := by
  cases c with
  | control c =>
    cases c with
    | clearAllRoutes => exact Option.some.inj h ▸ rfl
    | _ => cases h
  | _ => exact Option.some.inj h ▸ rfl

end Command

namespace Purpose

/-- What is told of a command all of whose frames have been sent. -/
def told : Purpose → List Notice
  | movePoint number _ _ => [.point number .set]
  | setRoute _ request _ => [.route request.start request.destination .set]
  | release _ removed => removed.map fun r ↦ .route r.start r.destination .cleared
  | clearAll => [.route 0 0 .allCleared]
  | showSignal signal => [.signal signal.signal signal.aspect true]
  | turn track => [.turntable track .turned]
  | stopSignals signal _ _ => [.signal signal.signal signal.aspect true]

/-- What is told of a command whose delivery has failed. -/
def refusal (reason : RejectReason) : Purpose → List Notice
  | movePoint number _ _ => [.point number (.rejected reason)]
  | setRoute _ request _ => [.route request.start request.destination (.rejected reason)]
  | release request _ => [.route request.start request.destination (.rejected reason)]
  | clearAll => [.route 0 0 (.rejected reason)]
  | turn track => [.turntable track (.rejected reason)]
  | showSignal _ => []
  | stopSignals _ _ _ => []

/-- The stop of all signals is not rejected. -/
theorem refusal_of_goesOn {purpose : Purpose} (h : purpose.outcome? = none)
    (reason : RejectReason) : purpose.refusal reason = [] := by
  cases purpose with
  | stopSignals signal rest count => rfl
  | _ => cases h

end Purpose

/-! ### What the operations of a yard tell -/

namespace Yard

/-- Some notices have been published, after those before. -/
def Tells (y : Yard) (told : List Notice) (z : Yard) : Prop :=
  z.channel.published = y.channel.published ++ told

variable {x y z : Yard} {token : Token} {purpose : Purpose}

theorem tells_of_channel_eq (h : z.channel = y.channel) : y.Tells [] z := by
  rw [Tells, h, List.append_nil]

theorem Tells.trans {first second : List Notice} (h₁ : x.Tells first y) (h₂ : y.Tells second z) :
    x.Tells (first ++ second) z := by
  rw [Tells, h₂, h₁, List.append_assoc]

theorem Tells.of_channel_eq {told : List Notice} (h : y.Tells told z)
    (hy : y.channel = x.channel) : x.Tells told z := by
  rwa [Tells, hy] at h

theorem tells_publish (y : Yard) (notice : Notice) : y.Tells [notice] (y.publish notice) := rfl

theorem tells_announceCleared (y : Yard) (removed : List RouteCommand) :
    y.Tells (removed.map fun r ↦ .route r.start r.destination .cleared)
      (y.announceCleared removed) := by
  rw [announceCleared]
  induction removed generalizing y with
  | nil => exact tells_of_channel_eq rfl
  | cons r removed ih =>
    exact (y.tells_publish (.route r.start r.destination .cleared)).trans (ih _)

/-- Signals that are not on the bus are announced, which tells no rejection. -/
theorem tells_showSignals (y : Yard) (token : Token) (count : Nat)
    (signals : List SignalCommand) :
    ∃ told, y.Tells told (y.showSignals token count signals).1 ∧ ∀ n ∈ told, n.reason? = none := by
  fun_induction showSignals y token count signals with
  | case1 y | case2 y | case4 y => exact ⟨[], tells_of_channel_eq rfl, by simp⟩
  | case3 y signal rest hframe ih =>
    obtain ⟨told, htold, hreason⟩ := ih
    exact ⟨_, (y.tells_publish _).trans htold, List.forall_mem_cons.2 ⟨rfl, hreason⟩⟩

/-- **The end of a delivery** is told as its purpose says. -/
theorem tells_finish {outcome : Outcome} (h : purpose.outcome? = some outcome) (y : Yard)
    (token : Token) : y.Tells purpose.told (y.finish token purpose).1 := by
  cases purpose with
  | release request removed => exact y.tells_announceCleared removed
  | stopSignals signal rest count => cases h
  | _ => rfl

/-- What goes on after its delivery tells no rejection. -/
theorem tells_finish_of_goesOn (h : purpose.outcome? = none) (y : Yard) (token : Token) :
    ∃ told, y.Tells told (y.finish token purpose).1 ∧ ∀ n ∈ told, n.reason? = none := by
  cases purpose with
  | stopSignals signal rest count =>
    obtain ⟨told, htold, hreason⟩ := (y.announce signal true).tells_showSignals token count rest
    exact ⟨_, (y.tells_publish _).trans htold, List.forall_mem_cons.2 ⟨rfl, hreason⟩⟩
  | _ => cases h

/-- **The failure of a delivery** is told as its purpose says. -/
theorem tells_abandon (y : Yard) (failure : Failure) (purpose : Purpose) :
    y.Tells (purpose.refusal failure.reason) (y.abandon failure purpose).1 := by
  cases purpose with
  | showSignal signal | stopSignals signal rest count => exact tells_of_channel_eq rfl
  | _ => rfl

end Yard

/-! ### One step of a command in flight -/

/-- A task handles signals one after another, or has ended. -/
def Task.HandlesSignals (task : Task) : Prop :=
  (∃ a alert, task = .inFlight a alert ∧ a.purpose.outcome? = none) ∨
    ∃ result time, task = .ended result time

/-- What a step of a command in flight tells, for the task that it becomes. -/
inductive Activity.Tells (a : Activity) : List Notice → Task → Prop
  /-- The delivery goes on. -/
  | goesOn {a' : Activity} {alert : Bool} (hpurpose : a'.purpose = a.purpose) :
      Tells a [] (.inFlight a' alert)
  /-- The delivery fails. -/
  | fails (failure : Failure) (time : Nat) :
      Tells a (a.purpose.refusal failure.reason) (.ended (.command (.error failure)) time)
  /-- All frames have been sent. -/
  | completes {outcome : Outcome} (ho : a.purpose.outcome? = some outcome) (time : Nat) :
      Tells a a.purpose.told (.ended (.command (.ok outcome)) time)
  /-- The stop of all signals goes on with the next one. -/
  | nextSignal {told : List Notice} {task : Task} (ho : a.purpose.outcome? = none)
      (hreason : ∀ n ∈ told, n.reason? = none) (htask : task.HandlesSignals) : Tells a told task

namespace Task

variable {y : Yard} {a : Activity}

theorem tells_ofProgress {told : List Notice} {p : Yard × Progress} (h : y.Tells told p.1) :
    y.Tells told (ofProgress p).1 := by
  rwa [ofProgress_fst]

theorem handlesSignals_ofProgress {p : Yard × Progress}
    (h : ∀ a, p.2 = .underWay a → a.purpose.outcome? = none) :
    (ofProgress p).2.HandlesSignals := by
  rcases ofProgress_cases p with ⟨a, ha⟩ | ⟨result, time, hended⟩
  · exact .inl ⟨a, false, ha, h a (underWay_of_ofProgress ha)⟩
  · exact .inr ⟨result, time, hended⟩

/-- What goes on after its delivery goes on with signals. -/
theorem handlesSignals_of_finish (y : Yard) (token : Token) (purpose : Purpose) :
    (ofProgress (y.finish token purpose)).2.HandlesSignals := by
  refine handlesSignals_ofProgress fun a ha ↦ ?_
  obtain ⟨signal, rest, count, signal', rest', -, hafter, -⟩ := Yard.stopSignals_of_finish ha
  rw [hafter]
  rfl

theorem tells_ofProgress_step (y : Yard) (a : Activity) :
    ∃ told, y.Tells told (ofProgress (a.step y)).1 ∧ a.Tells told (ofProgress (a.step y)).2 := by
  -- a step of the delivery touches the line and the cancellations, so the channel is as before
  obtain ⟨line, setOff, hd⟩ := a.delivery.step_eq y
  cases hs : a.delivery.step y with
  | mk z status =>
    obtain rfl : z = { y with line := line, setOff := setOff } := by rw [← hd, hs]
    have hz : Yard.channel { y with line := line, setOff := setOff } = y.channel := rfl
    generalize Yard.mk .. = z at hs hz
    cases status with
    | underWay delivery =>
      have hstep : a.step y = (z, .underWay { a with delivery := delivery }) := by
        rw [Activity.step, hs]
      rw [hstep]
      exact ⟨[], Yard.tells_of_channel_eq hz, .goesOn rfl⟩
    | failed failure =>
      have hstep : a.step y = z.abandon failure a.purpose := by rw [Activity.step, hs]
      rw [hstep, ofProgress_snd_of_done (z.abandon_snd failure a.purpose)]
      exact ⟨_, tells_ofProgress ((z.tells_abandon failure a.purpose).of_channel_eq hz),
        .fails failure _⟩
    | complete =>
      have hstep : a.step y = z.finish a.delivery.token a.purpose := by rw [Activity.step, hs]
      rw [hstep]
      cases ho : a.purpose.outcome? with
      | some outcome =>
        rw [ofProgress_snd_of_done (Yard.finish_snd ho)]
        exact ⟨_, tells_ofProgress ((Yard.tells_finish ho z _).of_channel_eq hz), .completes ho _⟩
      | none =>
        obtain ⟨told, htold, hreason⟩ := Yard.tells_finish_of_goesOn ho z a.delivery.token
        exact ⟨told, tells_ofProgress (htold.of_channel_eq hz),
          .nextSignal ho hreason (handlesSignals_of_finish z _ _)⟩

/-- **One step of a command in flight** tells nothing until the delivery ends. -/
theorem tells_step_inFlight (y : Yard) (a : Activity) (alert : Bool) :
    ∃ told, y.Tells told ((inFlight a alert).step y).1 ∧
      a.Tells told ((inFlight a alert).step y).2 := by
  cases alert with
  | true => exact tells_ofProgress_step y.spend a
  | false =>
    rw [step, look]
    split
    · exact tells_ofProgress_step y a
    · have hlisten := channel_listen (y := y) a.delivery.token
      dsimp only
      split
      · obtain ⟨told, htold, h⟩ := tells_ofProgress_step (y.listen a.delivery.token) a
        exact ⟨told, htold.of_channel_eq hlisten, h⟩
      · exact ⟨[], Yard.tells_of_channel_eq hlisten, .goesOn rfl⟩

end Task

/-! ### What a command has told -/

namespace Command

/-- What a delivery for a command is for, when the given routes were active at its beginning. -/
inductive Pursues (active : Reservations) : Command → Purpose → Prop
  | movePoint {c : PointCommand} {keys : List PointKey} {position : Position} :
      Pursues active (.point c) (.movePoint c.number keys position)
  | setRoute {r request resolved : RouteCommand} {layout : Layout}
      (hstart : request.start = r.start) (hdestination : request.destination = r.destination) :
      Pursues active (.route r) (.setRoute layout request resolved)
  | release {r : RouteCommand} (hteardown : r.state.isTeardown = true) :
      Pursues active (.route r) (.release r (active.matching r))
  | turn {c : TurntableCommand} : Pursues active (.turntable c) (.turn c.track)
  | clearAll : Pursues active (.control .clearAllRoutes) .clearAll

/-- What a command has told when its task is as given: nothing while it is in flight, and all that
mirrors its result in the end. The stop of all signals has told no rejection. -/
inductive Reports (active : Reservations) (c : Command) : List Notice → Task → Prop
  | inFlight {a : Activity} {alert : Bool} (hpursues : c.Pursues active a.purpose) :
      Reports active c [] (.inFlight a alert)
  | ended {told : List Notice} {result : Except Failure Outcome} {time : Nat}
      (hmirrors : c.Mirrors active result told) :
      Reports active c told (.ended (.command result) time)
  | stopping {told : List Notice} {task : Task} (hc : c = .control .stopAllSignals)
      (hreason : ∀ n ∈ told, n.reason? = none) (htask : task.HandlesSignals) :
      Reports active c told task

variable {active : Reservations} {c : Command} {purpose : Purpose}

/-- The failure of a delivery is told as a rejection of the command. -/
theorem Pursues.mirrors_refusal (h : c.Pursues active purpose) (failure : Failure) :
    c.Mirrors active (.error failure) (purpose.refusal failure.reason) := by
  cases h with
  | setRoute hstart hdestination =>
    rw [Purpose.refusal, hstart, hdestination]
    exact .failed rfl
  | _ => exact .failed rfl

/-- The end of a delivery is told as the outcome of the command. -/
theorem Pursues.mirrors_told {outcome : Outcome} (h : c.Pursues active purpose)
    (ho : purpose.outcome? = some outcome) : c.Mirrors active (.ok outcome) purpose.told := by
  cases h with
  | setRoute hstart hdestination =>
    obtain rfl := Option.some.inj ho
    rw [Purpose.told, hstart, hdestination]
    exact .ended (by simp) rfl
  | release hteardown =>
    obtain rfl := Option.some.inj ho
    exact .released hteardown
  | _ =>
    obtain rfl := Option.some.inj ho
    exact .ended (by simp) rfl

theorem Pursues.outcome_ne_none (h : c.Pursues active purpose) : purpose.outcome? ≠ none := by
  cases h <;> simp [Purpose.outcome?]

theorem Reports.of_tells {a : Activity} {alert : Bool} {told more : List Notice} {task : Task}
    (h : c.Reports active told (.inFlight a alert)) (hmore : a.Tells more task) :
    c.Reports active (told ++ more) task := by
  cases h with
  | inFlight hpursues =>
    cases hmore with
    | goesOn hpurpose => exact .inFlight (hpurpose ▸ hpursues)
    | fails failure time => exact .ended (hpursues.mirrors_refusal failure)
    | completes ho time => exact .ended (hpursues.mirrors_told ho)
    | nextSignal ho => exact absurd ho hpursues.outcome_ne_none
  | stopping hc hreason htask =>
    -- the stop of all signals may go on after a delivery, and there is no notice of its failure
    have ho : a.purpose.outcome? = none := by
      rcases htask with ⟨a', alert', ha, ho⟩ | ⟨result, time, hended⟩
      · exact (Task.inFlight.inj ha).1 ▸ ho
      · cases hended
    cases hmore with
    | goesOn hpurpose =>
      rw [List.append_nil]
      exact .stopping hc hreason (.inl ⟨_, _, rfl, hpurpose ▸ ho⟩)
    | fails failure time =>
      rw [Purpose.refusal_of_goesOn ho, List.append_nil]
      exact .stopping hc hreason (.inr ⟨_, _, rfl⟩)
    | completes ho' => exact absurd (ho.symm.trans ho') (by simp)
    | nextSignal _ hreason' htask' =>
      exact .stopping hc (List.forall_mem_append.2 ⟨hreason, hreason'⟩) htask'

/-- A command reports while it is in flight and when it has ended. -/
theorem Reports.inFlight_or_ended {told : List Notice} {task : Task}
    (h : c.Reports active told task) :
    (∃ a alert, task = .inFlight a alert) ∨ ∃ result time, task = .ended result time := by
  cases h with
  | inFlight => exact .inl ⟨_, _, rfl⟩
  | ended => exact .inr ⟨_, _, rfl⟩
  | stopping _ _ htask =>
    exact htask.imp_left fun ⟨a, alert, ha, _⟩ ↦ ⟨a, alert, ha⟩

/-- **Step.** What a command has told grows by what its next step tells. -/
theorem Reports.step {y : Yard} {told : List Notice} {task : Task}
    (h : c.Reports active told task) (hready : task.isReady y = true) :
    ∃ more, y.Tells more (task.step y).1 ∧ c.Reports active (told ++ more) (task.step y).2 := by
  rcases h.inFlight_or_ended with ⟨a, alert, rfl⟩ | ⟨result, time, rfl⟩
  · obtain ⟨more, hmore, htells⟩ := Task.tells_step_inFlight y a alert
    exact ⟨more, hmore, h.of_tells htells⟩
  · cases hready

/-- What a beginning makes of the yard is told as the command reports it. -/
def Informs (y : Yard) (c : Command) (p : Yard × Progress) : Prop :=
  ∃ told, y.Tells told (Task.ofProgress p).1 ∧ c.Reports y.active told (Task.ofProgress p).2

variable {y z : Yard} {token : Token}

theorem informs_publish {notice : Notice} {result : Except Failure Outcome}
    (hmirrors : c.Mirrors y.active result [notice]) (hz : z.channel = y.channel) :
    Informs y c (z.publish notice, .done result) :=
  ⟨[notice], (z.tells_publish notice).of_channel_eq hz, .ended hmirrors⟩

/-- A command that goes on has told nothing yet, whatever is active by then. -/
theorem informs_deliver (h : c.Pursues y.active purpose) (active' : Reservations)
    (frames : List Frame) : Informs y c ((y.withActive active').deliver token purpose frames) := by
  cases frames with
  | nil =>
    obtain ⟨outcome, ho⟩ := Option.ne_none_iff_exists'.1 h.outcome_ne_none
    refine ⟨_, Task.tells_ofProgress (Yard.tells_finish ho (y.withActive active') token), ?_⟩
    rw [Yard.deliver, Task.ofProgress_snd_of_done (Yard.finish_snd ho)]
    exact .ended (h.mirrors_told ho)
  | cons frame rest => exact ⟨[], Yard.tells_of_channel_eq rfl, .inFlight h⟩

theorem informs_startRoute (y : Yard) (token : Token) (request : RouteCommand) :
    Informs y (.route request) (y.startRoute token request) := by
  rw [Yard.startRoute]
  split
  · rcases y.setRoute_cases token request with
        ⟨reason, h⟩ | ⟨cause, h⟩ | ⟨route, resolved, frames, hadmits, h⟩
    · exact h ▸ informs_publish (.ended (by simp) rfl) rfl
    · exact h ▸ informs_publish (.failed rfl) rfl
    · obtain ⟨⟨hstart, hdestination⟩, -⟩ := hadmits.ends_eq
      exact h ▸ informs_deliver (.setRoute hstart hdestination) _ frames
  · split
    next hteardown =>
      rcases y.releaseRoute_cases token request with ⟨-, h⟩ | ⟨-, ⟨cause, -, h⟩ | ⟨frames, -, h⟩⟩
      · exact h ▸ informs_publish (.ended (by simp) rfl) rfl
      · exact h ▸ informs_publish (.failed rfl) rfl
      · exact h ▸ informs_deliver (.release hteardown) _ frames
    · exact informs_publish (.ended (by simp) rfl) rfl

/-- **Beginnings** of commands: one that is turned away has told so, and one that goes on has told
nothing yet. -/
theorem informs_startCommand (y : Yard) (token : Token) (c : Command) :
    Informs y c (y.startCommand token c) := by
  cases c with
  | point c =>
    rw [Yard.startCommand]
    rcases y.startPoint_cases token c with
        ⟨outcome, -, h⟩ | ⟨cause, h⟩ | ⟨point, frames, -, h⟩
    · exact h ▸ informs_publish (.ended (by simp) rfl) rfl
    · exact h ▸ informs_publish (.failed rfl) rfl
    · exact h ▸ informs_deliver .movePoint y.active frames
  | route request => exact informs_startRoute y token request
  | turntable c =>
    rw [Yard.startCommand, Yard.startTurntable]
    split
    · exact informs_publish (.ended (by simp) rfl) rfl
    · split
      · exact informs_publish (.failed rfl) rfl
      next frame _ => exact informs_deliver .turn y.active [frame]
  | control c =>
    cases c with
    | reload => exact informs_publish (.ended (by simp) rfl) rfl
    | clearAllRoutes =>
      rw [Yard.startCommand]
      rcases y.clearAllRoutes_cases token with ⟨cause, -, h⟩ | ⟨frames, -, h⟩
      · exact h ▸ informs_publish (.failed rfl) rfl
      · exact h ▸ informs_deliver .clearAll _ frames
    | stopAllSignals =>
      obtain ⟨told, htold, hreason⟩ := y.tells_showSignals token
        (Yard.stopCommands y.layout).length (Yard.stopCommands y.layout)
      refine ⟨told, Task.tells_ofProgress htold, .stopping rfl hreason ?_⟩
      refine Task.handlesSignals_ofProgress fun a ha ↦ ?_
      obtain ⟨signal, rest, hp, -⟩ := Yard.stopSignals_of_showSignals ha
      rw [hp]
      rfl

end Command

/-! ### One step of any task -/

namespace Task

/-- Whether a task is a call: it may tell something. -/
def isCall : Task → Bool
  | pending job => job.isCall
  | planned _ job => job.isCall
  | inFlight _ _ => true
  | _ => false

variable {y : Yard}

theorem channel_finishWrite (y : Yard) (bytes : List UInt8) :
    (finishWrite y bytes).1.channel = y.channel := by
  obtain ⟨line, setOff, h⟩ := y.sendBytes_eq bytes
  show (y.sendBytes bytes).1.channel = y.channel
  rw [h]

theorem channel_begin {job : Job} (h : job.isCall = false) :
    (begin y job).1.channel = y.channel := by
  cases job with
  | command | signal => cases h
  | write bytes =>
    rw [begin]
    split
    · exact channel_finishWrite y bytes
    · rfl
  | _ => rfl

/-- **What is no call** tells nothing. -/
theorem tells_step_of_not_isCall {task : Task} (h : task.isCall = false) :
    y.Tells [] (task.step y).1 := by
  cases task with
  | pending job => exact Yard.tells_of_channel_eq (channel_begin h)
  | planned due job => exact Yard.tells_of_channel_eq (channel_begin (y := y.spend) h)
  | inFlight => cases h
  | writing due bytes => exact Yard.tells_of_channel_eq (channel_finishWrite y.spend bytes)
  | _ => exact Yard.tells_of_channel_eq rfl

theorem tells_begin (y : Yard) (job : Job) : ∃ told, y.Tells told (begin y job).1 := by
  cases job with
  | command c token =>
    obtain ⟨told, htold, -⟩ := Command.informs_startCommand y token c
    exact ⟨told, htold⟩
  | signal signal token =>
    rw [begin, Yard.startSignal]
    split
    · exact ⟨[], Yard.tells_of_channel_eq rfl⟩
    · exact ⟨_, y.tells_publish _⟩
    · exact ⟨[], Yard.tells_of_channel_eq rfl⟩
  | _ => exact ⟨[], Yard.tells_of_channel_eq (channel_begin rfl)⟩

/-- **One step of any task** takes nothing back that has been told. -/
theorem tells_step (y : Yard) (task : Task) : ∃ told, y.Tells told (task.step y).1 := by
  cases task with
  | pending job => exact tells_begin y job
  | planned due job => exact tells_begin y.spend job
  | inFlight a alert =>
    obtain ⟨told, htold, -⟩ := tells_step_inFlight y a alert
    exact ⟨told, htold⟩
  | _ => exact ⟨[], tells_step_of_not_isCall rfl⟩

end Task

/-! ### Moves and runs -/

namespace Traffic

variable {t : Traffic} {m : Move} {moves : List Move} {place : Nat}

/-- The notices that are published in a move. -/
def toldIn (t : Traffic) (m : Move) : List Notice :=
  (t.move m).yard.channel.published.drop t.yard.channel.published.length

/-- The notices that the task at a place publishes in some moves. -/
def toldBy (t : Traffic) (place : Nat) : List Move → List Notice
  | [] => []
  | m :: moves => (if m = .go place then t.toldIn m else []) ++ (t.move m).toldBy place moves

/-- Whether another call than the one at a place takes a step. -/
def interrupts (t : Traffic) (place : Nat) : Move → Bool
  | .go other => other != place && t.tasks[other]?.any Task.isCall
  | _ => false

/-- No other call than the one at a place takes a step. -/
def Uninterrupted (t : Traffic) (place : Nat) : List Move → Prop
  | [] => True
  | m :: moves => t.interrupts place m = false ∧ (t.move m).Uninterrupted place moves

/-- Whether a run is uninterrupted can be found out by making the moves. -/
instance decidableUninterrupted (t : Traffic) (place : Nat) :
    (moves : List Move) → Decidable (t.Uninterrupted place moves)
  | [] => .isTrue trivial
  | m :: moves =>
    have := decidableUninterrupted (t.move m) place moves
    inferInstanceAs
      (Decidable (t.interrupts place m = false ∧ (t.move m).Uninterrupted place moves))

theorem toldIn_eq {told : List Notice} (h : t.yard.Tells told (t.move m).yard) :
    t.toldIn m = told := by
  rw [toldIn, h, List.drop_left]

/-- **Moves** take nothing back that has been told. -/
theorem tells_move (t : Traffic) (m : Move) : t.yard.Tells (t.toldIn m) (t.move m).yard := by
  have hsome : ∃ told, t.yard.Tells told (t.move m).yard := by
    cases m with
    | go place =>
      rcases t.advance_cases place with hsame | ⟨task, -, -, hstep⟩
      · exact ⟨[], Yard.tells_of_channel_eq (by rw [move, hsame])⟩
      · rw [move, hstep]
        exact task.tells_step t.yard
    | _ => exact ⟨[], Yard.tells_of_channel_eq rfl⟩
  obtain ⟨told, htold⟩ := hsome
  rwa [toldIn_eq htold]

/-- Only calls tell anything. -/
theorem toldIn_of_not_interrupts (h : t.interrupts place m = false) (hm : m ≠ .go place) :
    t.toldIn m = [] := by
  refine toldIn_eq ?_
  cases m with
  | go other =>
    have hne : other ≠ place := fun he ↦ hm (congrArg Move.go he)
    rcases t.advance_cases other with hsame | ⟨task, ht, -, hstep⟩
    · exact Yard.tells_of_channel_eq (by rw [move, hsame])
    · have hcall : task.isCall = false := by simpa [interrupts, hne, ht] using h
      rw [move, hstep]
      exact Task.tells_step_of_not_isCall hcall
  | _ => exact Yard.tells_of_channel_eq rfl

/-- **Uninterrupted**, a task tells all that is published. -/
theorem published_of_uninterrupted (h : t.Uninterrupted place moves) :
    t.yard.Tells (t.toldBy place moves) (t.run moves).yard := by
  induction moves generalizing t with
  | nil => exact Yard.tells_of_channel_eq rfl
  | cons m moves ih =>
    have htold : t.toldIn m = if m = .go place then t.toldIn m else [] := by
      split
      · rfl
      next hm => exact toldIn_of_not_interrupts h.1 hm
    rw [toldBy, ← htold]
    exact (t.tells_move m).trans (ih h.2)

/-- **Many moves.** What a command has told grows by what its moves tell. -/
theorem reports_run {active : Reservations} {c : Command} {told : List Notice} {task : Task}
    (ht : t.tasks[place]? = some task) (h : c.Reports active told task) (moves : List Move) :
    ∃ task', (t.run moves).tasks[place]? = some task' ∧
      c.Reports active (told ++ t.toldBy place moves) task' := by
  -- the induction carries what has been told so far, to which only moves of this task add
  induction moves generalizing t told task with
  | nil => exact ⟨task, ht, (List.append_nil told).symm ▸ h⟩
  | cons m moves ih =>
    rw [toldBy, ← List.append_assoc]
    by_cases hm : m = .go place
    · subst hm
      rw [if_pos rfl]
      rcases t.advance_cases place with hsame | ⟨task', ht', hr, hstep⟩
      · have hmove : t.move (.go place) = t := hsame
        have hnone : t.toldIn (.go place) = [] :=
          toldIn_eq (Yard.tells_of_channel_eq (by rw [hmove]))
        rw [hnone, List.append_nil]
        exact ih (hmove.symm ▸ ht) h
      · obtain rfl := Option.some.inj (ht.symm.trans ht')
        have hmove : t.move (.go place) = _ := hstep
        obtain ⟨more, hmore, hafter⟩ := h.step hr
        rw [toldIn_eq (show t.yard.Tells more (t.move (.go place)).yard by rwa [hmove])]
        refine ih ?_ hafter
        rw [hmove]
        exact List.getElem?_set_self (List.getElem?_eq_some_iff.1 ht).1
    · rw [if_neg hm, List.append_nil]
      exact ih (tasks_move_of_ne ht hm) h

/-- **From its beginning on**, a command has told what mirrors its result, or nothing yet. -/
theorem reports_of_begins {c : Command} {token : Token}
    (h : t.Begins place (.command c token)) (moves : List Move) :
    ∃ task, (t.run (.go place :: moves)).tasks[place]? = some task ∧
      c.Reports t.yard.active (t.toldBy place (.go place :: moves)) task := by
  obtain ⟨allowance, hyard, hafter⟩ := begin_of_begins h
  obtain ⟨told, htold, hreports⟩ :=
    Command.informs_startCommand { t.yard with allowance := allowance } token c
  have htells : t.yard.Tells told (t.move (.go place)).yard := by
    rw [hyard]
    exact htold
  rw [run_cons, toldBy, if_pos rfl, toldIn_eq htells]
  exact reports_run hafter hreports moves

/-- What has ended with a result has told what mirrors it, unless it is the stop of all signals. -/
theorem reports_of_result {c : Command} {token : Token} {result : Except Failure Outcome}
    {time : Nat} (h : t.Begins place (.command c token))
    (hresult : (t.run (.go place :: moves)).result? place = some (.command result, time)) :
    c.Reports t.yard.active (t.toldBy place (.go place :: moves))
      (.ended (.command result) time) := by
  obtain ⟨task, ht, hreports⟩ := reports_of_begins h moves
  rwa [Option.some.inj (ht.symm.trans (result?_eq_some_iff.1 hresult))] at hreports

/-- **Notices mirror results.** Whatever other tasks do in the meantime, the notices that a command
publishes from its beginning to its end are those that mirror its result, unless it is the stop of
all signals. Uninterrupted, these are all that is published. -/
theorem mirrors_of_result {c : Command} {token : Token} {result : Except Failure Outcome}
    {time : Nat} (hbegins : t.Begins place (.command c token))
    (hc : c ≠ .control .stopAllSignals)
    (hresult : (t.run (.go place :: moves)).result? place = some (.command result, time)) :
    c.Mirrors t.yard.active result (t.toldBy place (.go place :: moves)) ∧
      (t.Uninterrupted place (.go place :: moves) →
        (t.run (.go place :: moves)).yard.channel.published =
          t.yard.channel.published ++ t.toldBy place (.go place :: moves)) := by
  refine ⟨?_, published_of_uninterrupted⟩
  have hreports := reports_of_result hbegins hresult
  generalize t.toldBy place (.go place :: moves) = told at hreports
  cases hreports with
  | ended hmirrors => exact hmirrors
  | stopping hstop => exact absurd hstop hc

/-- The moves of a task that sends one frame after a pause until the given time. -/
def sendsAt (place time : Nat) : List Move :=
  [.go place, .wait time, .go place, .go place]

/-- Two routes are set to one destination over one point, and their release joins. -/
def setToOneEnd : List Move :=
  .join 0 (.command (.route overOnePoint) .never) ::
    .go 0 :: sendsAt 0 100 ++ sendsAt 0 200 ++
    .join 0 (.command (.route { overOnePoint with start := 60 }) .never) ::
    .go 1 :: sendsAt 1 300 ++ sendsAt 1 400 ++
    [.join 0 (.command (.route (.plain 0 72 .clear)) .never)]

/-- The release of both routes is told of each of them, in the order in which they were set. -/
theorem mirrors_of_result_of_release :
    let t := (start (.junction [.linked "27" [12] [13] 100]) 100 64 .none).run setToOneEnd
    let moves := Move.go 2 :: sendsAt 2 500
    t.toldBy 2 moves = [.route 64 72 .cleared, .route 60 72 .cleared] ∧
      (Command.route (.plain 0 72 .clear)).Mirrors t.yard.active (.ok (.route .cleared))
        (t.toldBy 2 moves) ∧
      (t.run moves).yard.channel.published = t.yard.channel.published ++ t.toldBy 2 moves := by
  intro t moves
  have hbegins : t.Begins 2 (.command (.route (.plain 0 72 .clear)) .never) :=
    ⟨.pending (.command (.route (.plain 0 72 .clear)) .never), by decide +kernel, rfl, rfl⟩
  have hresult : (t.run moves).result? 2 = some (.command (.ok (.route .cleared)), 500) := by
    decide +kernel
  have hmirrors := mirrors_of_result hbegins (by simp) hresult
  exact ⟨by decide +kernel, hmirrors.1, hmirrors.2 (by decide +kernel)⟩

/-- **Failures that are told.** A command that has failed has published a rejection with the reason
of its failure, exactly if it is not the stop of all signals. -/
theorem tellsReason_iff {c : Command} {token : Token} {failure : Failure} {time : Nat}
    (hbegins : t.Begins place (.command c token))
    (hresult : (t.run (.go place :: moves)).result? place =
      some (.command (.error failure), time)) :
    (∃ n ∈ t.toldBy place (.go place :: moves), n.reason? = some failure.reason) ↔
      c ≠ .control .stopAllSignals := by
  have hreports := reports_of_result hbegins hresult
  generalize t.toldBy place (.go place :: moves) = told at hreports
  cases hreports with
  | ended hmirrors =>
    cases hmirrors with
    | failed hnotice =>
      refine iff_of_true ⟨_, List.mem_singleton_self _, Command.reason?_of_rejection? hnotice⟩ ?_
      rintro rfl
      cases hnotice
  | stopping hc hreason =>
    refine iff_of_false ?_ fun h ↦ h hc
    rintro ⟨n, hn, h⟩
    exact absurd ((hreason n hn).symm.trans h) (by simp)

/-- The line refuses the frame of a point. -/
theorem tellsReason_iff_of_refused :
    let t := (start (.junction [.linked "27" [12] [13] 0]) 100 64
      { BusFaults.none with refuseAt := some 0 }).run
        [.join 0 (.command (.point (.plain 27 .straight)) .never)]
    (∃ n ∈ t.toldBy 0 (.go 0 :: sendsAt 0 100),
        n.reason? = some (Failure.transport 0 (.refused 0)).reason) ↔
      Command.point (.plain 27 .straight) ≠ .control .stopAllSignals := by
  intro t
  have hbegins : t.Begins 0 (.command (.point (.plain 27 .straight)) .never) :=
    ⟨.pending (.command (.point (.plain 27 .straight)) .never), by decide +kernel, rfl, rfl⟩
  have hresult : (t.run (.go 0 :: sendsAt 0 100)).result? 0 =
      some (.command (.error (.transport 0 (.refused 0))), 100) := by
    decide +kernel
  exact tellsReason_iff hbegins hresult

/-- The line refuses the frame of a signal that is to be stopped: the command fails, and nothing is
published. -/
theorem untold_of_stopAllSignals :
    let t := (start { Layout.junction [] with signals := [.plain "64" ⟨1, 1⟩ 5] } 100 64
      { BusFaults.none with refuseAt := some 0 }).run
        [.join 0 (.command (.control .stopAllSignals) .never)]
    (t.run (.go 0 :: sendsAt 0 100)).result? 0 =
        some (.command (.error (.transport 0 (.refused 0))), 100) ∧
      t.toldBy 0 (.go 0 :: sendsAt 0 100) = [] ∧
      (t.run (.go 0 :: sendsAt 0 100)).yard.channel.published = [] := by
  decide +kernel

end Traffic

end SignalBox
