import SignalBox.Proofs.Effects
import SignalBox.Proofs.Tenure
import SignalBox.Proofs.Transmission

/-!
# The course of a command

A command in flight has been launched by the job that began it, for a purpose and with frames that
its checks have prepared (`Yard.Launches`). From then on it keeps its purpose until it ends, and its
frames only become fewer; the stop of all signals goes on with the next signal
(`Activity.Follows`). So a command in flight can be followed in both directions:

* **Back**: what is in flight after a move has been in flight before, or this move has launched it
  (`Traffic.inFlight_of_move`). If something is in flight that cannot have been launched during some
  moves, it has been in flight since before them (`Traffic.inFlight_of_run`).
* **On**: what is in flight goes on for its purpose until it ends (`Traffic.goesOn_run`).
* **Frames** are such as the purpose calls for, at any time (`Traffic.fits_run`).
-/

namespace SignalBox

/-! ### What is launched -/

namespace Purpose

/-- Whether locks are released. -/
def releases : Purpose → Bool
  | release _ _ => true
  | clearAll => true
  | _ => false

/-- Whether a signal or the turntable is set. -/
def shows : Purpose → Bool
  | showSignal _ => true
  | turn _ => true
  | stopSignals _ _ _ => true
  | _ => false

/-- A frame is such as a purpose calls for. -/
def Fits : Purpose → Frame → Prop
  | movePoint _ _ position, f =>
    ∃ a : Int32, f.Encodes .set (.ofPosition (position.forAddress a)) a.toInt
  | setRoute _ _ _, f => f.kind ≠ .unlock
  | release _ _, f => f.kind = .unlock
  | clearAll, f => f.kind = .unlock
  | _, f => f.kind = .set

/-- What shows something releases nothing. -/
theorem releases_of_shows {purpose : Purpose} (h : purpose.shows = true) :
    purpose.releases = false := by
  cases purpose with
  | release request removed | clearAll => cases h
  | _ => rfl

/-- Only releases unlock. -/
theorem Fits.releases {purpose : Purpose} {f : Frame} (h : purpose.Fits f)
    (hkind : f.kind = .unlock) : purpose.releases = true := by
  cases purpose with
  | release request removed | clearAll => rfl
  | movePoint number keys position =>
    obtain ⟨a, h⟩ := h
    exact absurd (hkind.symm.trans h.kind_eq) (by simp)
  | setRoute layout request resolved => exact absurd hkind h
  | _ => exact absurd (hkind.symm.trans h) (by simp)

theorem Fits.kind_eq {purpose : Purpose} {f : Frame} (h : purpose.Fits f)
    (hreleases : purpose.releases = true) : f.kind = .unlock := by
  cases purpose with
  | release request removed | clearAll => exact h
  | _ => cases hreleases

theorem fits_of_shows {purpose : Purpose} {f : Frame} (h : purpose.shows = true)
    (hf : f.kind = .set) : purpose.Fits f := by
  cases purpose with
  | showSignal signal | turn track | stopSignals signal rest count => exact hf
  | _ => cases h

end Purpose

namespace Yard

/-- A job that begins launches a command, for a purpose and with some frames. -/
inductive Launches (y : Yard) : Job → Purpose → List Frame → Prop
  /-- A point is moved. -/
  | movePoint {command point : PointCommand} {token : Token} {frames : List Frame}
      (hmoves : y.Moves command point frames) :
      Launches y (.command (.point command) token)
        (.movePoint command.number (Positions.keysOf y.layout command) command.position) frames
  /-- A route is set. -/
  | setRoute {request route resolved : RouteCommand} {token : Token} {frames : List Frame}
      (hset : request.state.isSet = true) (hadmits : y.Admits request route resolved frames) :
      Launches y (.command (.route request) token) (.setRoute y.layout route resolved) frames
  /-- Routes are released. -/
  | release {job : Job} {purpose : Purpose} {removed : List RouteCommand}
      {remaining : Reservations} {frames : List Frame}
      (hreleases : y.Releases job removed remaining) (hpurpose : purpose.releases = true)
      (hframes : unlockFrames (remaining.pointsToUnlock removed) = .ok frames) :
      Launches y job purpose frames
  /-- A signal or the turntable is set. -/
  | shows {job : Job} {purpose : Purpose} {frames : List Frame} (hjob : job.isPositional = false)
      (hpurpose : purpose.shows = true) (hkind : ∀ f ∈ frames, f.kind = .set) :
      Launches y job purpose frames

variable {y : Yard} {token : Token} {job : Job} {a : Activity}

/-- It does not matter for a launch how long the job has waited to begin. -/
theorem Launches.of_waits {z : Yard} {purpose : Purpose} {frames : List Frame} (hy : y.Waits z)
    (h : z.Launches job purpose frames) : y.Launches job purpose frames := by
  obtain ⟨faults, attempts, setOff, now, allowance, rfl⟩ := hy
  cases h with
  | movePoint h =>
    exact .movePoint ⟨h.defined, h.resolves, h.free, h.elsewhere, h.encoded⟩
  | setRoute hset h => exact .setRoute hset ⟨h.expanded, h.free, h.resolves, h.encoded⟩
  | release hreleases hpurpose hframes =>
    cases hreleases with
    | teardown hteardown => exact .release (.teardown hteardown) hpurpose hframes
    | clearAll => exact .release .clearAll hpurpose hframes
  | shows hjob hpurpose hkind => exact .shows hjob hpurpose hkind

/-- **The frames of a launch** are such as its purpose calls for. -/
theorem Launches.fits {purpose : Purpose} {frames : List Frame}
    (h : y.Launches job purpose frames) : ∀ f ∈ frames, purpose.Fits f := by
  intro f hf
  cases h with
  | movePoint hmoves =>
    have hsame := Layout.sameRequest_of_resolvePoint? hmoves.resolves
    obtain ⟨a, -, hencodes⟩ := exists_left_of_mem_right (PointCommand.encodes_of_setFrames
      hmoves.encoded (hsame.isUndefined_eq.trans hmoves.defined)) hf
    exact ⟨a, hsame.position ▸ hencodes⟩
  | setRoute hset hadmits =>
    show f.kind ≠ .unlock
    obtain ⟨moves, locks, hmoves, hlocks, rfl⟩ :=
      RouteCommand.setFrames_eq_ok_iff.1 hadmits.encoded
    rcases List.mem_append.1 hf with hf | hf
    · obtain ⟨fs, hfs, hf⟩ := List.mem_flatten.1 hf
      obtain ⟨p, -, hp⟩ := exists_left_of_mem_right hmoves hfs
      simp [PointCommand.kind_of_mem_setFrames hp hf]
    · obtain ⟨p, -, a, -, hencodes⟩ :=
        (encodes_locks (hlocks.imp fun p fs ↦ PointCommand.encodes_of_lockFrames)).1 f hf
      simp [hencodes.kind_eq]
  | @release _ purpose _ _ _ hreleases hpurpose hframes =>
    have hkind := (unlocks_of_unlockFrames hframes hf).1
    cases purpose with
    | release request removed | clearAll => exact hkind
    | _ => cases hpurpose
  | shows hjob hpurpose hkind => exact Purpose.fits_of_shows hpurpose (hkind f hf)

/-! ### Beginnings -/

/-- Signals are stopped one after another, each with frames that set. -/
theorem stopSignals_of_showSignals {count : Nat} {signals : List SignalCommand}
    (h : (y.showSignals token count signals).2 = .underWay a) :
    ∃ signal rest, a.purpose = .stopSignals signal rest count ∧ rest.length < signals.length ∧
      ∀ f ∈ a.delivery.frames, f.kind = .set := by
  fun_induction showSignals y token count signals with
  | case1 => cases h
  | case2 => cases h
  | case3 y signal rest _ ih =>
    obtain ⟨next, later, hp, hlt, hkind⟩ := ih h
    exact ⟨next, later, hp, Nat.lt_succ_of_lt hlt, hkind⟩
  | case4 y signal rest frame hframe =>
    obtain rfl := Progress.underWay.inj h
    refine ⟨signal, rest, rfl, Nat.lt_succ_self _, fun f hf ↦ ?_⟩
    rw [List.mem_singleton.1 (show f ∈ [frame] from hf)]
    exact SignalCommand.kind_of_frame? hframe

/-- What goes on after its delivery is the stop of all signals. -/
theorem stopSignals_of_finish {purpose : Purpose}
    (h : (y.finish token purpose).2 = .underWay a) :
    ∃ signal rest count signal' rest', purpose = .stopSignals signal rest count ∧
      a.purpose = .stopSignals signal' rest' count ∧ rest'.length < rest.length ∧
      ∀ f ∈ a.delivery.frames, f.kind = .set := by
  cases ho : purpose.outcome? with
  | some outcome =>
    rw [finish_snd ho] at h
    cases h
  | none =>
    cases purpose with
    | stopSignals signal rest count =>
      obtain ⟨signal', rest', hp, hlt, hkind⟩ := stopSignals_of_showSignals h
      exact ⟨signal, rest, count, signal', rest', rfl, hp, hlt, hkind⟩
    | _ => cases ho

/-- What goes on from a beginning has been launched by it. -/
def LaunchesAs (y : Yard) (job : Job) (p : Yard × Progress) : Prop :=
  ∀ a, p.2 = .underWay a → y.Launches job a.purpose a.delivery.frames

theorem launchesAs_of_done {z : Yard} {result : Except Failure Outcome} :
    y.LaunchesAs job (z, .done result) := by
  intro a h
  cases h

theorem launchesAs_deliver {z : Yard} {purpose : Purpose} {frames : List Frame} {outcome : Outcome}
    (ho : purpose.outcome? = some outcome) (h : y.Launches job purpose frames) :
    y.LaunchesAs job (z.deliver token purpose frames) := by
  intro a ha
  cases frames with
  | nil => exact absurd ha (by simp [deliver, finish_snd ho])
  | cons frame rest => exact Progress.underWay.inj ha ▸ h

theorem launchesAs_startRoute (y : Yard) (token : Token) (request : RouteCommand) :
    y.LaunchesAs (.command (.route request) token) (y.startRoute token request) := by
  rw [startRoute]
  split
  next hset =>
    rcases y.setRoute_cases token request with
        ⟨reason, h⟩ | ⟨cause, h⟩ | ⟨route, resolved, frames, hadmits, h⟩
    · exact h ▸ launchesAs_of_done
    · exact h ▸ launchesAs_of_done
    · exact h ▸ launchesAs_deliver rfl (.setRoute hset hadmits)
  · split
    next hteardown =>
      rcases y.releaseRoute_cases token request with
          ⟨-, h⟩ | ⟨-, ⟨cause, -, h⟩ | ⟨frames, hframes, h⟩⟩
      · exact h ▸ launchesAs_of_done
      · exact h ▸ launchesAs_of_done
      · exact h ▸ launchesAs_deliver rfl (.release (.teardown hteardown) rfl hframes)
    · exact launchesAs_of_done

theorem launchesAs_startCommand (y : Yard) (token : Token) (command : Command) :
    y.LaunchesAs (.command command token) (y.startCommand token command) := by
  cases command with
  | point command =>
    rw [startCommand]
    rcases y.startPoint_cases token command with
        ⟨outcome, -, h⟩ | ⟨cause, h⟩ | ⟨point, frames, hmoves, h⟩
    · exact h ▸ launchesAs_of_done
    · exact h ▸ launchesAs_of_done
    · exact h ▸ launchesAs_deliver rfl (.movePoint hmoves)
  | route request => exact y.launchesAs_startRoute token request
  | turntable command =>
    rw [startCommand, startTurntable]
    split
    · exact launchesAs_of_done
    · split
      · exact launchesAs_of_done
      next frame hframe =>
        refine launchesAs_deliver rfl (.shows rfl rfl fun f hf ↦ ?_)
        rw [List.mem_singleton.1 hf]
        exact (Frame.encodes_of_encode hframe).kind_eq
  | control command =>
    cases command with
    | reload => exact launchesAs_of_done
    | clearAllRoutes =>
      rw [startCommand]
      rcases y.clearAllRoutes_cases token with ⟨cause, -, h⟩ | ⟨frames, hframes, h⟩
      · exact h ▸ launchesAs_of_done
      · exact h ▸ launchesAs_deliver rfl (.release .clearAll rfl hframes)
    | stopAllSignals =>
      intro a ha
      obtain ⟨signal, rest, hp, -, hkind⟩ := stopSignals_of_showSignals ha
      exact .shows rfl (hp ▸ rfl) hkind

theorem launchesAs_startSignal (y : Yard) (token : Token) (signal : SignalCommand) :
    y.LaunchesAs (.signal signal token) (y.startSignal token signal) := by
  rw [startSignal]
  split
  · exact launchesAs_of_done
  · exact launchesAs_of_done
  next frame hframe =>
    refine launchesAs_deliver rfl (.shows rfl rfl fun f hf ↦ ?_)
    rw [List.mem_singleton.1 hf]
    exact SignalCommand.kind_of_frame? hframe

end Yard

/-! ### One step -/

/-- How a command in flight stands later, as long as it is in flight: it goes on with its frames, or
the stop of all signals goes on with another signal. -/
inductive Activity.Follows (a : Activity) : Activity → Prop
  | goesOn {a' : Activity} (hpurpose : a'.purpose = a.purpose)
      (htoken : a'.delivery.token = a.delivery.token)
      (hframes : a'.delivery.frames <:+ a.delivery.frames) : Follows a a'
  | nextSignal {a' : Activity} (hbefore : a.purpose.outcome? = none)
      (hafter : a'.purpose.shows = true) (hless : a'.purpose.stepsLeft < a.purpose.stepsLeft)
      (hkind : ∀ f ∈ a'.delivery.frames, f.kind = .set) : Follows a a'

theorem Activity.Follows.refl (a : Activity) : a.Follows a := .goesOn rfl rfl (List.suffix_refl _)

/-- A command with one delivery keeps its purpose. -/
theorem Activity.Follows.purpose_eq {a a' : Activity} {outcome : Outcome} (h : a.Follows a')
    (ho : a.purpose.outcome? = some outcome) : a'.purpose = a.purpose := by
  cases h with
  | goesOn hpurpose => exact hpurpose
  | nextSignal hbefore => exact absurd (hbefore.symm.trans ho) (by simp)

namespace Task

variable {y : Yard} {a a' : Activity} {alert' : Bool}

theorem underWay_of_ofProgress {p : Yard × Progress} (h : (ofProgress p).2 = .inFlight a alert') :
    p.2 = .underWay a := by
  obtain ⟨y, progress⟩ := p
  cases progress with
  | underWay a' => exact congrArg _ (inFlight.inj h).1
  | done result => cases h

/-- A command is in flight or has ended once it has begun. -/
theorem ofProgress_cases (p : Yard × Progress) :
    (∃ a, (ofProgress p).2 = .inFlight a false) ∨
      ∃ result time, (ofProgress p).2 = .ended result time := by
  obtain ⟨y, progress⟩ := p
  cases progress with
  | underWay a => exact .inl ⟨a, rfl⟩
  | done result => exact .inr ⟨_, _, rfl⟩

theorem launches_of_begin {job : Job} (h : (begin y job).2 = .inFlight a alert') :
    y.Launches job a.purpose a.delivery.frames := by
  cases job with
  | command command token =>
    exact y.launchesAs_startCommand token command a (underWay_of_ofProgress h)
  | signal signal token => exact y.launchesAs_startSignal token signal a (underWay_of_ofProgress h)
  | write bytes =>
    rw [begin] at h
    split at h <;> cases h
  | _ => cases h

end Task

namespace Activity.Goes

variable {y : Yard} {a a' : Activity} {alert' : Bool} {p : Yard × Task}

/-- **Back**: what is in flight after a step of a command is this command. -/
theorem follows (h : a.Goes y p) (hp : p.2 = .inFlight a' alert') : a.Follows a' := by
  cases h with
  | listens => exact (Task.inFlight.inj hp).1 ▸ .refl a
  | writes => exact (Task.inFlight.inj hp).1 ▸ .goesOn rfl rfl (List.suffix_refl _)
  | sends hz hdelivers hrest =>
    refine (Task.inFlight.inj hp).1 ▸ .goesOn rfl rfl ⟨[a.delivery.frame], ?_⟩
    simp [Delivery.frames, hrest]
  | cancelled | refused =>
    have hdone := Task.underWay_of_ofProgress hp
    rw [Yard.abandon_snd] at hdone
    cases hdone
  | completes =>
    obtain ⟨signal, rest, count, signal', rest', hbefore, hafter, hlt, hkind⟩ :=
      Yard.stopSignals_of_finish (Task.underWay_of_ofProgress hp)
    refine .nextSignal (hbefore ▸ rfl) (hafter ▸ rfl) ?_ hkind
    rw [hbefore, hafter, Purpose.stepsLeft, Purpose.stepsLeft]
    omega

/-- **On**: a command in flight goes on, or it ends. -/
theorem inFlight_or_ended (h : a.Goes y p) :
    (∃ a' alert', p.2 = .inFlight a' alert' ∧ a.Follows a') ∨
      ∃ result time, p.2 = .ended result time := by
  have hcases : (∃ a' alert', p.2 = .inFlight a' alert') ∨
      ∃ result time, p.2 = .ended result time := by
    cases h with
    | listens | writes | sends => exact .inl ⟨_, _, rfl⟩
    | cancelled | refused | completes =>
      exact (Task.ofProgress_cases _).imp_left fun ⟨a', h⟩ ↦ ⟨a', false, h⟩
  exact hcases.imp_left fun ⟨a', alert', hp⟩ ↦ ⟨a', alert', hp, h.follows hp⟩

end Activity.Goes

/-- **One step of any task**: what is in flight after it has been in flight before, or this step has
launched it. -/
theorem Task.inFlight_of_step {y : Yard} {task : Task} {a' : Activity} {alert' : Bool}
    (hready : task.isReady y = true) (h : (task.step y).2 = .inFlight a' alert') :
    (∃ a alert, task = .inFlight a alert ∧ a.Follows a') ∨
      ∃ job, task.job? = some job ∧ y.Launches job a'.purpose a'.delivery.frames := by
  cases task with
  | pending job => exact .inr ⟨job, rfl, launches_of_begin h⟩
  | planned due job =>
    have hwaits : y.Waits y.spend := ⟨_, _, _, _, _, rfl⟩
    exact .inr ⟨job, rfl, (launches_of_begin h).of_waits hwaits⟩
  | inFlight a alert => exact .inl ⟨a, alert, rfl, (Activity.goes_step hready).follows h⟩
  | _ => cases h

/-- A job begins once. -/
theorem Task.job?_step {y : Yard} {task : Task} (hready : task.isReady y = true) :
    (task.step y).2.job? = none := by
  have hcloser : _ ∨ _ := closer_step hready
  have hleft : task.beginningsLeft = 0 ∨ task.beginningsLeft = 1 ∧ task.stepsLeft = 0 := by
    cases task <;> simp [beginningsLeft, stepsLeft]
  have hbegun : (task.step y).2.beginningsLeft = 0 := by omega
  generalize (task.step y).2 = task' at hbegun
  cases task' with
  | pending job | planned due job => cases hbegun
  | _ => rfl

/-- **The layout** is replaced by a job to replace it, and by nothing else. -/
theorem Task.plan_begin {y : Yard} {job : Job} (h : ∀ layout, job ≠ .replaceLayout layout) :
    (begin y job).1.plan = y.plan := by
  cases job with
  | command command token =>
    rw [begin, ofProgress_fst]
    exact (y.decides_startCommand token command).plan_eq
  | signal signal token =>
    rw [begin, ofProgress_fst]
    exact (y.decides_startSignal token signal).plan_eq
  | replaceLayout layout => exact absurd rfl (h layout)
  | write bytes =>
    rw [begin]
    split
    · obtain ⟨sent, hsent, -⟩ := y.sends_sendBytes bytes
      exact hsent.passes.plan_eq
    · rfl
  | _ => rfl

theorem Task.plan_step {y : Yard} {task : Task} (hready : task.isReady y = true)
    (h : ∀ layout, task.job? ≠ some (.replaceLayout layout)) : (task.step y).1.plan = y.plan := by
  cases task with
  | pending job => exact plan_begin fun layout hj ↦ h layout (congrArg some hj)
  | planned due job =>
    exact plan_begin (y := y.spend) fun layout hj ↦ h layout (congrArg some hj)
  | inFlight a alert => exact (Activity.goes_step hready).plan_eq
  | writing due bytes =>
    obtain ⟨sent, hsent, -⟩ := y.spend.sends_sendBytes bytes
    exact hsent.passes.plan_eq
  | _ => rfl

/-! ### Moves and runs -/

namespace Traffic

variable {t : Traffic} {m : Move} {place : Nat} {a a' : Activity} {alert alert' : Bool}
  {moves : List Move}

/-- **Back over one move**: what is in flight after it has been in flight before, or this move has
launched it. -/
theorem inFlight_of_move (h : (t.move m).tasks[place]? = some (.inFlight a' alert')) :
    (∃ a alert, t.tasks[place]? = some (.inFlight a alert) ∧ a.Follows a') ∨
      ∃ job, m = .go place ∧ t.Begins place job ∧
        t.yard.Launches job a'.purpose a'.delivery.frames := by
  cases ht : t.tasks[place]? with
  | none =>
    obtain ⟨delay, job, hjob⟩ := tasks_move_of_none ht h
    rw [Task.ofJob] at hjob
    split at hjob <;> cases hjob
  | some task =>
    by_cases hm : m = .go place
    · subst hm
      cases hr : task.isReady t.yard with
      | false =>
        rw [move, advance_of_not_ready ht hr, ht] at h
        exact .inl ⟨a', alert', h, .refl a'⟩
      | true =>
        rw [move, advance_of_ready ht hr,
          List.getElem?_set_self (List.getElem?_eq_some_iff.1 ht).1] at h
        rcases Task.inFlight_of_step hr (Option.some.inj h) with
            ⟨a, alert, rfl, hf⟩ | ⟨job, hj, hl⟩
        · exact .inl ⟨a, alert, rfl, hf⟩
        · exact .inr ⟨job, rfl, ⟨task, ht, hr, hj⟩, hl⟩
    · rw [tasks_move_of_ne ht hm] at h
      exact .inl ⟨a', alert', h, .refl a'⟩

/-- **Back over many moves**: if what is in flight after them cannot have been launched by one of
them, it has been in flight since before. -/
theorem inFlight_of_run (I : Traffic → Prop) (P : Activity → Prop)
    (hback : ∀ {a a'}, a.Follows a' → P a' → P a)
    (hlaunch : ∀ {u : Traffic} {job a}, I u → I (u.move (.go place)) → u.Begins place job →
      u.yard.Launches job a.purpose a.delivery.frames → ¬ P a)
    (hall : ∀ first, first <+: moves → I (t.run first))
    (h : (t.run moves).tasks[place]? = some (.inFlight a alert)) (hP : P a) :
    ∃ a alert, t.tasks[place]? = some (.inFlight a alert) ∧ P a := by
  induction moves generalizing t with
  | nil => exact ⟨a, alert, h, hP⟩
  | cons m moves ih =>
    obtain ⟨a', alert', h', hP'⟩ := ih
      (fun first hfirst ↦ hall (m :: first) (List.cons_prefix_cons.2 ⟨rfl, hfirst⟩)) h
    rcases inFlight_of_move h' with ⟨a, alert, ht, hf⟩ | ⟨job, rfl, hb, hl⟩
    · exact ⟨a, alert, ht, hback hf hP'⟩
    · exact absurd hP' (hlaunch (hall [] List.nil_prefix)
        (hall [.go place] (List.cons_prefix_cons.2 ⟨rfl, List.nil_prefix⟩)) hb hl)

/-- What has ended stays as it is. -/
theorem ended_move {result : JobResult} {time : Nat}
    (h : t.tasks[place]? = some (.ended result time)) (m : Move) :
    (t.move m).tasks[place]? = some (.ended result time) := by
  by_cases hm : m = .go place
  · rw [hm, move, advance_of_not_ready h rfl, h]
  · exact tasks_move_of_ne h hm

theorem ended_run {result : JobResult} {time : Nat} (moves : List Move)
    (h : t.tasks[place]? = some (.ended result time)) :
    (t.run moves).tasks[place]? = some (.ended result time) :=
  run_induction (P := fun u ↦ u.tasks[place]? = some (.ended result time)) h
    (fun m h ↦ ended_move h m) moves

/-- **On by one move**: a command in flight goes on, or it ends. -/
theorem inFlight_or_ended_move (h : t.tasks[place]? = some (.inFlight a alert)) (m : Move) :
    (∃ a' alert', (t.move m).tasks[place]? = some (.inFlight a' alert') ∧ a.Follows a') ∨
      ∃ result time, (t.move m).tasks[place]? = some (.ended result time) := by
  by_cases hm : m = .go place
  · subst hm
    cases hr : (Task.inFlight a alert).isReady t.yard with
    | false =>
      rw [move, advance_of_not_ready h hr]
      exact .inl ⟨a, alert, h, .refl a⟩
    | true =>
      rw [move, advance_of_ready h hr,
        List.getElem?_set_self (List.getElem?_eq_some_iff.1 h).1]
      rcases (Activity.goes_step hr).inFlight_or_ended with
          ⟨a', alert', hs, hf⟩ | ⟨result, time, hs⟩
      · exact .inl ⟨a', alert', congrArg _ hs, hf⟩
      · exact .inr ⟨result, time, congrArg _ hs⟩
  · exact .inl ⟨a, alert, tasks_move_of_ne h hm, .refl a⟩

/-- **On by many moves**: a command with one delivery goes on for its purpose, or it has ended. -/
theorem goesOn_run {outcome : Outcome} (moves : List Move)
    (h : t.tasks[place]? = some (.inFlight a alert)) (ho : a.purpose.outcome? = some outcome) :
    (∃ a' alert', (t.run moves).tasks[place]? = some (.inFlight a' alert') ∧
        a'.purpose = a.purpose) ∨
      ∃ result time, (t.run moves).tasks[place]? = some (.ended result time) := by
  refine run_induction (P := fun u ↦
    (∃ a' alert', u.tasks[place]? = some (.inFlight a' alert') ∧ a'.purpose = a.purpose) ∨
      ∃ result time, u.tasks[place]? = some (.ended result time))
    (.inl ⟨a, alert, h, rfl⟩) (fun {u} m hu ↦ ?_) moves
  rcases hu with ⟨a', alert', hu, hp⟩ | ⟨result, time, hu⟩
  · refine (inFlight_or_ended_move hu m).imp_left fun ⟨a'', alert'', hu', hf⟩ ↦ ?_
    exact ⟨a'', alert'', hu', (hf.purpose_eq (hp ▸ ho)).trans hp⟩
  · exact .inr ⟨result, time, ended_move hu m⟩

/-- A command with one delivery that is still in flight has kept its purpose. -/
theorem purpose_of_run {outcome : Outcome} (h : t.tasks[place]? = some (.inFlight a alert))
    (ho : a.purpose.outcome? = some outcome)
    (h' : (t.run moves).tasks[place]? = some (.inFlight a' alert')) : a'.purpose = a.purpose := by
  rcases goesOn_run moves h ho with ⟨a'', alert'', h'', hsame⟩ | ⟨result, time, hended⟩
  · obtain ⟨rfl, -⟩ := Task.inFlight.inj (Option.some.inj (h'.symm.trans h''))
    exact hsame
  · exact absurd (h'.symm.trans hended) (by simp)

/-- Every frame of a command in flight is such as its purpose calls for. -/
def FramesFit (t : Traffic) : Prop :=
  ∀ (place : Nat) (a : Activity) (alert : Bool), t.tasks[place]? = some (.inFlight a alert) →
    ∀ f ∈ a.delivery.frames, a.purpose.Fits f

/-- **Frames** are such as their purpose calls for, in every state of every run. -/
theorem fits_run (layout : Layout) (delay capacity : Nat) (faults : BusFaults)
    (moves : List Move) : ((start layout delay capacity faults).run moves).FramesFit := by
  refine run_induction (P := FramesFit) (fun place a alert h ↦ by cases h)
    (fun {t} m ht place a' alert' h f hf ↦ ?_) moves
  rcases inFlight_of_move h with ⟨a, alert, hbefore, hfollows⟩ | ⟨job, -, -, hlaunches⟩
  · cases hfollows with
    | goesOn hpurpose _ hframes => exact hpurpose ▸ ht place a alert hbefore f (hframes.subset hf)
    | nextSignal _ hafter _ hkind => exact Purpose.fits_of_shows hafter (hkind f hf)
  · exact hlaunches.fits f hf

/-! ### From a reservation on -/

/-- The request that takes a reservation is in flight to set its route afterwards, if it has not
ended. -/
theorem purpose_of_reserves {request route resolved : RouteCommand}
    (hreserves : t.Reserves place request route resolved)
    (h : (t.move (.go place)).tasks[place]? = some (.inFlight a alert)) :
    ∃ layout, a.purpose = .setRoute layout route resolved := by
  obtain ⟨task, ht, -, ⟨token, hj⟩, hset, ⟨frames, hadmits⟩, -⟩ := hreserves
  rcases inFlight_of_move h with ⟨a', alert', h', -⟩ | ⟨job, -, ⟨task', ht', -, hj'⟩, hlaunches⟩
  · rw [Option.some.inj (ht.symm.trans h')] at hj
    cases hj
  · obtain rfl := Option.some.inj (ht.symm.trans ht')
    obtain rfl := Option.some.inj (hj.symm.trans hj')
    generalize a.purpose = purpose at hlaunches
    generalize a.delivery.frames = frames' at hlaunches
    cases hlaunches with
    | setRoute _ hadmits' =>
      obtain ⟨rfl, rfl⟩ := hadmits.unique hadmits'
      exact ⟨_, rfl⟩
    | release hreleases =>
      cases hreleases with
      | teardown hteardown =>
        exact absurd ((RouteState.isTeardown_of_isSet hset).symm.trans hteardown) (by simp)
    | shows hjob => cases hjob

/-- **A reservation** leaves the other commands in flight as they are. -/
theorem inFlight_reserves_iff {other : Nat} {request route resolved : RouteCommand}
    (hreserves : t.Reserves place request route resolved)
    (hpurpose : ∀ layout route resolved, a.purpose ≠ .setRoute layout route resolved) :
    (t.move (.go place)).tasks[other]? = some (.inFlight a alert) ↔
      t.tasks[other]? = some (.inFlight a alert) := by
  by_cases hne : other = place
  · subst hne
    refine iff_of_false (fun h ↦ ?_) (fun h ↦ ?_)
    · obtain ⟨layout, hp⟩ := purpose_of_reserves hreserves h
      exact hpurpose layout route resolved hp
    · obtain ⟨task, ht, -, ⟨token, hj⟩, -⟩ := hreserves
      rw [Option.some.inj (ht.symm.trans h)] at hj
      cases hj
  · rw [move, tasks_advance_of_ne (Ne.symm hne)]

/-- **A beginning** takes a route away exactly if its job withdraws it. -/
theorem withdraws_of_begins_job {r : RouteCommand} {job : Job} (h : t.Begins place job) :
    t.withdraws r (.go place) = job.withdraws r := by
  obtain ⟨task, ht, hr, hj⟩ := h
  rw [withdraws, ht, Option.any_some, hr, Bool.true_and]
  cases task with
  | pending job' | planned due job' => exact Option.some.inj hj ▸ rfl
  | _ => cases hj

/-- A job begins in a yard that may differ in what is left of the turn. -/
theorem begin_of_begins {job : Job} (h : t.Begins place job) :
    ∃ allowance,
      (t.move (.go place)).yard = (Task.begin { t.yard with allowance := allowance } job).1 ∧
      (t.move (.go place)).tasks[place]? =
        some (Task.begin { t.yard with allowance := allowance } job).2 := by
  obtain ⟨task, ht, hr, hj⟩ := h
  rw [move, advance_of_ready ht hr, List.getElem?_set_self (List.getElem?_eq_some_iff.1 ht).1]
  cases task with
  | pending job' =>
    obtain rfl := Option.some.inj hj
    exact ⟨t.yard.allowance, rfl, rfl⟩
  | planned due job' =>
    obtain rfl := Option.some.inj hj
    exact ⟨t.yard.allowance - 1, rfl, rfl⟩
  | _ => cases hj

/-- Whether a route stands can be found out by making the moves. -/
instance decidableStands (t : Traffic) (r : RouteCommand) :
    (moves : List Move) → Decidable (t.Stands r moves)
  | [] => inferInstanceAs (Decidable (r ∈ t.yard.active.routes))
  | m :: moves =>
    have := decidableStands (t.move m) r moves
    inferInstanceAs (Decidable (r ∈ t.yard.active.routes ∧ (t.move m).Stands r moves))

/-- A route that stands is active at every moment. -/
theorem Stands.mem_routes {r : RouteCommand} (h : t.Stands r moves) {first : List Move}
    (hfirst : first <+: moves) : r ∈ (t.run first).yard.active.routes := by
  induction moves generalizing t first with
  | nil =>
    obtain rfl := List.prefix_nil.1 hfirst
    exact h
  | cons m moves ih =>
    cases first with
    | nil => exact h.1
    | cons m' first =>
      obtain ⟨rfl, htail⟩ := List.cons_prefix_cons.1 hfirst
      exact ih h.2 htail

end Traffic

end SignalBox
