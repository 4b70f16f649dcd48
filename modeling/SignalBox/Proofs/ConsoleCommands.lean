import SignalBox.Proofs.Announcements
import SignalBox.Proofs.Prefixes
import SignalBox.Session

/-!
# Commands that the console has done

The console has commands done one after another, each of which has the yard to itself
(`Session.doOne_completes`). What is shared between them is the yard only, so that commands that are
done may be taken apart anywhere (`Session.carryOut_append`).

* **The layout** is the same before and after (`Session.layout_carryOut`).
* **Notices** are added to those that are there, and the ring stays as it is
  (`Session.channel_carryOut`). Nothing but a request to reload asks for a reload
  (`Session.not_mem_told`), and whatever is neither a release nor the stop of all signals tells one
  notice (`Session.length_told`).
-/

namespace SignalBox

namespace Yard

/-- Notices have been published, after those before, and none of them asks for a reload. -/
def Posts (y z : Yard) : Prop :=
  ∃ told, z.channel = { y.channel with published := y.channel.published ++ told } ∧
    Notice.reloadRequested ∉ told

variable {x y z : Yard} {token : Token}

theorem posts_of_channel_eq (h : z.channel = y.channel) : y.Posts z :=
  ⟨[], by rw [h, List.append_nil], List.not_mem_nil⟩

theorem Posts.trans (h₁ : x.Posts y) (h₂ : y.Posts z) : x.Posts z := by
  obtain ⟨first, hy, hfirst⟩ := h₁
  obtain ⟨second, hz, hsecond⟩ := h₂
  refine ⟨first ++ second, ?_, ?_⟩
  · rw [hz, hy, List.append_assoc]
  · rw [List.mem_append, not_or]
    exact ⟨hfirst, hsecond⟩

theorem posts_publish {notice : Notice} (h : notice ≠ .reloadRequested) :
    y.Posts (y.publish notice) :=
  ⟨[notice], rfl, by simpa using h.symm⟩

theorem posts_announceCleared (removed : List RouteCommand) :
    y.Posts (y.announceCleared removed) := by
  rw [announceCleared]
  induction removed generalizing y with
  | nil => exact posts_of_channel_eq rfl
  | cons r removed ih => exact (posts_publish (by simp)).trans ih

theorem posts_showSignals (count : Nat) (signals : List SignalCommand) :
    y.Posts (y.showSignals token count signals).1 := by
  fun_induction showSignals y token count signals with
  | case1 y | case2 y | case4 y => exact posts_of_channel_eq rfl
  | case3 y signal rest hframe ih => exact (posts_publish (by simp)).trans ih

theorem posts_finish (purpose : Purpose) : y.Posts (y.finish token purpose).1 := by
  cases purpose with
  | release request removed => exact posts_announceCleared removed
  | stopSignals signal rest count =>
    exact (posts_publish (by simp)).trans (posts_showSignals count rest)
  | _ => exact ⟨[_], rfl, by simp⟩

theorem posts_abandon (failure : Failure) (purpose : Purpose) :
    y.Posts (y.abandon failure purpose).1 := by
  cases purpose with
  | showSignal signal | stopSignals signal rest count => exact posts_of_channel_eq rfl
  | _ => exact ⟨[_], rfl, by simp⟩

theorem posts_deliver (purpose : Purpose) (frames : List Frame) :
    y.Posts (y.deliver token purpose frames).1 := by
  cases frames with
  | nil => exact posts_finish purpose
  | cons frame rest => exact posts_of_channel_eq rfl

theorem posts_startRoute (request : RouteCommand) : y.Posts (y.startRoute token request).1 := by
  rw [startRoute]
  split
  · rcases y.setRoute_cases token request with
        ⟨reason, h⟩ | ⟨cause, h⟩ | ⟨route, resolved, frames, -, h⟩
    · exact h ▸ posts_publish (by simp)
    · exact h ▸ posts_publish (by simp)
    · exact h ▸ posts_deliver _ _
  · split
    · rcases y.releaseRoute_cases token request with ⟨-, h⟩ | ⟨-, ⟨cause, -, h⟩ | ⟨frames, -, h⟩⟩
      · exact h ▸ posts_publish (by simp)
      · exact h ▸ posts_publish (by simp)
      · exact h ▸ posts_deliver _ _
    · exact posts_publish (by simp)

/-- **Beginnings** of commands do not ask for a reload, unless they are requests to reload. -/
theorem posts_startCommand {c : Command} (hc : c ≠ .control .reload) :
    y.Posts (y.startCommand token c).1 := by
  cases c with
  | point c =>
    rw [startCommand]
    rcases y.startPoint_cases token c with ⟨outcome, -, h⟩ | ⟨cause, h⟩ | ⟨point, frames, -, h⟩
    · exact h ▸ posts_publish (by simp)
    · exact h ▸ posts_publish (by simp)
    · exact h ▸ posts_deliver _ _
  | route request => exact posts_startRoute request
  | turntable c =>
    rw [startCommand, startTurntable]
    split
    · exact posts_publish (by simp)
    · split
      · exact posts_publish (by simp)
      · exact posts_deliver _ _
  | control c =>
    cases c with
    | reload => exact absurd rfl hc
    | clearAllRoutes =>
      rw [startCommand]
      rcases y.clearAllRoutes_cases token with ⟨cause, -, h⟩ | ⟨frames, -, h⟩
      · exact h ▸ posts_publish (by simp)
      · exact h ▸ posts_deliver _ _
    | stopAllSignals => exact posts_showSignals _ _

end Yard

/-! ### Commands that have the yard to themselves -/

namespace Activity

/-- **One step of a delivery** does not ask for a reload. -/
theorem posts_step (y : Yard) (a : Activity) : y.Posts (a.step y).1 := by
  obtain ⟨line, setOff, hd⟩ := a.delivery.step_eq y
  have hz : (a.delivery.step y).1.channel = y.channel := by rw [hd]
  rw [step]
  split
  next z delivery hs =>
    rw [hs] at hz
    exact Yard.posts_of_channel_eq hz
  next z failure hs =>
    rw [hs] at hz
    exact (Yard.posts_of_channel_eq hz).trans (Yard.posts_abandon failure a.purpose)
  next z hs =>
    rw [hs] at hz
    exact (Yard.posts_of_channel_eq hz).trans (Yard.posts_finish a.purpose)

end Activity

namespace Task

variable {y z w : Yard} {result : JobResult}

/-- **One step of a command in flight** does not ask for a reload. -/
theorem posts_step_inFlight (y : Yard) (a : Activity) (alert : Bool) :
    y.Posts ((inFlight a alert).step y).1 := by
  have hlisten : (y.listen a.delivery.token).channel = y.channel := channel_listen _
  cases alert with
  | true =>
    rw [step, ofProgress_fst]
    exact a.posts_step y.spend
  | false =>
    rw [step, look]
    split
    · rw [ofProgress_fst]
      exact a.posts_step y
    · dsimp only
      split
      · rw [ofProgress_fst]
        exact (Yard.posts_of_channel_eq hlisten).trans (a.posts_step _)
      · exact Yard.posts_of_channel_eq hlisten

theorem posts_of_waits (h : y.Waits z) : y.Posts z := by
  obtain ⟨faults, attempts, setOff, now, allowance, rfl⟩ := h
  exact Yard.posts_of_channel_eq rfl

/-- A command that has begun does not ask for a reload any more. -/
theorem posts_of_begun {task : Task} (hbegun : (∃ a alert, task = .inFlight a alert) ∨
    ∃ result time, task = .ended result time) (h : Completes y task result w) : y.Posts w := by
  induction h with
  | ended y result time => exact Yard.posts_of_channel_eq rfl
  | wait hw _ ih => exact (posts_of_waits hw).trans (ih hbegun)
  | @step y w task result hr h ih =>
    rcases hbegun with ⟨a, alert, rfl⟩ | ⟨result', time, rfl⟩
    · have hafter := (Activity.goes_step hr).inFlight_or_ended
      exact (posts_step_inFlight y a alert).trans
        (ih (hafter.imp_left fun ⟨a', alert', ha, _⟩ ↦ ⟨a', alert', ha⟩))
    · cases hr

/-- **A command that is done** does not ask for a reload, unless it is the request to reload. -/
theorem posts_of_completes {c : Command} {token : Token} (hc : c ≠ .control .reload)
    (h : Completes y (.pending (.command c token)) result w) : y.Posts w := by
  obtain ⟨z, hz, h⟩ := begin_of_completes_pending h
  have hbegin : z.Posts (begin z (.command c token)).1 := by
    rw [begin, ofProgress_fst]
    exact Yard.posts_startCommand hc
  refine (posts_of_waits hz).trans (hbegin.trans (posts_of_begun ?_ h))
  rcases ofProgress_cases (z.startCommand token c) with ⟨a, ha⟩ | hended
  · exact .inl ⟨a, false, ha⟩
  · exact .inr hended

theorem channel_of_completes_ended {time : Nat} {result' : JobResult}
    (h : Completes y (.ended result' time) result w) : w.channel = y.channel := by
  generalize ht : Task.ended result' time = task at h
  induction h with
  | ended => rfl
  | wait hw _ ih =>
    obtain ⟨faults, attempts, setOff, now, allowance, rfl⟩ := hw
    exact ih ht
  | step hr =>
    subst ht
    cases hr

/-- **The request to reload** is told at once. -/
theorem channel_of_completes_reload {token : Token}
    (h : Completes y (.pending (.command (.control .reload) token)) result w) :
    w.channel = y.channel.publish .reloadRequested := by
  obtain ⟨z, ⟨faults, attempts, setOff, now, allowance, rfl⟩, h⟩ := begin_of_completes_pending h
  exact channel_of_completes_ended h

/-- What a task that reports has told in the end mirrors its result. -/
theorem reports_of_completes {c : Command} {active : Reservations} {told : List Notice}
    {task : Task} (h : Completes y task result w) (hreports : c.Reports active told task) :
    ∃ more time, y.Tells more w ∧ c.Reports active (told ++ more) (.ended result time) := by
  induction h generalizing told with
  | ended y result time =>
    exact ⟨[], time, Yard.tells_of_channel_eq rfl, (List.append_nil told).symm ▸ hreports⟩
  | wait hw _ ih =>
    obtain ⟨faults, attempts, setOff, now, allowance, rfl⟩ := hw
    exact ih hreports
  | step hr _ ih =>
    obtain ⟨more, hmore, hafter⟩ := hreports.step hr
    obtain ⟨rest, time, hrest, hended⟩ := ih hafter
    exact ⟨more ++ rest, time, hmore.trans hrest, List.append_assoc told more rest ▸ hended⟩

/-- **A command that is done** has told what mirrors its result, unless it is the stop of all
signals. -/
theorem mirrors_of_completes {c : Command} {token : Token}
    (hc : c ≠ .control .stopAllSignals)
    (h : Completes y (.pending (.command c token)) result w) :
    ∃ told outcome, y.Tells told w ∧ c.Mirrors y.active outcome told := by
  obtain ⟨z, ⟨faults, attempts, setOff, now, allowance, rfl⟩, h⟩ := begin_of_completes_pending h
  obtain ⟨first, hfirst, hreports⟩ := Command.informs_startCommand _ token c
  obtain ⟨more, time, hmore, hended⟩ := reports_of_completes h hreports
  have htells := hfirst.trans hmore
  generalize first ++ more = told at htells hended
  cases hended with
  | ended hmirrors => exact ⟨told, _, htells, hmirrors⟩
  | stopping hstop => exact absurd hstop hc

end Task

namespace Command

/-- A command that tells one notice, whatever becomes of it: it neither releases routes one by one
nor stops all signals. -/
def TellsOnce : Command → Prop
  | route request => request.state.isTeardown = false
  | control .stopAllSignals => False
  | _ => True

instance : DecidablePred TellsOnce := fun c ↦ by
  unfold TellsOnce
  split <;> infer_instance

variable {c : Command}

theorem TellsOnce.ne_stopAllSignals (h : c.TellsOnce) : c ≠ .control .stopAllSignals := by
  rintro rfl
  exact h

/-- What mirrors the result of such a command is one notice. -/
theorem TellsOnce.length_of_mirrors {active : Reservations} {result : Except Failure Outcome}
    {told : List Notice} (h : c.TellsOnce) (hmirrors : c.Mirrors active result told) :
    told.length = 1 := by
  cases hmirrors with
  | failed | ended => rfl
  | released hteardown => exact absurd (hteardown.symm.trans h) (by simp)

end Command

/-! ### Sessions -/

namespace Session

variable {s : Session} {token : Token} {c : Command} {commands before after : List Command}

/-- **A job that a session does** has the yard to itself until it ends. -/
theorem doOne_completes (s : Session) (job : Job) : ∃ w result,
    s.doOne job = ({ s with yard := w }, some result) ∧
      Task.Completes s.yard (.pending job) result w := by
  obtain ⟨w, result, time, hrun⟩ := Schedule.run_singleton s.yard (.pending job)
  refine ⟨w, result, ?_, Traffic.completes_of_schedule hrun⟩
  have hjobs : [(0, job)].map (fun j ↦ Task.ofJob s.yard j.1 j.2) = [.pending job] := rfl
  rw [doOne, doAll, Yard.doAll, hjobs, hrun]
  rfl

/-- The session after commands have been done one after another. -/
def carryOut (s : Session) (commands : List Command) : Session :=
  (s.doInTurn .never commands).1

/-- The notices that commands tell when they are done one after another. -/
def told (s : Session) (commands : List Command) : List Notice :=
  (s.carryOut commands).yard.channel.published.drop s.yard.channel.tail

@[simp] theorem carryOut_nil (s : Session) : s.carryOut [] = s := rfl

@[simp] theorem told_nil (s : Session) : s.told [] = [] := by
  rw [Session.told, carryOut_nil]
  exact List.drop_length

theorem carryOut_cons (s : Session) (c : Command) (commands : List Command) :
    s.carryOut (c :: commands) = (s.doOne (.command c .never)).1.carryOut commands := by
  rw [carryOut, doInTurn]
  dsimp only
  split <;> rfl

theorem carryOut_append (s : Session) (before after : List Command) :
    s.carryOut (before ++ after) = (s.carryOut before).carryOut after := by
  induction before generalizing s with
  | nil => rfl
  | cons c before ih => rw [List.cons_append, carryOut_cons, carryOut_cons, ih]

/-- **One command** changes nothing but the yard, of which it leaves the layout as it is, and
publishes notices. One of them asks for a reload only if the command does, and there is only one if
the command tells one. -/
theorem doOne_command (s : Session) (c : Command) : ∃ w told,
    (s.doOne (.command c .never)).1 = { s with yard := w } ∧ w.plan = s.yard.plan ∧
      w.channel = { s.yard.channel with published := s.yard.channel.published ++ told } ∧
      (c ≠ .control .reload → .reloadRequested ∉ told) ∧ (c.TellsOnce → told.length = 1) := by
  obtain ⟨w, result, hdone, hcompletes⟩ := s.doOne_completes (.command c .never)
  obtain ⟨sent, heffect⟩ := Yard.effect_of_completes rfl hcompletes
  have hyard : (s.doOne (.command c .never)).1 = { s with yard := w } := by rw [hdone]
  by_cases hc : c = .control .reload
  · subst hc
    exact ⟨w, [.reloadRequested], hyard, heffect.plan_eq,
      Task.channel_of_completes_reload hcompletes, fun h ↦ absurd rfl h, fun _ ↦ rfl⟩
  · obtain ⟨told, hchannel, hnotin⟩ := Task.posts_of_completes hc hcompletes
    refine ⟨w, told, hyard, heffect.plan_eq, hchannel, fun _ ↦ hnotin, fun honce ↦ ?_⟩
    obtain ⟨told', outcome, htells, hmirrors⟩ :=
      Task.mirrors_of_completes honce.ne_stopAllSignals hcompletes
    have hpublished : w.channel.published = s.yard.channel.published ++ told := by rw [hchannel]
    rw [List.append_cancel_left (hpublished.symm.trans htells)]
    exact honce.length_of_mirrors hmirrors

/-- **Commands** change nothing but the yard, of which they leave the layout as it is, and publish
notices. -/
theorem carryOut_eq (s : Session) (commands : List Command) : ∃ w,
    s.carryOut commands = { s with yard := w } ∧ w.plan = s.yard.plan ∧
      w.channel = { s.yard.channel with
        published := s.yard.channel.published ++ s.told commands } := by
  suffices h : ∃ w told, s.carryOut commands = { s with yard := w } ∧ w.plan = s.yard.plan ∧
      w.channel = { s.yard.channel with published := s.yard.channel.published ++ told } by
    obtain ⟨w, told, hw, hplan, hchannel⟩ := h
    have htold : s.told commands = told := by
      rw [Session.told, hw, hchannel]
      exact List.drop_left
    exact ⟨w, hw, hplan, htold ▸ hchannel⟩
  induction commands generalizing s with
  | nil => exact ⟨s.yard, [], rfl, rfl, by rw [List.append_nil]⟩
  | cons c commands ih =>
    obtain ⟨z, first, hz, hplan, hchannel, -⟩ := s.doOne_command c
    obtain ⟨w, rest, hw, hplan', hchannel'⟩ := ih { s with yard := z }
    refine ⟨w, first ++ rest, ?_, hplan'.trans hplan, ?_⟩
    · rw [carryOut_cons, hz, hw]
    · rw [hchannel', hchannel, List.append_assoc]

/-- **The layout** is the same after commands have been done. -/
theorem layout_carryOut (s : Session) (commands : List Command) :
    (s.carryOut commands).yard.layout = s.yard.layout := by
  obtain ⟨w, hw, hplan, -⟩ := s.carryOut_eq commands
  rw [hw]
  exact congrArg Plan.layout hplan

/-- **The channel** has the notices of the commands after those that it had. -/
theorem channel_carryOut (s : Session) (commands : List Command) :
    (s.carryOut commands).yard.channel = { s.yard.channel with
      published := s.yard.channel.published ++ s.told commands } := by
  obtain ⟨w, hw, -, hchannel⟩ := s.carryOut_eq commands
  rw [hw]
  exact hchannel

theorem told_append (s : Session) (before after : List Command) :
    s.told (before ++ after) = s.told before ++ (s.carryOut before).told after := by
  have h := congrArg Channel.published ((s.carryOut before).channel_carryOut after)
  rw [← carryOut_append, channel_carryOut, channel_carryOut, List.append_assoc] at h
  exact List.append_cancel_left h

/-- The notices that one command tells. -/
theorem told_singleton (s : Session) (c : Command) :
    (c ≠ .control .reload → .reloadRequested ∉ s.told [c]) ∧
      (c.TellsOnce → (s.told [c]).length = 1) := by
  obtain ⟨w, told, hw, -, hchannel, hcommand⟩ := s.doOne_command c
  have htold : s.told [c] = told := by
    rw [Session.told, carryOut_cons, carryOut_nil, hw, hchannel]
    exact List.drop_left
  rwa [htold]

theorem told_reload (s : Session) : s.told [.control .reload] = [.reloadRequested] := by
  obtain ⟨w, result, hdone, hcompletes⟩ := s.doOne_completes (.command (.control .reload) .never)
  rw [Session.told, carryOut_cons, carryOut_nil, hdone,
    Task.channel_of_completes_reload hcompletes]
  exact List.drop_left

/-- **Nothing but a request to reload** asks for a reload. -/
theorem not_mem_told (s : Session) (h : .control .reload ∉ commands) :
    .reloadRequested ∉ s.told commands := by
  induction commands generalizing s with
  | nil => simp
  | cons c commands ih =>
    rw [List.mem_cons, not_or] at h
    rw [← List.singleton_append, told_append, List.mem_append, not_or]
    exact ⟨(s.told_singleton c).1 (Ne.symm h.1), ih _ h.2⟩

/-- **One notice for each command**, if each of them tells one. -/
theorem length_told (s : Session) (h : ∀ c ∈ commands, c.TellsOnce) :
    (s.told commands).length = commands.length := by
  induction commands generalizing s with
  | nil => simp
  | cons c commands ih =>
    rw [← List.singleton_append, told_append, List.length_append, List.length_append,
      (s.told_singleton c).2 (h c List.mem_cons_self), ih _ fun c' hc' ↦ h c' (.tail _ hc')]
    rfl

end Session

end SignalBox
