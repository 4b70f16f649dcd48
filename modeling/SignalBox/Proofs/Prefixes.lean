import SignalBox.Proofs.Course

/-!
# Deliveries as prefixes

The frames of a command go out one by one, while other commands do the same on the same line, and at
any time the command may be cancelled or the line may refuse a frame. The main statement
(`delivers_prefix`) says what becomes of one delivery among any others: what has been sent of it is
a prefix of its frames, with a pause before each; the end of the delivery tells how long the prefix
is, and has its cause in the run (`Stage`); and every schedule comes to this end.

* **Moves** of other tasks leave a delivery as it is, and each move of its own sends at most the
  frame at hand (`furthers_move`). The pause is kept because a wait is never shortened
  (`Activity.Paced`).
* **Ends**: what is over stays so, and sends nothing more (`sentFor_of_isOver`). Nor does what has
  been cancelled (`sentFor_of_isCancelled`), although it may take a while to find out.

The stop of all signals makes one delivery for each signal. Each is a delivery in the sense of this
module, and its end tells how far it came itself.
-/

namespace SignalBox

/-! ### Frames with pauses between them -/

/-- Frames that have been sent are the first `k` of a list, and before each there is a pause, the
first time counted from the given time. -/
structure PacedPrefix (delay last : Nat) (frames : List Frame) (k : Nat)
    (sent : List AcceptedFrame) : Prop where
  frames_eq : sent.map (·.frame) = frames.take k
  paced : List.IsChain (fun s s' ↦ s + delay ≤ s') (last :: sent.map (·.time))

namespace PacedPrefix

variable {delay last now k : Nat} {frame : Frame} {frames : List Frame}
  {sent : List AcceptedFrame}

theorem nil (delay last : Nat) (frames : List Frame) : PacedPrefix delay last frames 0 [] :=
  ⟨rfl, .singleton last⟩

theorem cons (hdue : last + delay ≤ now) (h : PacedPrefix delay now frames k sent) :
    PacedPrefix delay last (frame :: frames) (k + 1) (⟨frame, now⟩ :: sent) :=
  ⟨congrArg (frame :: ·) h.frames_eq, .cons_cons hdue h.paced⟩

end PacedPrefix

/-- A command in flight keeps to the pause after the given time. -/
def Activity.Paced (y : Yard) (last : Nat) (a : Activity) : Prop :=
  match a.delivery.wait with
  | .pause due => last + y.delay ≤ due
  | .write _ => last + y.delay ≤ y.now

theorem Activity.Paced.grows {y z : Yard} {last : Nat} {a : Activity} (h : a.Paced y last)
    (hz : y.Grows z) : a.Paced z last := by
  rw [Paced.eq_def] at h ⊢
  rw [hz.delay_eq]
  split at h
  · exact h
  · exact Nat.le_trans h hz.now_le

namespace Traffic

variable {t : Traffic} {m : Move} {moves : List Move} {place last : Nat} {a a' : Activity}
  {alert : Bool} {token : Token} {purpose : Purpose}

/-! ### What is sent of a delivery -/

/-- The task at a place is in flight for a purpose. -/
def isSending (t : Traffic) (place : Nat) (purpose : Purpose) : Bool :=
  match t.tasks[place]? with
  | some (.inFlight a _) => a.purpose = purpose
  | _ => false

/-- What a move sends for a purpose of the task at a place. -/
def sentBy (t : Traffic) (place : Nat) (purpose : Purpose) (m : Move) : List AcceptedFrame :=
  if m = .go place ∧ t.isSending place purpose = true then t.sentIn m else []

/-- What moves send for a purpose of the task at a place. -/
def sentFor (t : Traffic) (place : Nat) (purpose : Purpose) : List Move → List AcceptedFrame
  | [] => []
  | m :: moves => t.sentBy place purpose m ++ (t.move m).sentFor place purpose moves

theorem isSending_iff :
    t.isSending place purpose = true ↔
      ∃ a alert, t.tasks[place]? = some (.inFlight a alert) ∧ a.purpose = purpose := by
  rw [isSending.eq_def]
  split
  next a alert ht => simp [ht]
  next hother =>
    refine iff_of_false Bool.false_ne_true ?_
    rintro ⟨a, alert, ht, -⟩
    exact hother a alert ht

theorem sentBy_of_inFlight (ht : t.tasks[place]? = some (.inFlight a alert)) :
    t.sentBy place a.purpose (.go place) = t.sentIn (.go place) :=
  if_pos ⟨rfl, isSending_iff.2 ⟨a, alert, ht, rfl⟩⟩

theorem sentBy_of_not_isSending (h : t.isSending place purpose = false) (m : Move) :
    t.sentBy place purpose m = [] :=
  if_neg fun hm ↦ Bool.false_ne_true (h.symm.trans hm.2)

/-- What is sent for one purpose is a part of what the line accepts. -/
theorem sentFor_sublist (t : Traffic) (place : Nat) (purpose : Purpose) (moves : List Move) :
    ∃ log, (t.run moves).yard.line.accepted = t.yard.line.accepted ++ log ∧
      (t.sentFor place purpose moves).Sublist log := by
  induction moves generalizing t with
  | nil => exact ⟨[], (List.append_nil _).symm, .slnil⟩
  | cons m moves ih =>
    obtain ⟨log, hlog, hsub⟩ := ih (t.move m)
    refine ⟨t.sentIn m ++ log, ?_, List.Sublist.append ?_ hsub⟩
    · rw [run_cons, hlog, accepted_move, List.append_assoc]
    · rw [sentBy]
      split
      · exact .refl _
      · exact List.nil_sublist _

/-! ### After the end -/

/-- What the task at a place has been in flight for is over: the task has ended, or it has gone on
for something that leaves it fewer steps. -/
def IsOver (t : Traffic) (place : Nat) (purpose : Purpose) : Prop :=
  (∃ result time, t.tasks[place]? = some (.ended result time)) ∨
    ∃ a alert, t.tasks[place]? = some (.inFlight a alert) ∧
      a.purpose.stepsLeft < purpose.stepsLeft

theorem isOver_move (h : t.IsOver place purpose) (m : Move) : (t.move m).IsOver place purpose := by
  rcases h with ⟨result, time, ht⟩ | ⟨a, alert, ht, hlt⟩
  · exact .inl ⟨result, time, ended_move ht m⟩
  · rcases inFlight_or_ended_move ht m with ⟨a', alert', ht', hfollows⟩ | hended
    · refine .inr ⟨a', alert', ht', ?_⟩
      cases hfollows with
      | goesOn hpurpose => exact hpurpose ▸ hlt
      | nextSignal _ _ hless => exact Nat.lt_trans hless hlt
    · exact .inl hended

theorem isOver_run (h : t.IsOver place purpose) (moves : List Move) :
    (t.run moves).IsOver place purpose :=
  run_induction (P := fun u ↦ u.IsOver place purpose) h (fun m h ↦ isOver_move h m) moves

theorem isSending_of_isOver (h : t.IsOver place purpose) : t.isSending place purpose = false := by
  rw [Bool.eq_false_iff, ne_eq, isSending_iff]
  rintro ⟨a, alert, ht, rfl⟩
  rcases h with ⟨result, time, ht'⟩ | ⟨a', alert', ht', hlt⟩
  · exact absurd (ht.symm.trans ht') (by simp)
  · obtain ⟨rfl, -⟩ := Task.inFlight.inj (Option.some.inj (ht.symm.trans ht'))
    exact Nat.lt_irrefl _ hlt

/-- **What is over** sends nothing. -/
theorem sentFor_of_isOver (h : t.IsOver place purpose) (moves : List Move) :
    t.sentFor place purpose moves = [] := by
  induction moves generalizing t with
  | nil => rfl
  | cons m moves ih =>
    rw [sentFor, sentBy_of_not_isSending (isSending_of_isOver h), ih (isOver_move h m)]
    rfl

/-- What goes on after the last frame is over as far as this delivery is concerned. -/
theorem isOver_of_finish {y : Yard}
    (h : t.tasks[place]? = some (Task.ofProgress (y.finish token purpose)).2) :
    t.IsOver place purpose := by
  rcases Task.ofProgress_cases (y.finish token purpose) with ⟨a, ha⟩ | ⟨result, time, hended⟩
  · obtain ⟨signal, rest, count, signal', rest', hbefore, hafter, hlt, -⟩ :=
      Yard.stopSignals_of_finish (Task.underWay_of_ofProgress ha)
    refine .inr ⟨a, false, h.trans (congrArg _ ha), ?_⟩
    rw [hbefore, hafter, Purpose.stepsLeft, Purpose.stepsLeft]
    omega
  · exact .inl ⟨result, time, h.trans (congrArg _ hended)⟩

/-! ### After a cancellation -/

/-- The task at a place is in flight for a purpose and may be cancelled by a token, unless this is
over. -/
def Heeds (t : Traffic) (place : Nat) (token : Token) (purpose : Purpose) : Prop :=
  (∃ a alert, t.tasks[place]? = some (.inFlight a alert) ∧ a.purpose = purpose ∧
    a.delivery.token = token) ∨ t.IsOver place purpose

theorem heeds_move (h : t.Heeds place token purpose) (m : Move) :
    (t.move m).Heeds place token purpose := by
  rcases h with ⟨a, alert, ht, rfl, rfl⟩ | hover
  · rcases inFlight_or_ended_move ht m with ⟨a', alert', ht', hfollows⟩ | hended
    · cases hfollows with
      | goesOn hpurpose htoken => exact .inl ⟨a', alert', ht', hpurpose, htoken⟩
      | nextSignal _ _ hless => exact .inr (.inr ⟨a', alert', ht', hless⟩)
    · exact .inr (.inl hended)
  · exact .inr (isOver_move hover m)

theorem heeds_run (h : t.Heeds place token purpose) (moves : List Move) :
    (t.run moves).Heeds place token purpose :=
  run_induction (P := fun u ↦ u.Heeds place token purpose) h (fun m h ↦ heeds_move h m) moves

/-- **What has been cancelled** sends nothing. -/
theorem sentFor_of_isCancelled (h : t.Heeds place token purpose)
    (hset : t.yard.isCancelled token = true) (moves : List Move) :
    t.sentFor place purpose moves = [] := by
  induction moves generalizing t with
  | nil => rfl
  | cons m moves ih =>
    rw [sentFor, ih (heeds_move h m) ((t.grows_move m).isCancelled hset), List.append_nil]
    rcases h with ⟨a, alert, ht, rfl, rfl⟩ | hover
    · rw [sentBy]
      split
      next hm =>
        obtain ⟨rfl, -⟩ := hm
        refine sentIn_of_not_delivers ht ?_
        rintro frame ⟨a', alert', ht', hdelivers, -⟩
        obtain ⟨rfl, -⟩ := Task.inFlight.inj (Option.some.inj (ht.symm.trans ht'))
        exact absurd (hset.symm.trans hdelivers.going) (by simp)
      next => rfl
    · exact sentBy_of_not_isSending (isSending_of_isOver hover) m

/-! ### One move -/

/-- What a move makes of a command in flight, and what it sends of its delivery. The pause is
counted from the frame before, or from the start. -/
inductive Furthers (t : Traffic) (place : Nat) (a : Activity) (last : Nat) (m : Move) :
    List AcceptedFrame → Prop
  /-- It goes on waiting for its frame. -/
  | waits {a' : Activity} {alert' : Bool}
      (hafter : (t.move m).tasks[place]? = some (.inFlight a' alert'))
      (hpurpose : a'.purpose = a.purpose) (htoken : a'.delivery.token = a.delivery.token)
      (hcount : a'.delivery.sent = a.delivery.sent)
      (hframes : a'.delivery.frames = a.delivery.frames) (hpaced : a'.Paced (t.move m).yard last) :
      Furthers t place a last m []
  /-- It has been cancelled. -/
  | cancelled {time : Nat} (hset : t.yard.isCancelled a.delivery.token = true)
      (hafter : (t.move m).tasks[place]? =
        some (.ended (.command (.error (.cancelled a.delivery.sent))) time)) :
      Furthers t place a last m []
  /-- The line has refused its frame. -/
  | refused {time : Nat} (hm : m = .go place) (hrefuses : t.yard.Refuses)
      (hafter : (t.move m).tasks[place]? = some (.ended (.command (.error
        (.transport a.delivery.sent (.refused t.yard.line.attempts)))) time)) :
      Furthers t place a last m []
  /-- Its frame has been sent, and it waits for the next one. -/
  | sends {a' : Activity} {alert' : Bool} (hdue : last + t.yard.delay ≤ t.yard.now)
      (hafter : (t.move m).tasks[place]? = some (.inFlight a' alert'))
      (hpurpose : a'.purpose = a.purpose) (htoken : a'.delivery.token = a.delivery.token)
      (hcount : a'.delivery.sent = a.delivery.sent + 1)
      (hframes : a.delivery.frames = a.delivery.frame :: a'.delivery.frames)
      (hpaced : a'.Paced (t.move m).yard t.yard.now) :
      Furthers t place a last m [⟨a.delivery.frame, t.yard.now⟩]
  /-- Its last frame has been sent. -/
  | completes {y : Yard} (hdue : last + t.yard.delay ≤ t.yard.now)
      (hframes : a.delivery.frames = [a.delivery.frame])
      (hafter : (t.move m).tasks[place]? =
        some (Task.ofProgress (y.finish a.delivery.token a.purpose)).2) :
      Furthers t place a last m [⟨a.delivery.frame, t.yard.now⟩]

/-- **A step** of a command in flight sends the frame at hand, or nothing. -/
theorem furthers_of_goes {p : Yard × Task} {sent : List AcceptedFrame}
    (hgoes : a.Goes t.yard p) (hpaced : a.Paced t.yard last)
    (hyard : (t.move (.go place)).yard = p.1)
    (hafter : (t.move (.go place)).tasks[place]? = some p.2)
    (hsent : p.1.line.accepted = t.yard.line.accepted ++ sent) :
    t.Furthers place a last (.go place) sent := by
  have hnone (hidle : ¬ a.Delivers t.yard) : sent = [] := by
    rw [hgoes.accepted_of_not_delivers hidle] at hsent
    exact List.append_cancel_left (hsent.symm.trans (List.append_nil _).symm)
  have hone (hdelivers : a.Delivers t.yard) :
      sent = [⟨a.delivery.frame, t.yard.now⟩] ∧ last + t.yard.delay ≤ t.yard.now := by
    obtain ⟨due, hwait, -⟩ := hdelivers.due
    rw [hgoes.accepted_of_delivers hdelivers] at hsent
    rw [Activity.Paced, hwait] at hpaced
    exact ⟨(List.append_cancel_left hsent).symm, hpaced⟩
  cases hgoes with
  | listens hz hidle =>
    rw [hnone hidle]
    exact .waits hafter rfl rfl rfl rfl (hpaced.grows (hyard ▸ hz.grows))
  | @cancelled z hz hset =>
    rw [hnone fun hd ↦ Bool.false_ne_true (hd.going.symm.trans hset)]
    rw [Task.ofProgress_snd_of_done (z.abandon_snd _ _)] at hafter
    exact .cancelled hset hafter
  | @writes z due due' hz hwait hdue =>
    have hidle : ¬ a.Delivers t.yard := fun hd ↦ by
      obtain ⟨due, hwrite, -⟩ := hd.due
      exact absurd (hwait.symm.trans hwrite) (by simp)
    rw [hnone hidle]
    refine .waits hafter rfl rfl rfl rfl ?_
    show last + (t.move (.go place)).yard.delay ≤ (t.move (.go place)).yard.now
    rw [Activity.Paced, hwait] at hpaced
    rw [hyard, hz.grows.delay_eq]
    exact Nat.le_trans (Nat.le_trans hpaced hdue) hz.grows.now_le
  | @refused z hz hrefuses =>
    rw [hnone fun hd ↦ hd.accepts hrefuses]
    rw [Task.ofProgress_snd_of_done (z.abandon_snd _ _)] at hafter
    exact .refused rfl hrefuses hafter
  | sends hz hdelivers hrest =>
    obtain ⟨rfl, hdue⟩ := hone hdelivers
    refine .sends hdue hafter rfl rfl rfl (congrArg _ hrest) ?_
    show t.yard.now + (t.move (.go place)).yard.delay ≤ t.yard.now + t.yard.delay
    exact Nat.le_of_eq (by rw [hyard, hz.grows.delay_eq])
  | completes hz hdelivers hrest =>
    obtain ⟨rfl, hdue⟩ := hone hdelivers
    exact .completes hdue (by rw [Delivery.frames, hrest]) hafter

/-- **Any move** leaves a delivery as it is, unless it is the move of this task. -/
theorem furthers_move (ht : t.tasks[place]? = some (.inFlight a alert))
    (hpaced : a.Paced t.yard last) (m : Move) :
    t.Furthers place a last m (t.sentBy place a.purpose m) := by
  by_cases hm : m = .go place
  · subst hm
    rw [sentBy_of_inFlight ht]
    cases hr : (Task.inFlight a alert).isReady t.yard with
    | false =>
      have hsame : t.move (.go place) = t := advance_of_not_ready ht hr
      rw [sentIn_of_accepted_eq (by rw [hsame])]
      exact .waits (hsame ▸ ht) rfl rfl rfl rfl (hsame.symm ▸ hpaced)
    | true =>
      have hmove : t.move (.go place) = _ := advance_of_ready ht hr
      refine furthers_of_goes (Activity.goes_step hr) hpaced (congrArg yard hmove) ?_
        (by rw [← accepted_move, hmove])
      rw [hmove]
      exact List.getElem?_set_self (List.getElem?_eq_some_iff.1 ht).1
  · rw [sentBy, if_neg fun h ↦ hm h.1]
    exact .waits (tasks_move_of_ne ht hm) rfl rfl rfl rfl (hpaced.grows (t.grows_move m))

/-! ### Many moves -/

/-- How moves leave a delivery of `n` frames when they have sent `k` of them. -/
inductive Stage (t : Traffic) (place : Nat) (token : Token) (purpose : Purpose)
    (moves : List Move) (n k : Nat) : Prop
  /-- It is under way. -/
  | underWay (hk : k < n) (hsending : (t.run moves).isSending place purpose = true)
  /-- It has been cancelled, after the cancellation had been set off. -/
  | cancelled (hk : k < n) (hset : (t.run moves).yard.isCancelled token = true) (time : Nat)
      (hresult : (t.run moves).result? place = some (.command (.error (.cancelled k)), time))
  /-- In one of its own moves the line has refused the frame at hand. -/
  | refused (hk : k < n) (first since : List Move) (hmoves : moves = first ++ .go place :: since)
      (hrefuses : (t.run first).yard.Refuses) (time : Nat)
      (hresult : (t.run moves).result? place = some (.command (.error
        (.transport k (.refused (t.run first).yard.line.attempts))), time))
  /-- It is complete, and the command has its outcome, unless it goes on with another delivery. -/
  | complete (hk : k = n) (hover : (t.run moves).isSending place purpose = false)
      (hresult : ∀ outcome, purpose.outcome? = some outcome →
        ∃ time, (t.run moves).result? place = some (.command (.ok outcome), time))

theorem Stage.cons {n k : Nat} (h : (t.move m).Stage place token purpose moves n k) :
    t.Stage place token purpose (m :: moves) n k := by
  cases h with
  | underWay hk hsending => exact .underWay hk hsending
  | cancelled hk hset time hresult => exact .cancelled hk hset time hresult
  | refused hk first since hmoves hrefuses time hresult =>
    exact .refused hk (m :: first) since (congrArg (m :: ·) hmoves) hrefuses time hresult
  | complete hk hover hresult => exact .complete hk hover hresult

theorem stage_of_finish {y : Yard} {token' : Token} (n : Nat)
    (h : t.tasks[place]? = some (Task.ofProgress (y.finish token' purpose)).2)
    (moves : List Move) : t.Stage place token purpose moves n n := by
  refine .complete rfl (isSending_of_isOver (isOver_run (isOver_of_finish h) moves))
    fun outcome ho ↦ ?_
  rw [Task.ofProgress_snd_of_done (Yard.finish_snd ho)] at h
  exact ⟨_, result?_eq_some_iff.2 (ended_run moves h)⟩

/-- **Many moves** send a prefix of what is left of a delivery. -/
theorem prefix_run (ht : t.tasks[place]? = some (.inFlight a alert))
    (hpaced : a.Paced t.yard last) (moves : List Move) :
    ∃ k, PacedPrefix t.yard.delay last a.delivery.frames k (t.sentFor place a.purpose moves) ∧
      t.Stage place a.delivery.token a.purpose moves
        (a.delivery.sent + a.delivery.frames.length) (a.delivery.sent + k) := by
  have hpos : 0 < a.delivery.frames.length := Nat.succ_pos _
  induction moves generalizing t a alert last with
  | nil =>
    exact ⟨0, .nil _ _ _, .underWay (by omega) (isSending_iff.2 ⟨a, alert, ht, rfl⟩)⟩
  | cons m moves ih =>
    have hdelay : (t.move m).yard.delay = t.yard.delay := (t.grows_move m).delay_eq
    have hfurthers := furthers_move ht hpaced m
    rw [sentFor]
    generalize t.sentBy place a.purpose m = sent at hfurthers
    cases hfurthers with
    | waits hafter hpurpose htoken hcount hframes hpaced' =>
      obtain ⟨k, hsent, hstage⟩ := ih hafter hpaced' (Nat.succ_pos _)
      rw [hpurpose, hframes, hdelay] at hsent
      rw [htoken, hpurpose, hcount, hframes] at hstage
      exact ⟨k, hsent, hstage.cons⟩
    | @cancelled time hset hafter =>
      rw [sentFor_of_isOver (.inl ⟨_, time, hafter⟩)]
      exact ⟨0, .nil _ _ _, .cancelled (by omega) ((t.grows_run (m :: moves)).isCancelled hset)
        time (result?_eq_some_iff.2 (ended_run moves hafter))⟩
    | @refused time hm hrefuses hafter =>
      rw [sentFor_of_isOver (.inl ⟨_, time, hafter⟩)]
      exact ⟨0, .nil _ _ _, .refused (by omega) [] moves (congrArg (· :: moves) hm) hrefuses
        time (result?_eq_some_iff.2 (ended_run moves hafter))⟩
    | @sends a' alert' hdue hafter hpurpose htoken hcount hframes hpaced' =>
      obtain ⟨k, hsent, hstage⟩ := ih hafter hpaced' (Nat.succ_pos _)
      rw [hpurpose, hdelay] at hsent
      rw [htoken, hpurpose, hcount, Nat.add_assoc, Nat.add_assoc, Nat.add_comm 1,
        Nat.add_comm 1] at hstage
      rw [hframes]
      exact ⟨k + 1, hsent.cons hdue, hstage.cons⟩
    | completes hdue hframes hafter =>
      rw [sentFor_of_isOver (isOver_of_finish hafter), hframes]
      exact ⟨1, .cons hdue (.nil _ _ _), (stage_of_finish _ hafter moves).cons⟩

/-! ### The end of a delivery -/

/-- **Progress**: the schedule is a run in which every task comes to its end. -/
theorem ends_schedule (t : Traffic) (h : place < t.tasks.length) :
    ∃ moves, t.run moves =
        ⟨(Schedule.run t.yard t.tasks).1, (Schedule.run t.yard t.tasks).2⟩ ∧
      ((t.run moves).result? place).isSome = true := by
  obtain ⟨moves, hmoves⟩ := reaches_schedule t.yard t.tasks
  refine ⟨moves, hmoves, ?_⟩
  have hlt := Nat.lt_of_lt_of_le h (t.length_tasks_le_run moves)
  have hall : ∀ task ∈ (t.run moves).tasks, ∃ result time, task = .ended result time := by
    rw [congrArg tasks hmoves]
    exact Schedule.ended_of_settle _ _
  obtain ⟨result, time, hended⟩ := hall _ (List.getElem_mem hlt)
  rw [Option.isSome_iff_exists]
  exact ⟨_, result?_eq_some_iff.2 ((List.getElem?_eq_getElem hlt).trans (congrArg _ hended))⟩

/-! ### A delivery without others -/

theorem tasks_move_eq_none (h : t.tasks[place]? = none) (hm : ∀ delay job, m ≠ .join delay job) :
    (t.move m).tasks[place]? = none := by
  cases m with
  | join delay job => exact absurd rfl (hm delay job)
  | go other =>
    by_cases he : other = place
    · rw [he, move, advance_of_none h, h]
    · rw [move, tasks_advance_of_ne he, h]
  | _ => exact h

/-- What the line accepts in a move is sent by the only task, which is in flight or has ended. -/
theorem sentIn_eq_sentBy (halone : ∀ other, other ≠ place → t.tasks[other]? = none)
    (ht : (∃ a alert, t.tasks[place]? = some (.inFlight a alert) ∧ a.purpose = purpose) ∨
      ∃ result time, t.tasks[place]? = some (.ended result time)) (m : Move) :
    t.sentIn m = t.sentBy place purpose m := by
  by_cases hm : m = .go place
  · subst hm
    rcases ht with ⟨a, alert, ht, rfl⟩ | ⟨result, time, ht⟩
    · exact (sentBy_of_inFlight ht).symm
    · rw [sentBy_of_not_isSending (isSending_of_isOver (.inl ⟨result, time, ht⟩))]
      exact sentIn_of_accepted_eq (by rw [move, advance_of_not_ready ht rfl])
  · rw [sentBy, if_neg fun h ↦ hm h.1]
    refine sentIn_of_accepted_eq ?_
    cases m with
    | go other => rw [move, advance_of_none (halone other fun he ↦ hm (congrArg Move.go he))]
    | _ => rfl

/-- **Without others**, what the line accepts is what is sent of the delivery. -/
theorem accepted_run_of_alone {outcome : Outcome} (ho : purpose.outcome? = some outcome)
    (halone : ∀ other, other ≠ place → t.tasks[other]? = none)
    (ht : (∃ a alert, t.tasks[place]? = some (.inFlight a alert) ∧ a.purpose = purpose) ∨
      ∃ result time, t.tasks[place]? = some (.ended result time))
    (hjoin : ∀ delay job, Move.join delay job ∉ moves) :
    (t.run moves).yard.line.accepted = t.yard.line.accepted ++ t.sentFor place purpose moves := by
  induction moves generalizing t with
  | nil => exact (List.append_nil _).symm
  | cons m moves ih =>
    rw [run_cons, sentFor, ← List.append_assoc, ← sentIn_eq_sentBy halone ht m, ← accepted_move]
    refine ih (fun other hne ↦ tasks_move_eq_none (halone other hne) fun delay job hm ↦
      hjoin delay job (hm ▸ List.mem_cons_self)) ?_ fun delay job hm ↦
      hjoin delay job (List.mem_cons_of_mem _ hm)
    rcases ht with ⟨a, alert, ht, rfl⟩ | ⟨result, time, ht⟩
    · exact goesOn_run [m] ht ho
    · exact .inr ⟨result, time, ended_move ht m⟩

/-! ### The whole delivery -/

/-- What moves make of a delivery that begins: `k` of its frames have been sent. -/
structure DeliversPrefix (t : Traffic) (place : Nat) (token : Token) (purpose : Purpose)
    (frames : List Frame) (moves : List Move) (k : Nat) : Prop where
  /-- These are the first `k`, in order, with a pause before each. -/
  sent : PacedPrefix t.yard.delay t.yard.now frames k (t.sentFor place purpose moves)
  /-- They are among the frames that the line has accepted meanwhile. -/
  among : ∃ log, (t.run moves).yard.line.accepted = t.yard.line.accepted ++ log ∧
    (t.sentFor place purpose moves).Sublist log
  /-- They are all that the line has accepted, if there is no other task. -/
  alone : (∀ other, other ≠ place → t.tasks[other]? = none) →
    (∀ delay job, Move.join delay job ∉ moves) → purpose.outcome?.isSome = true →
    (t.run moves).yard.line.accepted = t.yard.line.accepted ++ t.sentFor place purpose moves
  /-- None has been sent since the cancellation was set off. -/
  silent : ∀ first since, moves = first ++ since → (t.run first).yard.isCancelled token = true →
    (t.run first).sentFor place purpose since = []
  /-- If the delivery has come to its end, this tells how many they are. -/
  stage : t.Stage place token purpose moves frames.length k

/-- A delivery that begins is over at once, or it heeds its token and keeps to the pause. -/
theorem begins_of_deliver {y : Yard} {frames : List Frame}
    (hyard : t.yard = (Task.ofProgress (y.deliver token purpose frames)).1)
    (ht : t.tasks[place]? = some (Task.ofProgress (y.deliver token purpose frames)).2) :
    (frames = [] ∧ t.tasks[place]? = some (Task.ofProgress (y.finish token purpose)).2) ∨
      ∃ a, t.tasks[place]? = some (.inFlight a false) ∧ a.Paced t.yard t.yard.now ∧
        a.purpose = purpose ∧ a.delivery.token = token ∧ a.delivery.sent = 0 ∧
        a.delivery.frames = frames := by
  cases frames with
  | nil => exact .inl ⟨rfl, ht⟩
  | cons frame rest =>
    refine .inr ⟨⟨purpose, .start y token frame rest⟩, ht, ?_, rfl, rfl, rfl, rfl⟩
    rw [hyard]
    exact Nat.le_refl _

theorem delivers_run {y : Yard} {frames : List Frame}
    (hyard : t.yard = (Task.ofProgress (y.deliver token purpose frames)).1)
    (ht : t.tasks[place]? = some (Task.ofProgress (y.deliver token purpose frames)).2)
    (moves : List Move) : ∃ k, t.DeliversPrefix place token purpose frames moves k := by
  rcases begins_of_deliver hyard ht with
      ⟨rfl, hfinish⟩ | ⟨a, ha, hpaced, rfl, rfl, hcount, rfl⟩
  · have hover := isOver_of_finish hfinish
    have hnone := sentFor_of_isOver hover moves
    exact
      ⟨0, {
        sent := hnone ▸ .nil _ _ _
        among := t.sentFor_sublist place purpose moves
        alone := fun halone hjoin ho ↦ by
          obtain ⟨outcome, ho⟩ := Option.isSome_iff_exists.1 ho
          rw [Task.ofProgress_snd_of_done (Yard.finish_snd ho)] at hfinish
          exact accepted_run_of_alone ho halone (.inr ⟨_, _, hfinish⟩) hjoin
        silent := fun first since _ _ ↦ sentFor_of_isOver (isOver_run hover first) since
        stage := stage_of_finish 0 hfinish moves }⟩
  · obtain ⟨k, hsent, hstage⟩ := prefix_run ha hpaced moves
    rw [hcount, Nat.zero_add, Nat.zero_add] at hstage
    exact
      ⟨k, {
        sent := hsent
        among := t.sentFor_sublist place a.purpose moves
        alone := fun halone hjoin ho ↦ by
          obtain ⟨outcome, ho⟩ := Option.isSome_iff_exists.1 ho
          exact accepted_run_of_alone ho halone (.inl ⟨a, false, ha, rfl⟩) hjoin
        silent := fun first since _ hset ↦
          sentFor_of_isCancelled (heeds_run (.inl ⟨a, false, ha, rfl, rfl⟩) first) hset since
        stage := hstage }⟩

/-- **Deliveries are prefixes.** Among any other tasks and whatever happens, what has been sent of a
delivery is an exact prefix of its frames, and a schedule takes it to its end. -/
theorem delivers_prefix (y : Yard) (token : Token) (purpose : Purpose) (frames : List Frame)
    (before after : List Task) :
    let begun := Task.ofProgress (y.deliver token purpose frames)
    let t : Traffic := ⟨begun.1, before ++ begun.2 :: after⟩
    (∀ moves, ∃ k, t.DeliversPrefix before.length token purpose frames moves k) ∧
      ∃ moves, t.run moves =
          ⟨(Schedule.run t.yard t.tasks).1, (Schedule.run t.yard t.tasks).2⟩ ∧
        ((t.run moves).result? before.length).isSome = true := by
  intro begun t
  have hbegun : t.tasks[before.length]? = some begun.2 := by simp [t]
  exact ⟨fun moves ↦ delivers_run rfl hbegun moves, t.ends_schedule (by simp [t])⟩

/-- Of two frames, one has been sent when another task sets off the cancellation. -/
example :
    let begun := Task.ofProgress ((Yard.start (.junction []) 100 64 .none).deliver (.on 0) .clearAll
      [.ofMagnitude .unlock 12 .thrown, .ofMagnitude .unlock 13 .thrown])
    let t : Traffic := ⟨begun.1, [begun.2, .planned 150 (.cancel 0)]⟩
    let moves := [.go 0, .wait 100, .go 0, .go 0, .wait 150, .go 1, .go 0]
    t.sentFor 0 .clearAll moves = [⟨.ofMagnitude .unlock 12 .thrown, 100⟩] ∧
      (t.run moves).result? 0 = some (.command (.error (.cancelled 1)), 150) := by
  decide +kernel

end Traffic

end SignalBox
