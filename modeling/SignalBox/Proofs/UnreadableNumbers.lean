import SignalBox.Proofs.EngagedLocks
import SignalBox.Proofs.IndexedLayouts
import SignalBox.Proofs.Interlocking
import SignalBox.Proofs.KeySequences

/-!
# Numbers that cannot be read

An entry may have more digits than a number of 32 bits can hold. Such a number is read as 0, and the
command goes to the yard, which is expected to turn it away because nothing has the number 0. The
main statement (`turnsAway_iff`) says when the yard does: unless it understands what it has been
given. What it may understand is listed by `Yard.Understands`.

* **Layouts give 0 a meaning** if they have a point without a number, a signal of the name `0` or a
  track of this number. A point without a number is a warning and no more, and so a mistyped number
  moves it.
* **Releases** do not look at the layout. A start that cannot be read stands for any start, and the
  signals between start and destination do not matter at all. So what is left of the entry says
  which routes are taken away (`released_of_unreadable`).

The entry tells which commands have a number that could not be read (`hasZero_of_readsAs`). Those
that the yard understands are not turned away, whatever their numbers are
(`Yard.Understands.not_turnsAway`), and all others are, each kind for reasons of its own.
-/

namespace SignalBox

open Decimal

/-! ### Entries with a number that is too large -/

/-- An entry has a run of digits whose value does not fit into 32 bits. -/
def Unreadable (entry : List Char) : Prop :=
  ∃ run, run <:+: entry ∧ (∀ c ∈ run, c.isDigit = true) ∧ UInt32.size ≤ magnitude run

/-- A command has the number 0, or a signal of this number. -/
def Command.HasZero : Command → Prop
  | .point c => c.number = 0
  | .route request => 0 ∈ request.signalChain
  | .turntable c => c.track = 0
  | .control _ => False

namespace Unreadable

variable {before after entry : List Char} {c : Char}

/-- A number stands on one side of a character that is no digit. -/
theorem of_append_cons (hc : c.isDigit = false) (h : Unreadable (before ++ c :: after)) :
    Unreadable before ∨ Unreadable after := by
  obtain ⟨run, hpart, hdigits, hlarge⟩ := h
  have hmem : c ∉ run := fun hmem ↦ Bool.false_ne_true (hc.symm.trans (hdigits c hmem))
  exact (isInfix_or_isInfix hmem hpart).imp (fun h ↦ ⟨run, h, hdigits, hlarge⟩)
    fun h ↦ ⟨run, h, hdigits, hlarge⟩

/-- Without digits there is no number. -/
theorem not_of_forall (h : ∀ c ∈ entry, c.isDigit = false) : ¬ Unreadable entry := by
  rintro ⟨run, hpart, hdigits, hlarge⟩
  cases run with
  | nil => exact absurd hlarge (by decide)
  | cons c run =>
    exact Bool.false_ne_true ((h c (hpart.subset List.mem_cons_self)).symm.trans
      (hdigits c List.mem_cons_self))

/-- Characters that are no digits may be left out at the end. -/
theorem of_append (hafter : ∀ c ∈ after, c.isDigit = false) (h : Unreadable (before ++ after)) :
    Unreadable before := by
  cases after with
  | nil => rwa [List.append_nil] at h
  | cons c after =>
    refine (h.of_append_cons (hafter c List.mem_cons_self)).resolve_right (not_of_forall ?_)
    exact fun c hc ↦ hafter c (List.mem_cons_of_mem _ hc)

/-- Characters that are no digits may be left out at the beginning. -/
theorem of_append_left (hbefore : ∀ c ∈ before, c.isDigit = false)
    (h : Unreadable (before ++ after)) : Unreadable after := by
  rcases List.eq_nil_or_concat before with rfl | ⟨before, c, rfl⟩
  · exact h
  · rw [List.concat_eq_append] at hbefore h
    rw [List.append_assoc] at h
    refine (h.of_append_cons (hbefore c (by simp))).resolve_left (not_of_forall ?_)
    exact fun c hc ↦ hbefore c (List.mem_append_left _ hc)

theorem numeral_eq_zero (h : Unreadable entry) : numeral entry = 0 := by
  obtain ⟨run, hpart, -, hlarge⟩ := h
  exact numeral_eq_zero_of_isInfix hpart hlarge

/-- Between dividers some field has the number. -/
theorem of_intercalate {fields : List (List Char)} (hc : c.isDigit = false)
    (h : Unreadable ([c].intercalate fields)) : ∃ field ∈ fields, Unreadable field := by
  induction fields with
  | nil => exact absurd h (not_of_forall (by simp))
  | cons field fields ih =>
    cases fields with
    | nil =>
      rw [List.intercalate_singleton] at h
      exact ⟨field, List.mem_cons_self, h⟩
    | cons next fields =>
      rw [List.intercalate_cons_cons, List.append_assoc, List.singleton_append] at h
      rcases h.of_append_cons hc with h | h
      · exact ⟨field, List.mem_cons_self, h⟩
      · obtain ⟨field', hfield, h⟩ := ih h
        exact ⟨field', List.mem_cons_of_mem _ hfield, h⟩

end Unreadable

/-- **A number that is too large** is 0 in the command that the entry is read as. -/
theorem hasZero_of_readsAs {entry : List Char} {command : Command} (h : ReadsAs entry command)
    (hlarge : Unreadable entry) : command.HasZero := by
  cases h with
  | reload | clearAllRoutes | stopAllSignals =>
    -- there are no digits in these entries
    exact absurd hlarge (Unreadable.not_of_forall (by simp))
  | @point mark digits letter sign position hmark hdigits hletter hsign =>
    have hmark : ∀ c ∈ mark, c.isDigit = false := by
      rcases hmark with rfl | rfl | rfl <;> simp
    have hletter : ∀ c ∈ letter.toList, c.isDigit = false := fun c hc ↦
      isDigit_of_isAlpha (hletter c (by simpa using hc))
    have hsign : ∀ c ∈ [sign], c.isDigit = false := by
      obtain ⟨rfl | rfl, -⟩ := signs_iff.1 hsign <;> simp
    exact ((hlarge.of_append hsign).of_append hletter).of_append_left hmark |>.numeral_eq_zero
  | @destination digits last state hdigits hlast =>
    have hlast : ∀ c ∈ [last], c.isDigit = false := by
      obtain ⟨rfl | rfl | rfl, -⟩ := asks_iff.1 hlast <;> simp
    show 0 ∈ [0, numeral digits]
    rw [(hlarge.of_append hlast).numeral_eq_zero]
    exact List.mem_cons_self
  | @chain start destination via last state hdigits hsome hlast =>
    have hlast : ∀ c ∈ [last], c.isDigit = false := by
      obtain ⟨rfl | rfl | rfl, -⟩ := asks_iff.1 hlast <;> simp
    obtain ⟨field, hfield, hlarge⟩ := (hlarge.of_append hlast).of_intercalate (by decide)
    have hmem := List.mem_map_of_mem (f := numeral) hfield
    rw [hlarge.numeral_eq_zero, List.map_append, List.map_cons] at hmem
    exact hmem
  | @turntable sign direction digits hsign hdigits =>
    have hsign : ∀ c ∈ [sign], c.isDigit = false := by
      obtain ⟨rfl | rfl, -⟩ := signs_iff.1 hsign <;> simp
    have hlarge : Unreadable ([sign] ++ digits) := hlarge.of_append (by simp)
    exact (hlarge.of_append_left hsign).numeral_eq_zero

/-! ### Commands that are turned away -/

/-- What observers are told of a command that is rejected, and its result. -/
inductive Rejection : Notice → Except Failure Outcome → Prop
  | point (number : UInt32) (reason : RejectReason) :
      Rejection (.point number (.rejected reason)) (.ok (.point (.rejected reason)))
  | route (start destination : UInt32) (reason : RejectReason) :
      Rejection (.route start destination (.rejected reason)) (.ok (.route (.rejected reason)))
  | turntable (track : UInt32) (reason : RejectReason) :
      Rejection (.turntable track (.rejected reason)) (.ok (.turntable (.rejected reason)))
  | pointFailed (number : UInt32) (cause : AddressError) :
      Rejection (.point number (.rejected (.protocol cause.message))) (.error (.protocol cause))
  | routeFailed (start destination : UInt32) (cause : AddressError) :
      Rejection (.route start destination (.rejected (.protocol cause.message)))
        (.error (.protocol cause))
  | turntableFailed (track : UInt32) (cause : AddressError) :
      Rejection (.turntable track (.rejected (.protocol cause.message))) (.error (.protocol cause))

namespace Yard

variable {y : Yard} {token : Token}

/-- A command is turned away: it ends in its first step, in which it is announced as rejected, and
nothing else changes. -/
def TurnsAway (y : Yard) (token : Token) (command : Command) : Prop :=
  ∃ notice result, Rejection notice result ∧
    y.startCommand token command = (y.publish notice, .done result)

/-- What a command means although a number of it could not be read. -/
inductive Understands (y : Yard) : Command → Prop
  /-- The layout has a point without a number. It is held by a route, or it is in position, or its
  frames can be encoded. -/
  | point {c p : PointCommand} (hnumber : c.number = 0) (hdefined : c.isUndefined = false)
      (hresolves : y.layout.resolvePoint? c = some p)
      (hanswers : y.active.holds p.number = true ∨
        y.positions.allAt p.position (Positions.keysOf y.layout c) = true ∨
        ∃ frames, p.setFrames = .ok frames) : Understands y (.point c)
  /-- The layout has a signal of the name `0`, the route passes it, and is admitted. -/
  | setRoute {request route resolved : RouteCommand} {frames : List Frame}
      (hset : request.state.isSet = true) (hvia : 0 ∈ request.via)
      (hsignal : ∃ s ∈ y.layout.signals, s.name = "0")
      (hadmits : y.Admits request route resolved frames) : Understands y (.route request)
  /-- An active route has the destination of a release, and its start unless that is 0. -/
  | release {request r : RouteCommand} (hteardown : request.state.isTeardown = true)
      (hr : r ∈ y.active.routes) (hmeans : request.releases r = true) :
      Understands y (.route request)
  /-- The turntable has a track of the number 0 on the bus. -/
  | turntable {c : TurntableCommand} {track : TurntableTrack} {frame : Frame}
      (hnumber : c.track = 0) (htrack : y.layout.track? 0 = some track)
      (hframe : c.frame track.address = .ok frame) : Understands y (.turntable c)

variable {command : Command} {outcome : Outcome} {result : Except Failure Outcome}
  {purpose : Purpose} {frames : List Frame}

/-- A command is not turned away if it can only end with an outcome that is no rejection. -/
theorem not_turnsAway (outcome : Outcome) (houtcome : ∀ notice, ¬ Rejection notice (.ok outcome))
    (h : ∀ result, (y.startCommand token command).2 = .done result → result = .ok outcome) :
    ¬ y.TurnsAway token command := by
  rintro ⟨notice, result, hrejection, hstart⟩
  obtain rfl := h result (congrArg Prod.snd hstart)
  exact houtcome notice hrejection

/-- A command that is turned away leaves the active routes as they are. -/
theorem TurnsAway.active_eq (h : y.TurnsAway token command) :
    (y.startCommand token command).1.active = y.active := by
  obtain ⟨notice, result, -, hstart⟩ := h
  rw [hstart]
  rfl

/-- A command whose frames are delivered ends with its outcome if it ends at once. -/
theorem result_of_deliver (ho : purpose.outcome? = some outcome)
    (h : (y.deliver token purpose frames).2 = .done result) : result = .ok outcome := by
  cases frames with
  | nil => exact (Progress.done.inj ((finish_snd ho).symm.trans h)).symm
  | cons frame rest => cases h

/-! ### Commands that are understood -/

/-- A point command that asks for a position of a point in the layout. -/
theorem startPoint_of_resolves {c p : PointCommand} (hdefined : c.isUndefined = false)
    (hresolves : y.layout.resolvePoint? c = some p) :
    y.startPoint token c =
      if y.active.holds p.number then y.endPoint c.number .locked
      else y.movePoint token (Positions.keysOf y.layout c) p := by
  rw [startPoint, hdefined, if_neg Bool.false_ne_true, hresolves]

/-- **A command that is understood** is not turned away, whatever its numbers are. -/
theorem Understands.not_turnsAway (h : y.Understands command) : ¬ y.TurnsAway token command := by
  cases h with
  | @point c p hnumber hdefined hresolves hanswers =>
    have hstart : y.startCommand token (.point c) = _ := startPoint_of_resolves hdefined hresolves
    by_cases hheld : y.active.holds p.number = true
    · refine Yard.not_turnsAway (.point .locked) (by rintro - ⟨⟩) fun result h ↦ ?_
      rw [hstart, if_pos hheld] at h
      exact (Progress.done.inj h).symm
    rw [if_neg hheld, movePoint] at hstart
    by_cases hall : y.positions.allAt p.position (Positions.keysOf y.layout c) = true
    · refine Yard.not_turnsAway (.point .alreadyInPosition) (by rintro - ⟨⟩) fun result h ↦ ?_
      rw [hstart, if_pos hall] at h
      exact (Progress.done.inj h).symm
    obtain ⟨frames, hframes⟩ := (hanswers.resolve_left hheld).resolve_left hall
    rw [if_neg hall, hframes] at hstart
    refine Yard.not_turnsAway (.point .set) (by rintro - ⟨⟩) fun result h ↦ ?_
    rw [hstart] at h
    exact result_of_deliver rfl h
  | @setRoute request route resolved frames hset hvia hsignal hadmits =>
    have hstart : y.startCommand token (.route request) = y.setRoute token request := if_pos hset
    refine Yard.not_turnsAway (.route .set) (by rintro - ⟨⟩) fun result h ↦ ?_
    rw [hstart, setRoute_of_admits hadmits] at h
    exact result_of_deliver rfl h
  | @release request r hteardown hr hmeans =>
    -- the routes that are meant are gone after the first step
    intro h
    have hstart : y.startCommand token (.route request) = y.releaseRoute token request :=
      y.startRoute_of_isTeardown token hteardown
    have hactive := h.active_eq
    rw [hstart, active_releaseRoute] at hactive
    have hremains : r ∈ (y.active.without request).routes := by rwa [hactive]
    have hnot := (List.mem_filter.1 hremains).2
    rw [hmeans] at hnot
    cases hnot
  | @turntable c track frame hnumber htrack hframe =>
    have hstart : y.startCommand token (.turntable c) = y.startTurntable token c := rfl
    rw [startTurntable, hnumber, htrack] at hstart
    dsimp only at hstart
    rw [hframe] at hstart
    refine Yard.not_turnsAway (.turntable .turned) (by rintro - ⟨⟩) fun result h ↦ ?_
    rw [hstart] at h
    exact result_of_deliver rfl h

/-! ### Commands that are not understood -/

/-- **Points** of the number 0 are turned away if the layout has none. -/
theorem turnsAway_point {c : PointCommand} (hnumber : c.number = 0)
    (h : ¬ y.Understands (.point c)) : y.TurnsAway token (.point c) := by
  by_cases hundefined : c.isUndefined = true
  · refine ⟨_, _, .point c.number .undefined, ?_⟩
    rw [startCommand, startPoint, if_pos hundefined]
    rfl
  have hdefined : c.isUndefined = false := Bool.eq_false_iff.2 hundefined
  cases hresolves : y.layout.resolvePoint? c with
  | none =>
    refine ⟨_, _, .point c.number (.unknownPoint c.number), ?_⟩
    rw [startCommand, startPoint, hdefined, if_neg Bool.false_ne_true, hresolves]
    rfl
  | some p =>
    have hunderstands := Understands.point hnumber hdefined hresolves
    have hheld : ¬ y.active.holds p.number = true := fun hheld ↦ h (hunderstands (.inl hheld))
    have hall : ¬ y.positions.allAt p.position (Positions.keysOf y.layout c) = true := fun hall ↦
      h (hunderstands (.inr (.inl hall)))
    cases hframes : p.setFrames with
    | ok frames => exact absurd (hunderstands (.inr (.inr ⟨frames, hframes⟩))) h
    | error cause =>
      refine ⟨_, _, .pointFailed p.number cause, ?_⟩
      rw [startCommand, startPoint_of_resolves hdefined hresolves, if_neg hheld, movePoint,
        if_neg hall, hframes]
      rfl

/-- A route that is admitted has both ends and passes signals that the layout has. -/
theorem Admits.signals {request route resolved : RouteCommand}
    (h : y.Admits request route resolved frames) (hset : request.state.isSet = true) :
    request.start ≠ 0 ∧ request.destination ≠ 0 ∧
      ∀ n ∈ request.signalChain, ∃ s ∈ y.layout.signals, s.name = Decimal.text n.toNat := by
  obtain ⟨hdefined, -, -, hviolation⟩ := of_obstacle?_eq_none h.free
  have hroute := eq_of_withPoints h.expanded
  rw [hroute] at hdefined hviolation
  have hstate : ({ request with points := route.points } : RouteCommand).state.isSet = true := hset
  obtain ⟨hstart, hdestination, -⟩ := (RouteCommand.isUndefined_eq_false_iff hstate).1 hdefined
  refine ⟨hstart, hdestination, fun n hn ↦ ?_⟩
  rw [y.plan.index_eq] at hviolation
  cases LayoutIndex.violation?_eq_iff.1 hviolation with
  | nothing hsignals => exact hsignals n hn

/-- A route that is to be set and has a signal of the number 0 is turned away, unless it passes this
signal and is admitted. -/
theorem turnsAway_setRoute {request : RouteCommand} (hset : request.state.isSet = true)
    (hzero : 0 ∈ request.signalChain) (h : ¬ y.Understands (.route request)) :
    y.TurnsAway token (.route request) := by
  have hstart : y.startCommand token (.route request) = y.setRoute token request := if_pos hset
  rcases y.setRoute_cases token request with
    ⟨reason, hs⟩ | ⟨cause, hs⟩ | ⟨route, resolved, frames, hadmits, -⟩
  · exact ⟨_, _, .route _ _ reason, hstart.trans hs⟩
  · exact ⟨_, _, .routeFailed _ _ cause, hstart.trans hs⟩
  · obtain ⟨hnonzero, hdestination, hsignals⟩ := hadmits.signals hset
    have hvia : 0 ∈ request.via := by
      simpa [RouteCommand.signalChain, hnonzero.symm, hdestination.symm] using hzero
    have htext : Decimal.text (0 : UInt32).toNat = "0" := by
      rw [Decimal.text, Decimal.digits]
      rfl
    exact absurd (.setRoute hset hvia (htext ▸ hsignals 0 hzero) hadmits) h

/-- A release is turned away if it means none of the active routes. -/
theorem turnsAway_releaseRoute {request : RouteCommand} (hset : ¬ request.state.isSet = true)
    (hteardown : request.state.isTeardown = true) (h : ¬ y.Understands (.route request)) :
    y.TurnsAway token (.route request) := by
  have hstart : y.startCommand token (.route request) = y.releaseRoute token request :=
    (if_neg hset).trans (if_pos hteardown)
  have hnot : ∀ r ∈ y.active.routes, ¬ request.releases r = true := fun r hr hmeans ↦
    h (.release hteardown hr hmeans)
  have hmatching : y.active.matching request = [] := List.filter_eq_nil_iff.2 hnot
  have hwithout : y.active.without request = y.active :=
    congrArg Reservations.mk (List.filter_eq_self.2 fun r hr ↦ by simpa using hnot r hr)
  rcases y.releaseRoute_cases token request with ⟨-, hs⟩ | ⟨hne, -⟩
  · rw [hs, hwithout] at hstart
    exact ⟨_, _, .route _ _ .notActive, hstart⟩
  · exact absurd hmatching hne

/-- **Routes** with a signal of the number 0 are turned away, unless they are to be set, pass this
signal and are admitted, or are to be released and what is left of the request means some of the
active routes. -/
theorem turnsAway_route {request : RouteCommand} (hzero : 0 ∈ request.signalChain)
    (h : ¬ y.Understands (.route request)) : y.TurnsAway token (.route request) := by
  by_cases hset : request.state.isSet = true
  · exact turnsAway_setRoute hset hzero h
  by_cases hteardown : request.state.isTeardown = true
  · exact turnsAway_releaseRoute hset hteardown h
  -- a request of neither state is undefined
  exact ⟨_, _, .route _ _ .undefined, (if_neg hset).trans (if_neg hteardown)⟩

/-- **Tracks** of the number 0 are turned away if the layout has none. -/
theorem turnsAway_turntable {c : TurntableCommand} (hnumber : c.track = 0)
    (h : ¬ y.Understands (.turntable c)) : y.TurnsAway token (.turntable c) := by
  have hstart : y.startCommand token (.turntable c) = y.startTurntable token c := rfl
  rw [startTurntable, hnumber] at hstart
  cases htrack : y.layout.track? 0 with
  | none =>
    rw [htrack] at hstart
    exact ⟨_, _, .turntable 0 (.unknownTrack 0), hstart⟩
  | some track =>
    rw [htrack] at hstart
    dsimp only at hstart
    cases hframe : c.frame track.address with
    | error cause =>
      rw [hframe] at hstart
      exact ⟨_, _, .turntableFailed 0 cause, hstart⟩
    | ok frame => exact absurd (.turntable hnumber htrack hframe) h

/-- **A command from an entry with a number that cannot be read** is turned away, in every yard,
exactly if the yard does not understand it. -/
theorem turnsAway_iff (y : Yard) (token : Token) {entry : List Char} {command : Command}
    (hkeys : ∀ key ∈ entry, isKey key = true) (hentry : Finished entry)
    (hlarge : Unreadable entry)
    (hcommand : ((Interpreter.ofGrammar .standard).pressAll entry).2 = [command]) :
    y.TurnsAway token command ↔ ¬ y.Understands command := by
  have hzero : command.HasZero := by
    have hentries : Entries entry [entry] := by
      have h := Entries.finished hentry (.unfinished .nil)
      rwa [List.append_nil] at h
    have hpressed : [command] = [entry].filterMap Interpreter.command? :=
      hcommand.symm.trans (Interpreter.pressAll_of_entries hkeys hentries)
    have hread : Interpreter.command? entry = some command := by
      have hmem : command ∈ [entry].filterMap Interpreter.command? :=
        hpressed ▸ List.mem_singleton_self _
      simpa using hmem
    exact hasZero_of_readsAs ((Interpreter.command?_eq_some_iff hentry).1 hread).2 hlarge
  refine ⟨fun haway hunderstands ↦ hunderstands.not_turnsAway haway, fun hnot ↦ ?_⟩
  cases command with
  | point c => exact turnsAway_point hzero hnot
  | route request => exact turnsAway_route hzero hnot
  | turntable c => exact turnsAway_turntable hzero hnot
  | control c => exact hzero.elim

/-- A point whose number cannot be read, at a junction that has the point 27. -/
theorem turnsAway_iff_of_point :
    let y := Yard.start (.junction [.linked "27" [12] [13] 0]) 100 64 .none
    y.TurnsAway .never (.point (.plain 0 .straight)) ↔
      ¬ y.Understands (.point (.plain 0 .straight)) := by
  intro y
  have hkeys : ∀ key ∈ "4294967296+".toList, isKey key = true :=
    List.all_eq_true.1 (by decide)
  have hentry : Finished ("4294967296".toList ++ ['+']) :=
    .intro (by decide) (by decide) (by decide)
  have hlarge : Unreadable "4294967296+".toList :=
    ⟨"4294967296".toList, ⟨[], ['+'], by decide⟩, List.all_eq_true.1 (by decide),
      by decide +kernel⟩
  exact turnsAway_iff y .never hkeys hentry hlarge (by decide +kernel)

/-- A route is set, and a release is typed for a start that cannot be read. It takes the route away
and unlocks its point. -/
theorem released_of_unreadable :
    let y := Yard.start (.junction [.linked "27" [12] [13] 100]) 0 64 .none
    let entry := "99999999999.72/".toList
    let request := RouteCommand.plain 0 72 .clear
    let first := Turn.ofMoves y (Turns.routeJob 64 72 .setMain [.plain 27 .straight])
      (List.replicate 7 (.go 0)) (.command (.ok (.route .set)))
    let second := Turn.ofMoves first.after (.command (.route request) .never)
      (List.replicate 4 (.go 0)) (.command (.ok (.route .cleared)))
    Turns y [first, second] second.after ∧
      Finished entry ∧ Unreadable entry ∧
      ((Interpreter.ofGrammar .standard).pressAll entry).2 = [.route request] ∧
      ¬ first.after.TurnsAway .never (.route request) ∧
      first.after.active ≠ .empty ∧ second.after.active = .empty ∧
      second.sent = [⟨.ofMagnitude .unlock 112 .thrown, 0⟩] := by
  intro y entry request first second
  have hfirst : Turns y [first] first.after :=
    Turns.nil.ofMoves rfl (show _ = [Task.ended _ 0] by decide +kernel)
  have hsecond : Turns y ([first] ++ [second]) second.after :=
    hfirst.ofMoves rfl (show _ = [Task.ended _ 0] by decide +kernel)
  have hentry : Finished ("99999999999.72".toList ++ ['/']) :=
    .intro (by decide) (by decide) (by decide)
  have hlarge : Unreadable entry :=
    ⟨"99999999999".toList, ⟨[], ".72/".toList, by decide⟩, List.all_eq_true.1 (by decide),
      by decide +kernel⟩
  have hactive : (first.after.startCommand .never (.route request)).1.active = .empty := by
    decide +kernel
  have hbefore : first.after.active ≠ .empty := by decide +kernel
  exact ⟨hsecond, hentry, hlarge, by decide +kernel,
    fun h ↦ hbefore (h.active_eq.symm.trans hactive), hbefore, by decide +kernel, by decide +kernel⟩

end Yard

end SignalBox
