import Mathlib.Data.List.TakeWhile
import SignalBox.Proofs.FrameEncoding
import SignalBox.Proofs.PerformedCalls

/-!
# Which signals the stop of all signals reaches

The stop of all signals handles one signal after another, in the order of the layout, and ends with
an error at the first whose address the bus does not have. The main statement
(`Yard.stops_all_iff`) describes the frames of a stop that nothing disturbs: they are those for the
wired signals in front of that one. So every wired signal is stopped exactly if none stands behind a
signal with such an address.

* **Names** are handled once, with their first definition (`distinctSignals_eq`).
* **One signal** has an error or at most one frame (`SignalDefinition.of_frame?_eq_ok`); the frames
  of a stop follow by induction on the signals (`Yard.stops_of_calm`).
-/

namespace SignalBox

/-! ### The signals of a layout -/

/-- The first definition of each signal name, in the order in which the names appear. -/
def Layout.firstSignals (l : Layout) : List SignalDefinition :=
  (l.signals.map (·.name)).eraseDups.filterMap fun name ↦ l.signals.find? (·.name == name)

/-- Leaving out the signals whose names have been seen keeps the first definition of each other
name. -/
theorem distinctSignals_eq (seen : List String) (signals : List SignalDefinition) :
    Yard.distinctSignals seen signals =
      ((signals.map (·.name)).filter (· ∉ seen)).eraseDups.filterMap
        fun name ↦ signals.find? (·.name == name) := by
  -- a definition in front does not matter for other names
  have hrest (s : SignalDefinition) (rest : List SignalDefinition) (names : List String)
      (hnames : s.name ∉ names) :
      names.eraseDups.filterMap (fun name ↦ (s :: rest).find? (·.name == name)) =
        names.eraseDups.filterMap fun name ↦ rest.find? (·.name == name) := by
    refine List.filterMap_congr fun name hname ↦ List.find?_cons_of_neg ?_
    rintro heq
    exact hnames (eq_of_beq heq ▸ List.mem_eraseDups.1 hname)
  induction signals generalizing seen with
  | nil => rfl
  | cons s rest ih =>
    rw [Yard.distinctSignals, List.map_cons]
    by_cases hs : s.name ∈ seen
    · rw [if_pos hs, ih, List.filter_cons_of_neg (by simpa using hs), hrest]
      simp [hs]
    · have hfirst (names : List String) :
          (s.name :: names).filterMap (fun name ↦ (s :: rest).find? (·.name == name)) =
            s :: names.filterMap fun name ↦ (s :: rest).find? (·.name == name) :=
        List.filterMap_cons_some (List.find?_cons_of_pos (beq_self_eq_true s.name))
      have hnames : (rest.map (·.name)).filter (· ∉ s.name :: seen) =
          ((rest.map (·.name)).filter (· ∉ seen)).filter fun name ↦ !name == s.name := by
        rw [List.filter_filter]
        exact List.filter_congr fun name _ ↦ Bool.eq_iff_iff.2 (by simp)
      rw [if_neg hs, ih, List.filter_cons_of_pos (by simpa using hs), List.eraseDups_cons,
        hfirst, ← hnames, hrest]
      simp

namespace SignalDefinition

/-- Whether a signal is wired to an accessory that the bus has. -/
def isOnBus (s : SignalDefinition) : Bool :=
  1 ≤ s.address.toNat ∧ s.address.toNat ≤ Frame.maxAddress

/-- Whether the address of a signal can be encoded, or the signal is not wired. -/
def isEncodable (s : SignalDefinition) : Bool :=
  s.address.toNat ≤ Frame.maxAddress

/-- The command that stops a signal. -/
def stopCommand (s : SignalDefinition) : SignalCommand :=
  { signal := s.number, address := s.address, aspect := .stop, feedback := s.feedback }

theorem isEncodable_of_isOnBus {s : SignalDefinition} (h : s.isOnBus = true) :
    s.isEncodable = true :=
  decide_eq_true (of_decide_eq_true h).2

theorem isOnBus_iff {s : SignalDefinition} : s.isOnBus = true ↔ OnBus s.address.toNat :=
  decide_eq_true_iff

theorem hasAddress_stopCommand (s : SignalDefinition) :
    s.stopCommand.hasAddress = decide (0 < s.address.toNat) :=
  decide_eq_decide.2 UInt16.lt_iff_toNat_lt

theorem frame?_stopCommand (s : SignalDefinition) :
    s.stopCommand.frame? = if 0 < s.address.toNat then
      (Frame.encode .set s.address.toNat .thrown).map some else .ok none := by
  rw [SignalCommand.frame?, hasAddress_stopCommand]
  simp only [decide_eq_true_eq]
  rfl

/-- A signal that cannot be encoded has its address as the error. -/
theorem of_frame?_eq_error {s : SignalDefinition} {cause : AddressError}
    (h : s.stopCommand.frame? = .error cause) :
    s.isEncodable = false ∧ cause = ⟨s.address.toNat⟩ := by
  rw [frame?_stopCommand] at h
  split at h
  next hpos =>
    rw [Frame.encode] at h
    split at h
    · cases h
    next hoff =>
      exact ⟨decide_eq_false fun hle ↦ hoff ⟨hpos, hle⟩, (Except.error.inj h).symm⟩
  · cases h

/-- A signal that can be encoded has a frame that sets it to stop if it is on the bus, and none
otherwise. -/
theorem of_frame?_eq_ok {s : SignalDefinition} {frame : Option Frame}
    (h : s.stopCommand.frame? = .ok frame) : s.isEncodable = true ∧
      List.Forall₂ (fun s f ↦ f.Encodes .set .thrown s.address.toNat) ([s].filter (·.isOnBus))
        frame.toList := by
  rw [frame?_stopCommand] at h
  split at h
  next hpos =>
    obtain ⟨f, hf, rfl⟩ := map_eq_ok_iff.1 h
    have hon : OnBus s.address.toNat := Frame.encode_isOk_iff.1 ⟨f, hf⟩
    rw [List.filter_cons_of_pos (isOnBus_iff.2 hon), List.filter_nil]
    exact ⟨decide_eq_true hon.2, .cons (Frame.encodes_of_encode hf) .nil⟩
  next hzero =>
    obtain rfl := Except.ok.inj h
    have hoff : ¬ OnBus s.address.toNat := fun hon ↦ hzero hon.1
    rw [List.filter_cons_of_neg (mt isOnBus_iff.1 hoff), List.filter_nil]
    exact ⟨decide_eq_true (Nat.le_trans (Nat.le_of_not_lt hzero) (Nat.zero_le _)), .nil⟩

end SignalDefinition

/-- In order, each signal has had a frame that sets it to stop, and nothing else has been sent. -/
def StoppedBy (signals : List SignalDefinition) (sent : List AcceptedFrame) : Prop :=
  List.Forall₂ (fun s f ↦ f.frame.Encodes .set .thrown s.address.toNat) signals sent

/-! ### One stop -/

namespace Yard

variable {y w : Yard} {token : Token} {result : JobResult}

theorem stopCommands_eq (layout : Layout) :
    stopCommands layout = layout.firstSignals.map (·.stopCommand) := by
  have hfirst : distinctSignals [] layout.signals = layout.firstSignals := by
    rw [distinctSignals_eq, Layout.firstSignals, List.filter_eq_self.2 (by simp)]
  rw [stopCommands, hfirst]
  rfl

/-- The result of a stop of some signals, of which there are `count` with those before them: the
address of the first signal that cannot be encoded is the error. -/
def stopResult (count : Nat) (signals : List SignalDefinition) : JobResult :=
  match signals.find? fun s ↦ !s.isEncodable with
  | none => .command (.ok (.signalsStopped count))
  | some s => .command (.error (.protocol ⟨s.address.toNat⟩))

/-- **The stop of signals** that nothing disturbs reaches the signals on the bus as far as the first
signal that cannot be encoded. -/
theorem stops_of_calm {count : Nat} {signals : List SignalDefinition}
    (h : Task.CompletesIn (Calm token)
      (Task.ofProgress (y.showSignals token count (signals.map (·.stopCommand)))).1
      (Task.ofProgress (y.showSignals token count (signals.map (·.stopCommand)))).2 result w) :
    result = stopResult count signals ∧ ∃ sent, y.Passes sent w ∧
      StoppedBy ((signals.takeWhile (·.isEncodable)).filter (·.isOnBus)) sent := by
  induction signals generalizing y with
  | nil =>
    obtain ⟨rfl, hk⟩ := Task.keeps_of_completesIn_done rfl h
    exact ⟨rfl, [], hk, .nil⟩
  | cons s rest ih =>
    rw [List.map_cons] at h
    rcases shows_of_completesIn h with ⟨cause, herror, rfl, hk⟩ | ⟨x, failure, hx, hdisturbs, -⟩ |
        ⟨frame, first, z, hok, hfirst, hz, hc⟩
    · obtain ⟨henc, rfl⟩ := SignalDefinition.of_frame?_eq_error herror
      refine ⟨?_, [], hk, ?_⟩
      · rw [stopResult, List.find?_cons_of_pos (by simp [henc])]
      · rw [List.takeWhile_cons_of_neg (by simp [henc])]
        exact .nil
    · exact absurd hdisturbs hx.not_disturbs
    · obtain ⟨henc, hencodes⟩ := SignalDefinition.of_frame?_eq_ok hok
      obtain ⟨rfl, sent, hw, hstopped⟩ := ih hc
      rw [← hfirst, List.forall₂_map_right_iff] at hencodes
      refine ⟨?_, first ++ sent, Passes.trans hz hw, ?_⟩
      · rw [stopResult, stopResult, List.find?_cons_of_neg (by simp [henc])]
      · rw [List.takeWhile_cons_of_pos henc, ← List.singleton_append, List.filter_append]
        exact List.rel_append hencodes hstopped

end Yard

/-! ### All wired signals -/

/-- What a filter finds is found in front of the first member that fails a test exactly if nothing
behind such a member passes the filter. -/
theorem filter_takeWhile_eq_iff {α : Type} {p q : α → Bool} (hpq : ∀ a, q a = true → p a = true)
    (as : List α) : (as.takeWhile p).filter q = as.filter q ↔
      as.Pairwise fun a b ↦ p a = true ∨ q b = false := by
  induction as with
  | nil => simp
  | cons a as ih =>
    rw [List.pairwise_cons]
    cases ha : p a with
    | true =>
      rw [List.takeWhile_cons_of_pos ha, and_iff_right fun _ _ ↦ .inl rfl, ← ih]
      cases hq : q a with
      | true => simp [List.filter_cons_of_pos hq]
      | false => simp [hq]
    | false =>
      have hq : ¬ q a = true := fun hq ↦ Bool.false_ne_true (ha.symm.trans (hpq a hq))
      rw [List.takeWhile_cons_of_neg (by simp [ha]), List.filter_cons_of_neg hq, List.filter_nil,
        eq_comm, List.filter_eq_nil_iff]
      simp only [Bool.false_eq_true, false_or, Bool.not_eq_true]
      refine ⟨fun h ↦ ⟨h, List.pairwise_iff_forall_sublist.2 fun hs ↦ .inr ?_⟩, And.left⟩
      exact h _ (hs.subset (List.mem_cons_of_mem _ (List.mem_singleton_self _)))

namespace Yard

variable {y w : Yard} {token : Token} {result : JobResult}

/-- **The stop of all signals** in a sound yard ends, with an error exactly if some signal's address
cannot be encoded. It sends, in the order of the layout and once for each name, the frames for the
first definitions on the bus, as far as the first one that cannot be encoded. These are the frames
for all first definitions on the bus exactly if none of them stands behind one that cannot be
encoded. -/
theorem stops_all_iff (hy : y.Sound token) :
    (∃ result w, y.Performs (.control .stopAllSignals) token result w) ∧
      ∀ result w, y.Performs (.control .stopAllSignals) token result w →
        result = stopResult y.layout.firstSignals.length y.layout.firstSignals ∧
        ∃ sent, w.line.accepted = y.line.accepted ++ sent ∧
          StoppedBy ((y.layout.firstSignals.takeWhile (·.isEncodable)).filter (·.isOnBus)) sent ∧
          (StoppedBy (y.layout.firstSignals.filter (·.isOnBus)) sent ↔
            y.layout.firstSignals.Pairwise fun s behind ↦
              s.isEncodable = true ∨ behind.isOnBus = false) := by
  constructor
  · obtain ⟨result, w, h, -⟩ := exists_performs hy (.control .stopAllSignals)
    exact ⟨result, w, h⟩
  · intro result w h
    obtain ⟨z, hk, h⟩ := Task.begin_of_completesIn_pending h
    rw [Task.begin, startCommand, stopAllSignals, stopCommands_eq, List.length_map, layout,
      hk.plan_eq] at h
    obtain ⟨hresult, sent, hw, hstopped⟩ := stops_of_calm h
    refine ⟨hresult, sent, (Passes.trans hk hw).accepted_eq, hstopped, ?_⟩
    rw [← filter_takeWhile_eq_iff fun _ ↦ SignalDefinition.isEncodable_of_isOnBus]
    have hpre := (List.takeWhile_prefix (·.isEncodable) (l := y.layout.firstSignals)).filter
      (·.isOnBus)
    exact ⟨fun hall ↦ hpre.eq_of_length (hstopped.length_eq.trans hall.length_eq.symm),
      fun heq ↦ heq ▸ hstopped⟩

/-- A yard with some signals, each with its name and address. -/
def ofSignals (signals : List (String × UInt16)) : Yard :=
  .start { points := [], tracks := [], routes := [], graph := .ofLists [] []
           signals := signals.map fun s ↦ .plain s.1 ⟨1, 1⟩ s.2 } 100 64 .none

theorem sound_ofSignals (signals : List (String × UInt16)) : (ofSignals signals).Sound .never :=
  ⟨rfl, rfl, nofun⟩

/-- A signal that cannot be encoded stands behind all others, and a second definition of a name does
not matter. -/
theorem stops_all_iff_of_last :
    let y := ofSignals [("64", 5), ("72", 0), ("64", 5000), ("60", 7), ("80", 5000)]
    (∃ result w, y.Performs (.control .stopAllSignals) .never result w) ∧
      ∀ result w, y.Performs (.control .stopAllSignals) .never result w →
        result = .command (.error (.protocol ⟨5000⟩)) ∧
        ∃ sent, w.line.accepted = y.line.accepted ++ sent ∧
          StoppedBy (y.layout.firstSignals.filter (·.isOnBus)) sent := by
  intro y
  obtain ⟨hends, hall⟩ := stops_all_iff (y := y) (sound_ofSignals _)
  refine ⟨hends, fun result w h ↦ ?_⟩
  obtain ⟨hresult, sent, haccepted, -, hiff⟩ := hall result w h
  exact ⟨hresult.trans (by decide +kernel), sent, haccepted, hiff.2 (by decide +kernel)⟩

/-- A signal that cannot be encoded stands in front, and the wired signal behind it is not stopped.
-/
theorem not_stopped_of_first :
    let y := ofSignals [("64", 5000), ("72", 5)]
    (y.layout.firstSignals.filter (·.isOnBus)).map (·.name) = ["72"] ∧ y.Sound .never ∧
      ∃ w, y.Performs (.control .stopAllSignals) .never (.command (.error (.protocol ⟨5000⟩))) w ∧
        ¬ ∃ sent, w.line.accepted = y.line.accepted ++ sent ∧
          StoppedBy (y.layout.firstSignals.filter (·.isOnBus)) sent := by
  intro y
  refine ⟨by decide +kernel, sound_ofSignals _, ?_⟩
  let task : Task := .pending (.command (.control .stopAllSignals) .never)
  have hstep : (task.step y).2 = .ended (.command (.error (.protocol ⟨5000⟩))) 0 := by
    decide +kernel
  have hends : Task.CompletesIn (Calm .never) (task.step y).1 (task.step y).2
      (.command (.error (.protocol ⟨5000⟩))) (task.step y).1 := by
    rw [hstep]
    exact .ended _ _ _
  refine ⟨_, .step rfl (sound_ofSignals _).calm hends, ?_⟩
  rintro ⟨sent, haccepted, hstopped⟩
  have hnone : (task.step y).1.line.accepted = [] := by decide +kernel
  obtain rfl : sent = [] := (haccepted.symm.trans hnone : [] ++ sent = [])
  exact absurd hstopped.length_eq (by decide +kernel)

end Yard

end SignalBox
