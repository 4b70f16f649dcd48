import Mathlib.Data.List.Pairwise
import SignalBox.Proofs.SentFrames
import SignalBox.Proofs.SubPoints
import SignalBox.Proofs.Unlocking

/-!
# What the recorded positions say about the bus

A point command is answered without frames if the record has all of its sub-points in the position
asked for. The record is written when the frames of a call are all out, so between them stands the
question whether the bus agrees with it. The invariant is `Truthful`: for every recorded position,
the latest frame for each address of the sub-point commands this position, unless the turn that
sent it did not go through. It is kept by

* a point that is moved, whose frames and record agree (`Truthful.moved`);
* a route, point after point, so that a point that is asked for twice ends as it was asked for last
  (`Truthful.movedAll`), and whose locks are apart from all points (`Truthful.apart`);
* a turn that does not go through: what it leaves on the bus is excepted (`Truthful.stray`).

That the exception is needed is shown by `leftOtherwise_of_refused`: a point of two addresses one
of which has been switched by a call that failed is reported to be where it was.
-/

namespace SignalBox

/-! ### Layouts without shared addresses -/

namespace Layout

variable {l : Layout} {c resolved : PointCommand} {d e : PointDefinition} {a b : Int32}

/-- No two definitions of points, and no two entries of one list of addresses, use the same
magnitude. -/
structure Distinct (l : Layout) : Prop where
  apart : l.points.Pairwise fun d e ↦ ∀ p q, ∀ a ∈ d.addressesFor p, ∀ b ∈ e.addressesFor q,
    a.toInt.natAbs ≠ b.toInt.natAbs
  single : ∀ d ∈ l.points, ∀ p,
    (d.addressesFor p).Pairwise fun a b ↦ a.toInt.natAbs ≠ b.toInt.natAbs

/-- An address is apart from those of all points. -/
def Apart (l : Layout) (a : Int32) : Prop :=
  ∀ d ∈ l.points, ∀ p, ∀ b ∈ d.addressesFor p, a.toInt.natAbs ≠ b.toInt.natAbs

/-- A command carries no addresses, and with those of the layout its locks are apart from all
points. -/
structure KeepsApart (l : Layout) (c : PointCommand) : Prop where
  addresses_eq : c.addresses = []
  apart : ∀ resolved, l.resolvePoint? c = some resolved → ∀ a ∈ resolved.lockAddresses, l.Apart a

/-- A magnitude tells the definition. -/
theorem Distinct.definition_eq (h : l.Distinct) (hd : d ∈ l.points) (he : e ∈ l.points)
    {p q : Position} (ha : a ∈ d.addressesFor p) (hb : b ∈ e.addressesFor q)
    (hab : a.toInt.natAbs = b.toInt.natAbs) : d = e := by
  by_contra hne
  have hsymm : Std.Symm fun d e : PointDefinition ↦ ∀ p q, ∀ a ∈ d.addressesFor p,
      ∀ b ∈ e.addressesFor q, a.toInt.natAbs ≠ b.toInt.natAbs :=
    ⟨fun d e h p q a ha b hb ↦ (h q p b hb a ha).symm⟩
  exact h.apart.forall hd he hne p q a ha b hb hab

/-- A magnitude and a position tell the address. -/
theorem Distinct.address_eq (h : l.Distinct) (hd : d ∈ l.points) (he : e ∈ l.points)
    {p : Position} (ha : a ∈ d.addressesFor p) (hb : b ∈ e.addressesFor p)
    (hab : a.toInt.natAbs = b.toInt.natAbs) : a = b := by
  obtain rfl := h.definition_eq hd he ha hb hab
  by_contra hne
  have hsymm : Std.Symm fun a b : Int32 ↦ a.toInt.natAbs ≠ b.toInt.natAbs :=
    ⟨fun a b h ↦ h.symm⟩
  exact (h.single d hd p).forall ha hb hne hab

/-- The addresses of a resolved command without own ones are those of the definitions it means. -/
theorem mem_addresses_iff (hc : c.addresses = []) (h : l.resolvePoint? c = some resolved) :
    a ∈ resolved.addresses ↔ ∃ d ∈ l.points, means c d = true ∧ a ∈ d.addressesFor c.position := by
  rw [mem_addresses_of_resolvePoint? h, hc]
  simp

end Layout

/-! ### The invariant -/

/-- Whether the result of a job is an error. -/
def JobResult.isError : JobResult → Bool
  | .command (.error _) => true
  | _ => false

/-- Whether a turn is a call for points or routes that has not failed. -/
def Turn.goesThrough (turn : Turn) : Bool :=
  turn.job.isPositional && !turn.result.isError

/-- Whether a frame is for an accessory. -/
def isAt (a : Int32) (e : Turn × AcceptedFrame) : Bool :=
  e.2.frame.address == a.toInt.natAbs

theorem isAt_iff {a : Int32} {e : Turn × AcceptedFrame} :
    isAt a e = true ↔ e.2.frame.address = a.toInt.natAbs :=
  beq_iff_eq

/-- The latest frame for an address commands a position. -/
def Shows (log : List (Turn × AcceptedFrame)) (a : Int32) (position : Position) : Prop :=
  ∃ turn f, latest? (isAt a) log = some (turn, f) ∧
    f.frame.position = .ofPosition (position.forAddress a)

/-- The latest frame for an address has been left by a turn that has not gone through, and does not
command a position. -/
def LeftOtherwise (log : List (Turn × AcceptedFrame)) (a : Int32) (position : Position) : Prop :=
  ∃ turn f, latest? (isAt a) log = some (turn, f) ∧ turn.goesThrough = false ∧
    f.frame.position ≠ .ofPosition (position.forAddress a)

/-- What has been left otherwise does not show the position. -/
theorem LeftOtherwise.not_shows {log : List (Turn × AcceptedFrame)} {a : Int32}
    {position : Position} (h : LeftOtherwise log a position) : ¬ Shows log a position := by
  obtain ⟨turn, f, hlatest, -, hne⟩ := h
  rintro ⟨turn', f', hlatest', hf⟩
  obtain ⟨rfl, rfl⟩ := Prod.mk.inj (Option.some.inj (hlatest.symm.trans hlatest'))
  exact hne hf

/-- The latest frame for each address of a point in a recorded position commands this position, if
the turn that has sent it has gone through. -/
def Truthful (l : Layout) (positions : Positions) (log : List (Turn × AcceptedFrame)) : Prop :=
  ∀ d ∈ l.points, ∀ position, positions.get? d.key = some position →
    ∀ a ∈ d.addressesFor position, ∃ turn f, latest? (isAt a) log = some (turn, f) ∧
      (turn.goesThrough = true → f.frame.position = .ofPosition (position.forAddress a))

namespace Truthful

variable {l : Layout} {positions : Positions} {log new : List (Turn × AcceptedFrame)}

theorem empty (l : Layout) : Truthful l .empty [] :=
  fun _ _ _ h ↦ by cases h

/-- Frames for other accessories do not matter. -/
theorem apart (h : Truthful l positions log)
    (hnew : ∀ e ∈ new, ∀ d ∈ l.points, ∀ p, ∀ a ∈ d.addressesFor p, isAt a e = false) :
    Truthful l positions (log ++ new) := by
  intro d hd position hposition a ha
  rw [latest?_append_of_forall fun e he ↦ hnew e he d hd position a ha]
  exact h d hd position hposition a ha

/-- Frames of turns that do not go through are excepted. -/
theorem stray (h : Truthful l positions log) (hnew : ∀ e ∈ new, e.1.goesThrough = false) :
    Truthful l positions (log ++ new) := by
  intro d hd position hposition a ha
  by_cases hsome : ∃ e ∈ new, isAt a e = true
  · obtain ⟨e, he, -, hlatest⟩ := latest?_append_of_exists log hsome
    exact ⟨e.1, e.2, hlatest, fun hthrough ↦ absurd hthrough (by simp [hnew e he])⟩
  · rw [latest?_append_of_forall fun e he ↦ Bool.eq_false_iff.2 fun hat ↦ hsome ⟨e, he, hat⟩]
    exact h d hd position hposition a ha

/-- **A point that is moved**: its frames and its record agree, and no other point has its
addresses. -/
theorem moved (hl : l.Distinct) (h : Truthful l positions log) {c resolved : PointCommand}
    (hc : c.addresses = []) (hresolves : l.resolvePoint? c = some resolved)
    (hnew : List.Forall₂ (fun a e ↦
      e.2.frame.Encodes .set (.ofPosition (c.position.forAddress a)) a.toInt)
      resolved.addresses new) :
    Truthful l (positions.recordAll c.position (Positions.keysOf l c)) (log ++ new) := by
  intro d hd position hposition a ha
  rw [Positions.get?_recordAll] at hposition
  have hkey : d.key ∈ Positions.keysOf l c ↔ _ := Layout.key_mem_keysOf_iff hd
  -- a new frame for `a` is one for an address of a definition that the command means
  have hmeant {e : Turn × AcceptedFrame} (he : e ∈ new) (hat : isAt a e = true) :
      ∃ b, (∃ d' ∈ l.points, Layout.means c d' = true ∧ b ∈ d'.addressesFor c.position) ∧
        a.toInt.natAbs = b.toInt.natAbs ∧
        e.2.frame.position = .ofPosition (c.position.forAddress b) := by
    obtain ⟨b, hb, hencodes⟩ := exists_left_of_mem_right hnew he
    refine ⟨b, (Layout.mem_addresses_iff hc hresolves).1 hb, ?_, hencodes.position_eq⟩
    rw [← hencodes.address_eq]
    exact (isAt_iff.1 hat).symm
  by_cases hmeans : Layout.means c d = true
  · -- the last of the new frames for `a` counts, and all of them say the same
    rw [if_pos (hkey.2 hmeans), Option.some.injEq] at hposition
    subst hposition
    have hmem : a ∈ resolved.addresses :=
      (Layout.mem_addresses_iff hc hresolves).2 ⟨d, hd, hmeans, ha⟩
    obtain ⟨e, he, hencodes⟩ := exists_right_of_mem_left hnew hmem
    obtain ⟨e', he', hat, hlatest⟩ := latest?_append_of_exists log
      ⟨e, he, isAt_iff.2 hencodes.address_eq⟩
    obtain ⟨b, ⟨d', hd', -, hb⟩, hab, hposition⟩ := hmeant he' hat
    obtain rfl := hl.address_eq hd hd' ha hb hab
    exact ⟨e'.1, e'.2, hlatest, fun _ ↦ hposition⟩
  · -- no new frame is for an address of another point
    rw [if_neg fun h ↦ hmeans (hkey.1 h)] at hposition
    rw [latest?_append_of_forall fun e he ↦ Bool.eq_false_iff.2 fun hat ↦ ?_]
    · exact h d hd position hposition a ha
    · obtain ⟨b, ⟨d', hd', hmeans', hb⟩, hab, -⟩ := hmeant he hat
      exact hmeans (hl.definition_eq hd hd' ha hb hab ▸ hmeans')

/-- The points of a route are moved one after the other; those that nothing is asked of are not. -/
theorem movedAll (hl : l.Distinct) {route resolved : List PointCommand} {moves : List (List Frame)}
    (hroute : ∀ c ∈ route, c.addresses = []) (hresolved : List.Forall₂ l.Resolves route resolved)
    (hmoves : List.Forall₂ (fun p fs ↦ p.setFrames = .ok fs) resolved moves)
    (hnew : new.map (·.2.frame) = moves.flatten) (h : Truthful l positions log) :
    Truthful l ((resolved.filter fun p ↦ !p.isUndefined).foldl (Yard.recordPoint l) positions)
      (log ++ new) := by
  induction hresolved generalizing positions log new moves with
  | nil =>
    cases hmoves
    rw [List.map_eq_nil_iff.1 hnew, List.append_nil]
    exact h
  | @cons c p route resolved hp hresolved ih =>
    obtain ⟨fs, moves, hfs, hrestmoves, rfl⟩ := List.forall₂_cons_left_iff.1 hmoves
    obtain ⟨first, rest, rfl, hfirst, hrest⟩ := List.map_eq_append_iff.1 hnew
    have hsame := hp.sameRequest
    have hc : c.addresses = [] := hroute c List.mem_cons_self
    have hroute' : ∀ q ∈ route, q.addresses = [] := fun q hq ↦
      hroute q (List.mem_cons_of_mem _ hq)
    rw [← List.append_assoc]
    cases hdefined : p.isUndefined with
    | true =>
      rw [List.filter_cons_of_neg (by simp [hdefined])]
      rw [PointCommand.setFrames_of_isUndefined hfs hdefined, List.map_eq_nil_iff] at hfirst
      rw [hfirst, List.append_nil]
      exact ih hroute' hrestmoves hrest h
    | false =>
      rw [List.filter_cons_of_pos (by simp [hdefined]), List.foldl_cons]
      refine ih hroute' hrestmoves hrest ?_
      have hresolves : l.resolvePoint? c = some p := by
        rw [Layout.Resolves, ← hsame.isUndefined_eq, hdefined] at hp
        exact hp
      rw [Yard.recordPoint, Layout.keysOf_of_sameRequest hsame, hsame.position]
      refine h.moved hl hc hresolves ?_
      have hencodes := PointCommand.encodes_of_setFrames hfs hdefined
      rw [← hfirst, List.forall₂_map_right_iff, hsame.position] at hencodes
      exact hencodes

end Truthful

/-! ### Sequential runs -/

/-- The commands of a layout's routes have locks that are apart from all points. -/
def Layout.RoutesApart (l : Layout) : Prop :=
  ∀ d ∈ l.routes, ∀ p ∈ d.points, l.KeepsApart p.command

/-- A call carries no addresses of points, and its locks are apart from all points. -/
def Job.KeepsApart (l : Layout) : Job → Prop
  | .command (.point c) _ => c.addresses = []
  | .command (.route request) _ => ∀ p ∈ request.points, l.KeepsApart p
  | _ => True

/-- The locks of active routes are apart from all points. -/
def Reservations.LocksApart (l : Layout) (active : Reservations) : Prop :=
  ∀ r ∈ active.routes, ∀ p ∈ r.points, ∀ a ∈ p.lockAddresses, l.Apart a

/-- Frames for locks that are apart from all points are for none of them. -/
theorem Layout.Apart.isAt_eq_false {l : Layout} {a b : Int32} {e : Turn × AcceptedFrame}
    {d : PointDefinition} {position : Position} (h : l.Apart b)
    (he : e.2.frame.address = b.toInt.natAbs) (hd : d ∈ l.points)
    (ha : a ∈ d.addressesFor position) : isAt a e = false :=
  Bool.eq_false_iff.2 fun hat ↦ h d hd position a ha (he.symm.trans (isAt_iff.1 hat))

namespace Yard.Admits

variable {y : Yard} {request route resolved : RouteCommand} {frames : List Frame}

/-- The points of a request that passes carry no addresses, and their locks are apart. -/
theorem locksApart (h : y.Admits request route resolved frames) (hroutes : y.layout.RoutesApart)
    (hrequest : ∀ p ∈ request.points, y.layout.KeepsApart p) :
    (∀ c ∈ route.points, c.addresses = []) ∧
      ∀ p ∈ resolved.points, ∀ a ∈ p.lockAddresses, y.layout.Apart a := by
  have hapart : ∀ c ∈ route.points, y.layout.KeepsApart c := by
    intro c hc
    rcases mem_points_of_withPoints h.expanded hc with hc | ⟨d, hd, p, hp, rfl⟩
    · exact hrequest c hc
    · exact hroutes d hd p hp
  refine ⟨fun c hc ↦ (hapart c hc).addresses_eq, fun p hp a ha ↦ ?_⟩
  obtain ⟨points, hpoints, rfl⟩ := Layout.resolveRoute_eq_ok_iff.1 h.resolves
  obtain ⟨c, hc, hresolves⟩ := exists_left_of_mem_right hpoints hp
  rw [Layout.Resolves] at hresolves
  split at hresolves
  · -- a point that nothing is asked of keeps the addresses that it does not have
    subst hresolves
    rw [PointCommand.lockAddresses] at ha
    split at ha
    · simp [(hapart p hc).addresses_eq] at ha
    · cases ha
  · exact (hapart c hc).apart p hresolves a ha

end Yard.Admits

namespace Yard.Effect

variable {y w : Yard} {job : Job} {sent : List AcceptedFrame} {result : JobResult}

/-- **One call** keeps the locks of active routes apart from all points. -/
theorem locksApart (hroutes : y.layout.RoutesApart) (hjob : job.KeepsApart y.layout)
    (h : y.Effect job sent result w) (hlocks : y.active.LocksApart y.layout) :
    w.active.LocksApart y.layout := by
  intro r hr
  rcases h.mem_routes hr with hr | ⟨request, token, route, frames, rfl, -, hadmits, -⟩
  · exact hlocks r hr
  · exact (hadmits.locksApart hroutes hjob).2

/-- **One call** keeps the record truthful. -/
theorem truthful (hl : y.layout.Distinct) (hroutes : y.layout.RoutesApart)
    (hjob : job.KeepsApart y.layout) (h : y.Effect job sent result w)
    (hlocks : y.active.LocksApart y.layout) {log new : List (Turn × AcceptedFrame)}
    (hnew : new.map (·.2) = sent)
    (hstray : (job.isPositional && !result.isError) = false → ∀ e ∈ new, e.1.goesThrough = false)
    (htruthful : Truthful y.layout y.positions log) :
    Truthful y.layout w.positions (log ++ new) := by
  have hframes {frames : List Frame} (hsent : sent.map (·.frame) = frames) :
      new.map (·.2.frame) = frames := by
    rw [← hsent, ← hnew, List.map_map]
    rfl
  have hnone (hsent : sent = []) : log ++ new = log := by
    rw [List.map_eq_nil_iff.1 (hnew.trans hsent), List.append_nil]
  cases h with
  | idle _ _ hw | inPosition _ _ hw | stuck _ _ hw =>
    rw [hw.positions_eq, hnone rfl]
    exact htruthful
  | moved hmoves hsent hw =>
    rw [hw.positions_eq]
    have hsame := Layout.sameRequest_of_resolvePoint? hmoves.resolves
    refine htruthful.moved hl hjob hmoves.resolves ?_
    have hencodes := PointCommand.encodes_of_setFrames hmoves.encoded
      (hsame.isUndefined_eq.trans hmoves.defined)
    rw [← hframes hsent, List.forall₂_map_right_iff, hsame.position] at hencodes
    exact hencodes
  | set _ hadmits hsent hw =>
    rw [hw.positions_eq]
    obtain ⟨haddresses, hapart⟩ := hadmits.locksApart hroutes hjob
    obtain ⟨points, hpoints, rfl⟩ := Layout.resolveRoute_eq_ok_iff.1 hadmits.resolves
    obtain ⟨moves, locks, hmoves, hlockFrames, hflat⟩ :=
      RouteCommand.setFrames_eq_ok_iff.1 hadmits.encoded
    obtain ⟨first, rest, rfl, hfirst, hrest⟩ :=
      List.map_eq_append_iff.1 ((hframes hsent).trans hflat.symm)
    rw [← List.append_assoc]
    -- first the points move, then their locks are engaged
    refine (htruthful.movedAll hl haddresses hpoints hmoves hfirst).apart ?_
    intro e he d hd position a ha
    have hmem : e.2.frame ∈ locks.flatten := hrest ▸ List.mem_map_of_mem he
    obtain ⟨p, hp, b, hb, hencodes⟩ :=
      (encodes_locks (hlockFrames.imp fun p fs ↦ PointCommand.encodes_of_lockFrames)).1 _ hmem
    exact (hapart p hp b hb).isAt_eq_false hencodes.address_eq hd ha
  | released hreleases hunlock hsent hw =>
    rw [hw.positions_eq]
    refine htruthful.apart ?_
    intro e he d hd position a ha
    have hmem : e.2.frame ∈ _ := hframes hsent ▸ List.mem_map_of_mem he
    obtain ⟨p, hp, b, hb, hencodes⟩ := (encodes_of_unlockFrames hunlock).1 _ hmem
    obtain ⟨r, hr, hp⟩ := Reservations.exists_of_mem_pointsToUnlock hp
    have hactive := hreleases.mem_routes_iff.2 (.inl hr)
    exact (hlocks r hactive p hp b hb).isAt_eq_false hencodes.address_eq hd ha
  | shown hjob _ _ hw =>
    rw [hw.positions_eq]
    exact htruthful.stray (hstray (by rw [hjob, Bool.false_and]))
  | failed _ _ hw =>
    rw [hw.positions_eq]
    exact htruthful.stray (hstray (Bool.and_false _))

end Yard.Effect

namespace Turns

variable {layout : Layout} {turns : List Turn}

/-- What is known of the yard after some turns. -/
structure RecordHolds (layout : Layout) (turns : List Turn) (y : Yard) : Prop where
  layout_eq : y.layout = layout
  truthful : Truthful layout y.positions (Turn.log turns)
  locksApart : y.active.LocksApart layout

/-- **Run.** After every sequential run the record is truthful. -/
theorem recordHolds {delay capacity : Nat} {faults : BusFaults} {y : Yard}
    (hl : layout.Distinct) (hroutes : layout.RoutesApart)
    (h : Turns (.start layout delay capacity faults) turns y)
    (hjobs : ∀ turn ∈ turns, turn.job.KeepsApart layout) : RecordHolds layout turns y := by
  induction h with
  | nil => exact ⟨rfl, .empty layout, fun r hr ↦ by cases hr⟩
  | @concat turns turn _ hturn ih =>
    obtain ⟨hlayout, htruthful, hlocks⟩ := ih fun t ht ↦ hjobs t (List.mem_append_left _ ht)
    have hjob : turn.job.KeepsApart layout := hjobs turn (by simp)
    have heffect := hturn.effect
    subst hlayout
    refine ⟨congrArg Plan.layout heffect.plan_eq, ?_, heffect.locksApart hroutes hjob hlocks⟩
    rw [Turn.log_concat]
    refine heffect.truthful hl hroutes hjob hlocks turn.map_snd_frames (fun hstray e he ↦ ?_)
      htruthful
    rw [Turn.fst_of_mem_frames he]
    exact hstray

/-- **A point that is reported to be in position.** In a sequential run over a layout without
shared addresses, the latest frame for an address of the point commands the position asked for,
exactly if it is not a frame that was left otherwise by a call that failed or was not for points.
-/
theorem shows_iff_of_alreadyInPosition (layout : Layout) (delay capacity : Nat)
    (faults : BusFaults) {turns : List Turn} {turn : Turn} {w : Yard} {c : PointCommand}
    {token : Token} (hl : layout.Distinct) (hroutes : layout.RoutesApart)
    (h : Turns (.start layout delay capacity faults) (turns ++ [turn]) w)
    (hjobs : ∀ t ∈ turns ++ [turn], t.job.KeepsApart layout)
    (hjob : turn.job = .command (.point c) token)
    (hresult : turn.result = .command (.ok (.point .alreadyInPosition))) :
    turn.sent = [] ∧ w.line.accepted = (Turn.log turns).map (·.2) ∧
      ∃ point, layout.resolvePoint? c = some point ∧
        ∀ a ∈ point.addresses, Shows (Turn.log turns) a c.position ↔
          ¬ LeftOtherwise (Turn.log turns) a c.position := by
  obtain ⟨hrun, hturn, rfl⟩ := h.of_concat
  obtain ⟨rfl, htruthful, -⟩ :=
    recordHolds hl hroutes hrun fun t ht ↦ hjobs t (List.mem_append_left _ ht)
  have hc : c.addresses = [] := by
    have hkeeps := hjobs turn (by simp)
    rwa [hjob] at hkeeps
  have heffect := hturn.effect
  rw [hjob, hresult] at heffect
  generalize hsent : turn.sent = sent at heffect
  cases heffect with
  | idle _ hother => exact absurd rfl hother
  | shown hpositional => cases hpositional
  | @inPosition _ point _ _ hresolves hall hw =>
    refine ⟨rfl, ?_, point, hresolves, fun a ha ↦ ?_⟩
    · rw [hw.accepted_eq, hrun.accepted_eq, List.append_nil]
      rfl
    · obtain ⟨d, hd, hmeans, ha⟩ := (Layout.mem_addresses_iff hc hresolves).1 ha
      have hkey := (Layout.key_mem_keysOf_iff hd).2 hmeans
      have hposition := of_decide_eq_true (List.all_eq_true.1 hall _ hkey)
      rw [(Layout.sameRequest_of_resolvePoint? hresolves).position] at hposition
      obtain ⟨sender, f, hlatest, hf⟩ := htruthful d hd _ hposition a ha
      constructor
      · intro hshows hleft
        exact hleft.not_shows hshows
      · intro hleft
        refine ⟨sender, f, hlatest, ?_⟩
        -- a sender that has gone through has agreed with the record
        by_contra hne
        refine hleft ⟨sender, f, hlatest, Bool.eq_false_iff.2 fun hthrough ↦ ?_, hne⟩
        exact hne (hf hthrough)

/-! ### A point with two addresses -/

/-- A junction with one point that is switched by two accessories. -/
def twoAddresses : Layout :=
  .junction [.linked "27" [12, 13] [12, 13] 0]

theorem distinct_twoAddresses : twoAddresses.Distinct where
  apart := List.pairwise_singleton _ _
  single d hd p := by
    obtain rfl := List.mem_singleton.1 hd
    cases p <;> decide

/-- The point is to be moved, in a yard without delays. -/
def movesTo (position : Position) : Job :=
  .command (.point (.plain 27 position)) .never

/-- The point is moved, and is in position when it is to be moved there again. -/
theorem shows_iff_of_moved :
    let first := Turn.ofMoves (.start twoAddresses 0 64 .none) (movesTo .straight)
      (List.replicate 7 (.go 0)) (.command (.ok (.point .set)))
    let second := Turn.ofMoves first.after (movesTo .straight) [.go 0]
      (.command (.ok (.point .alreadyInPosition)))
    second.sent = [] ∧ second.after.line.accepted = (Turn.log [first]).map (·.2) ∧
      ∃ point, twoAddresses.resolvePoint? (.plain 27 .straight) = some point ∧
        ∀ a ∈ point.addresses, Shows (Turn.log [first]) a .straight ↔
          ¬ LeftOtherwise (Turn.log [first]) a .straight := by
  intro first second
  have hfirst : Turns (.start twoAddresses 0 64 .none) [first] first.after :=
    Turns.nil.ofMoves rfl (show _ = [Task.ended _ 0] by decide +kernel)
  have hsecond : Turns (.start twoAddresses 0 64 .none) ([first] ++ [second]) second.after :=
    hfirst.ofMoves rfl (show _ = [Task.ended _ 0] by decide +kernel)
  refine shows_iff_of_alreadyInPosition twoAddresses 0 64 .none
    distinct_twoAddresses ?_ hsecond ?_ rfl rfl
  · intro d hd
    cases hd
  · intro t ht
    obtain rfl | rfl : t = first ∨ t = second := by simpa using ht
    · rfl
    · rfl

/-- The bus refuses the second frame for the diverging position. Both accessories have been set
straight before, one of them has moved, and the point is reported to be straight. -/
theorem leftOtherwise_of_refused :
    let y := Yard.start twoAddresses 0 64 { BusFaults.none with refuseAt := some 3 }
    let first := Turn.ofMoves y (movesTo .straight) (List.replicate 7 (.go 0))
      (.command (.ok (.point .set)))
    let second := Turn.ofMoves first.after (movesTo .diverging) (List.replicate 7 (.go 0))
      (.command (.error (.transport 1 (.refused 3))))
    let third := Turn.ofMoves second.after (movesTo .straight) [.go 0]
      (.command (.ok (.point .alreadyInPosition)))
    Turns y [first, second, third] third.after ∧
      ∃ point, twoAddresses.resolvePoint? (.plain 27 .straight) = some point ∧
        ∃ a ∈ point.addresses, LeftOtherwise (Turn.log [first, second]) a .straight ∧
          ¬ Shows (Turn.log [first, second]) a .straight := by
  intro y first second third
  have hfirst : Turns y [first] first.after :=
    Turns.nil.ofMoves rfl (show _ = [Task.ended _ 0] by decide +kernel)
  have hsecond : Turns y ([first] ++ [second]) second.after :=
    hfirst.ofMoves rfl (show _ = [Task.ended _ 0] by decide +kernel)
  have hthird : Turns y ([first] ++ [second] ++ [third]) third.after :=
    hsecond.ofMoves rfl (show _ = [Task.ended _ 0] by decide +kernel)
  have hsent : second.sent = [⟨.ofMagnitude .set 12 .thrown, 0⟩] := by decide +kernel
  have hleft : LeftOtherwise (Turn.log [first, second]) 12 .straight := by
    refine ⟨second, ⟨.ofMagnitude .set 12 .thrown, 0⟩, ?_, rfl, by decide +kernel⟩
    obtain ⟨e, he, -, hlatest⟩ := latest?_append_of_exists (p := isAt 12) (Turn.log [first])
      ⟨(second, ⟨.ofMagnitude .set 12 .thrown, 0⟩), List.mem_singleton_self _, by decide +kernel⟩
    show latest? (isAt 12) (Turn.log ([first] ++ [second])) = _
    rw [Turn.log_concat, Turn.frames, hsent]
    rwa [List.mem_singleton.1 he] at hlatest
  exact ⟨hthird, _, rfl, 12, by decide +kernel, hleft, hleft.not_shows⟩

end Turns

end SignalBox
