import SignalBox.Program
import SignalBox.Proofs.ConsoleCommands
import SignalBox.Proofs.FaithfulDocuments
import SignalBox.Proofs.KeySequences

/-!
# Reloads that are typed

A request to reload is a command like the others that are typed, but all that it does is to publish
a notice. The program reads the layout again when it comes to this notice among those that it has
received, which is after all commands of the turn. Two things follow, of which neither depends on
anything but the turn in which the request is typed.

* **The notice may be lost**: the commands behind the request publish notices too, and the channel
  keeps no more than its ring holds. The layout is read again in the turn exactly if the notices
  behind the last request leave room for it (`Program.rereads_iff`).
* **The layout comes late**: the commands behind the request that belong to the same turn are done
  in the layout that is about to be replaced, and only those of later turns in the one that is
  loaded (`Program.against_reloaded_iff`). The layout of a command is here that of the yard in which
  it is done from its beginning to its end (`Program.completes_of_mem_doneIn`).

Both rest on what a turn does to the channel (`Session.channel_carryOut`) and on what the program
makes of the notices received (`Program.mem_handle`, `Program.layout_handle`).
-/

namespace SignalBox

/-! ### What an observer receives -/

namespace Channel

variable {c : Channel} {o : Observer} {notice : Notice} {read before after : List Notice}

theorem mem_pending :
    .notice notice ∈ c.pending o ↔ notice ∈ c.published.drop (c.resume o) := by
  have hkept : Received.notice notice ∈ (c.published.drop (c.resume o)).map .notice ↔
      notice ∈ c.published.drop (c.resume o) :=
    List.mem_map_of_injective fun _ _ ↦ Received.notice.inj
  rw [pending]
  split
  · rw [List.mem_cons, hkept]
    simp
  · exact hkept

theorem mem_drop_iff {place : Nat} (h : notice ∉ after) :
    notice ∈ (before ++ notice :: after).drop place ↔ place ≤ before.length := by
  constructor
  · intro hmem
    by_contra hplace
    have hdrop : (before ++ notice :: after).drop place =
        after.drop (place - (before.length + 1)) := by
      rw [List.append_cons, List.drop_append, List.drop_eq_nil_of_le (by simp; omega)]
      simp
    exact h (List.mem_of_mem_drop (hdrop ▸ hmem))
  · intro hplace
    rw [List.drop_append_of_le_length hplace]
    exact List.mem_append_right _ List.mem_cons_self

/-- **The last notice of its kind** reaches an observer that has read what was there before, exactly
if the notices behind it leave room for it in the ring. -/
theorem mem_pending_iff (hpublished : c.published = read ++ before ++ notice :: after)
    (hnext : o.next = read.length) (hlast : notice ∉ after) :
    .notice notice ∈ c.pending o ↔ after.length < c.ring := by
  rw [mem_pending, hpublished, mem_drop_iff hlast, resume, hnext, tail, hpublished]
  simp only [List.length_append, List.length_cons]
  omega

theorem ringFor_pos (capacity : Nat) : 0 < ringFor capacity :=
  Nat.pos_of_isPowerOfTwo (Nat.isPowerOfTwo_nextPowerOfTwo _)

end Channel

/-! ### Commands and the layouts in which they are done -/

namespace Session

/-- Commands that are done one after another, each with the layout in which it begins. -/
def against (s : Session) : List Command → List (Command × Layout)
  | [] => []
  | c :: commands => (c, s.yard.layout) :: (s.doOne (.command c .never)).1.against commands

/-- All of them are done in the same layout. -/
theorem against_eq (s : Session) (commands : List Command) :
    s.against commands = commands.map fun c ↦ (c, s.yard.layout) := by
  induction commands generalizing s with
  | nil => rfl
  | cons c commands ih =>
    have hlayout := s.layout_carryOut [c]
    rw [carryOut_cons, carryOut_nil] at hlayout
    rw [against, ih, hlayout, List.map_cons]

@[simp] theorem length_against (s : Session) (commands : List Command) :
    (s.against commands).length = commands.length := by
  rw [against_eq, List.length_map]

theorem layout_of_mem_against {s : Session} {commands : List Command} {c : Command} {used : Layout}
    (h : (c, used) ∈ s.against commands) : used = s.yard.layout := by
  rw [against_eq, List.mem_map] at h
  obtain ⟨c', -, h⟩ := h
  exact (congrArg Prod.snd h).symm

/-- **Each of them is done** from its beginning to its end in the yard of the session as those in
front of it have left it, and this yard has the layout that stands beside it. -/
theorem completes_of_against {s : Session} {commands : List Command} {place : Nat} {c : Command}
    {used : Layout} (h : (s.against commands)[place]? = some (c, used)) :
    (s.carryOut (commands.take place)).yard.layout = used ∧ ∃ result,
      Task.Completes (s.carryOut (commands.take place)).yard (.pending (.command c .never)) result
        (s.carryOut (commands.take (place + 1))).yard := by
  induction commands generalizing s place with
  | nil => cases h
  | cons first commands ih =>
    cases place with
    | zero =>
      obtain ⟨rfl, rfl⟩ := Prod.mk.inj (Option.some.inj h)
      obtain ⟨w, result, hdone, hcompletes⟩ := s.doOne_completes (.command first .never)
      have hafter : s.carryOut ((first :: commands).take (0 + 1)) = { s with yard := w } := by
        rw [List.take_succ_cons, List.take_zero, carryOut_cons, carryOut_nil, hdone]
      rw [hafter]
      exact ⟨rfl, result, hcompletes⟩
    | succ place =>
      rw [List.take_succ_cons, List.take_succ_cons, carryOut_cons, carryOut_cons]
      exact ih h

end Session

namespace Program

/-- The layout by which the program works. -/
def layout (p : Program) : Layout := p.session.yard.layout

variable {p : Program} {text : Option String} {received : List Received} {success : Bool}
  {layout : Layout} {ring : Nat}

/-! ### What the program makes of notices -/

/-- The program with another layout. -/
def withLayout (p : Program) (layout : Layout) : Program :=
  { p with session := { p.session with yard := p.session.yard.replaceLayout layout } }

@[simp] theorem layout_withLayout : (p.withLayout layout).layout = layout := rfl

theorem reload_eq (p : Program) (text : Option String) : p.reload text =
    match text.bind Document.ofText? with
    | none => (p, .reloaded false)
    | some layout => (p.withLayout layout, .reloaded true) := by
  rw [reload, Option.bind_assoc]
  rfl

/-- What the program makes of one thing received: the event, and the program from then on. -/
inductive Handles (p : Program) (text : Option String) : Received → ProgramEvent → Program → Prop
  /-- The layout is to be read again, but there is none in the file. -/
  | unread (hread : (text.bind Document.ofText? : Option Layout) = none) :
      Handles p text (.notice .reloadRequested) (.reloaded false) p
  /-- The layout is read again. -/
  | loaded {layout : Layout} (hread : text.bind Document.ofText? = some layout) :
      Handles p text (.notice .reloadRequested) (.reloaded true) (p.withLayout layout)
  /-- Something else is told. -/
  | other {r : Received} {event : ProgramEvent} (hr : r ≠ .notice .reloadRequested)
      (hevent : ∀ success, event ≠ .reloaded success) : Handles p text r event p

/-- **Notices are handled** one by one. -/
theorem handle_cons (p : Program) (text : Option String) (r : Received) (rest : List Received) :
    ∃ event q, p.Handles text r event q ∧
      p.handle text (r :: rest) = ((q.handle text rest).1, event :: (q.handle text rest).2) := by
  cases r with
  | lagged missed => exact ⟨.missed missed, p, .other (by simp) (by simp), rfl⟩
  | notice notice =>
    cases notice with
    | reloadRequested =>
      rw [handle]
      dsimp only
      rw [reload_eq]
      cases hread : (text.bind Document.ofText? : Option Layout) with
      | none => exact ⟨_, p, .unread hread, rfl⟩
      | some layout => exact ⟨_, p.withLayout layout, .loaded hread, rfl⟩
    | _ => exact ⟨.printed _, p, .other (by simp) (by simp), rfl⟩

/-- **Handling notices** changes nothing but the layout. -/
theorem handle_eq (p : Program) (text : Option String) (received : List Received) : ∃ plan,
    (p.handle text received).1 =
      { p with session := { p.session with yard := { p.session.yard with plan := plan } } } := by
  induction received generalizing p with
  | nil => exact ⟨p.session.yard.plan, rfl⟩
  | cons r rest ih =>
    obtain ⟨event, q, hstep, h⟩ := p.handle_cons text r rest
    rw [h]
    cases hstep with
    | unread | other => exact ih p
    | @loaded layout => exact ih (p.withLayout layout)

/-- **The file is read again** exactly if a request has been received, with success if there is a
layout in it. -/
theorem mem_handle : .reloaded success ∈ (p.handle text received).2 ↔
    .notice .reloadRequested ∈ received ∧
      (text.bind Document.ofText? : Option Layout).isSome = success := by
  induction received generalizing p with
  | nil => simp [handle]
  | cons r rest ih =>
    obtain ⟨event, q, hstep, h⟩ := p.handle_cons text r rest
    rw [h, List.mem_cons, ih, List.mem_cons]
    cases hstep with
    | unread hread | loaded hread => simp [hread, eq_comm]
    | other hr hevent => simp [(hevent success).symm, Ne.symm hr]

/-- **The layout after notices** is the one in the file if a request has been received and there is
one, and else the one before. -/
theorem layout_handle : (p.handle text received).1.layout =
    if .notice .reloadRequested ∈ received then (text.bind Document.ofText?).getD p.layout
    else p.layout := by
  induction received generalizing p with
  | nil => rfl
  | cons r rest ih =>
    obtain ⟨event, q, hstep, h⟩ := p.handle_cons text r rest
    rw [h, ih]
    cases hstep with
    | unread hread | loaded hread => simp [hread]
    | other hr => simp [Ne.symm hr]

/-! ### Turns -/

/-- What the program finds in a turn: the bytes that have come in, and the text of the layout
file. -/
structure Poll where
  bytes : List UInt8
  layoutText : Option String

/-- One turn. -/
def takeTurn (p : Program) (poll : Poll) : Program × List ProgramEvent :=
  p.turn poll.bytes poll.layoutText

/-- Several turns, between which the layout file may change. -/
def follow (p : Program) : List Poll → Program × List ProgramEvent
  | [] => (p, [])
  | poll :: polls =>
    let (p, events) := p.takeTurn poll
    let (p, more) := p.follow polls
    (p, events ++ more)

/-- The turns of the program on a file that does not change. -/
theorem turns_eq_follow (p : Program) (text : Option String) (input : List (List UInt8)) :
    p.turns text input = p.follow (input.map fun bytes ↦ ⟨bytes, text⟩) := by
  induction input generalizing p with
  | nil => rfl
  | cons bytes input ih =>
    rw [turns, List.map_cons, follow]
    dsimp only [takeTurn]
    rw [ih]

/-- The session once bytes have been typed, and the commands that they complete. -/
def typed (p : Program) (bytes : List UInt8) : Session × List Command :=
  p.session.typeKeys (bytes.map KeyEvent.ofByte)

@[simp] theorem layout_typed (p : Program) (bytes : List UInt8) :
    (p.typed bytes).1.yard.layout = p.layout := rfl

theorem typed_snd (p : Program) (bytes : List UInt8) : (p.typed bytes).2 =
    (p.session.console.pressAll
      ((bytes.map KeyEvent.ofByte).filterMap KeyEvent.grammarChar?)).2 := rfl

/-- The session once the commands that bytes complete have been done. -/
def served (p : Program) (bytes : List UInt8) : Session :=
  (p.typed bytes).1.carryOut (p.typed bytes).2

theorem takeTurn_eq (p : Program) (poll : Poll) : p.takeTurn poll =
    Program.handle { p with session := (p.served poll.bytes).watch.1 } poll.layoutText
      (p.served poll.bytes).watch.2 := rfl

variable {poll : Poll} {polls : List Poll} {before after : List Command}

/-- What a turn does to the session before the notices are handled. -/
theorem served_eq (p : Program) (bytes : List UInt8) : ∃ w,
    p.served bytes = { (p.typed bytes).1 with yard := w } ∧ w.plan = p.session.yard.plan ∧
      w.channel = { p.session.yard.channel with
        published :=
          p.session.yard.channel.published ++ (p.typed bytes).1.told (p.typed bytes).2 } :=
  (p.typed bytes).1.carryOut_eq (p.typed bytes).2

/-- What a turn leaves behind: a yard with the same ring, and an observer that has seen all
notices. -/
theorem takeTurn_fst (p : Program) (poll : Poll) : ∃ w,
    (p.takeTurn poll).1 = { p with
      session := { (p.typed poll.bytes).1 with yard := w, watcher := w.channel.caughtUp } } ∧
    w.channel.ring = p.session.yard.channel.ring := by
  obtain ⟨w, hw, -, hchannel⟩ := p.served_eq poll.bytes
  obtain ⟨plan, hplan⟩ := handle_eq { p with session := (p.served poll.bytes).watch.1 }
    poll.layoutText (p.served poll.bytes).watch.2
  have hring : w.channel.ring = p.session.yard.channel.ring := by rw [hchannel]
  refine ⟨{ w with plan := plan }, ?_, hring⟩
  rw [takeTurn_eq, hplan, hw]
  rfl

/-- The program has a channel of the given ring, and nothing is left in it that it has not seen. -/
structure Ready (p : Program) (ring : Nat) : Prop where
  ring_eq : p.session.yard.channel.ring = ring
  next_eq : p.session.watcher.next = p.session.yard.channel.tail

theorem Ready.takeTurn (h : p.Ready ring) (poll : Poll) : (p.takeTurn poll).1.Ready ring := by
  obtain ⟨w, hw, hring⟩ := p.takeTurn_fst poll
  rw [hw]
  exact ⟨hring.trans h.ring_eq, rfl⟩

theorem Ready.follow (h : p.Ready ring) (polls : List Poll) : (p.follow polls).1.Ready ring := by
  induction polls generalizing p with
  | nil => exact h
  | cons poll polls ih => exact ih (h.takeTurn poll)

/-! ### Programs that have started -/

/-- The program for a configuration and a layout. -/
def ofDocuments (config : Config) (layout : Layout) : Program :=
  { banner := bannerFor config.station layout
    session := .start layout config.dispatch config.console .none }

/-- Files with the texts of a layout and a configuration. -/
def filesOf (layout : Layout) (config : Config) (path : String) : Option String :=
  if path = "yard.json" then some (Document.text layout) else some (Document.text config)

theorem read_text {α : Type} [Document α] [Faithful α] (file : ProgramFile) (path : String)
    (a : α) : file.read path (some (Document.text a)) = .ok a := by
  have h := (Document.roundTrips α).ofText?_text a
  rw [Document.ofText?] at h
  rw [ProgramFile.read, h]

/-- **A program that is started** with the texts of a layout and a configuration works by them. -/
theorem start_filesOf (layout : Layout) (config : Config) :
    start ["yard.json", "config.json"] (filesOf layout config) =
      .ok (ofDocuments config layout) := by
  have hargs : Arguments.ofList? ["yard.json", "config.json"] =
      some ⟨false, "yard.json", some "config.json"⟩ := by decide
  have hlayout : filesOf layout config "yard.json" = some (Document.text layout) := if_pos rfl
  have hconfig : filesOf layout config "config.json" = some (Document.text config) :=
    if_neg (by decide)
  rw [start, hargs]
  dsimp only
  rw [hconfig, hlayout, read_text, read_text]
  rfl

/-- **A program that has started** has found a configuration and a layout. -/
theorem exists_of_start {args : List String} {files : String → Option String}
    (h : start args files = .ok p) : ∃ config layout, p = ofDocuments config layout := by
  rw [start] at h
  split at h
  · cases h
  next a _ =>
    have hlayout {config : Config} (h : (do
        let layout ← ProgramFile.layout.read a.layoutPath (files a.layoutPath)
        return ofDocuments config layout) = .ok p) :
        ∃ config layout, p = ofDocuments config layout := by
      obtain ⟨layout, -, h⟩ := bind_eq_ok_iff.1 h
      exact ⟨config, layout, (Except.ok.inj h).symm⟩
    dsimp only at h
    split at h
    · exact hlayout h
    · obtain ⟨config, -, h⟩ := bind_eq_ok_iff.1 h
      exact hlayout h

/-- **A program that has started** has seen everything. -/
theorem ready_of_start {args : List String} {files : String → Option String}
    (h : start args files = .ok p) :
    p.Ready (Channel.ringFor p.session.config.noticeCapacity.toNat) := by
  obtain ⟨config, layout, rfl⟩ := exists_of_start h
  exact ⟨rfl, rfl⟩

/-! ### Requests to reload -/

/-- The notices that are told in a turn by the commands from the given place on. -/
def toldFrom (p : Program) (bytes : List UInt8) (place : Nat) : List Notice :=
  ((p.typed bytes).1.carryOut ((p.typed bytes).2.take place)).told ((p.typed bytes).2.drop place)

/-- The notices of a turn in which a request to reload is typed. -/
theorem told_typed (p : Program) (bytes : List UInt8)
    (htyped : (p.typed bytes).2 = before ++ .control .reload :: after) :
    (p.typed bytes).1.told (p.typed bytes).2 = (p.typed bytes).1.told before ++
      .reloadRequested :: p.toldFrom bytes (before.length + 1) := by
  have hlength : (before ++ [Command.control .reload]).length = before.length + 1 :=
    List.length_append
  rw [toldFrom, htyped, List.append_cons, ← hlength, List.take_left, List.drop_left,
    Session.told_append, Session.told_append, Session.told_reload, List.append_assoc]
  rfl

/-- Nothing behind the last request to reload asks for a reload. -/
theorem not_mem_toldFrom (p : Program) (bytes : List UInt8)
    (htyped : (p.typed bytes).2 = before ++ .control .reload :: after)
    (hlast : .control .reload ∉ after) :
    .reloadRequested ∉ p.toldFrom bytes (before.length + 1) := by
  rw [toldFrom]
  refine Session.not_mem_told _ ?_
  rwa [htyped, List.append_cons, List.drop_left' (by simp)]

/-- One notice is told by each command behind a request to reload, if each of them tells one. -/
theorem length_toldFrom (p : Program) (bytes : List UInt8)
    (htyped : (p.typed bytes).2 = before ++ .control .reload :: after)
    (honce : ∀ c ∈ after, c.TellsOnce) :
    (p.toldFrom bytes (before.length + 1)).length = after.length := by
  have hafter : (p.typed bytes).2.drop (before.length + 1) = after := by
    rw [htyped, List.append_cons, List.drop_left' (by simp)]
  rw [toldFrom, hafter]
  exact Session.length_told _ honce

/-- **The last request to reload** of a turn is received exactly if the notices told behind it leave
room for it. -/
theorem Ready.mem_takeTurn (h : p.Ready ring) (poll : Poll)
    (htyped : (p.typed poll.bytes).2 = before ++ .control .reload :: after)
    (hlast : .control .reload ∉ after) :
    .reloaded success ∈ (p.takeTurn poll).2 ↔
      (p.toldFrom poll.bytes (before.length + 1)).length < ring ∧
        (poll.layoutText.bind Document.ofText? : Option Layout).isSome = success := by
  obtain ⟨w, hw, -, hchannel⟩ := p.served_eq poll.bytes
  rw [takeTurn_eq, mem_handle, and_congr_left_iff]
  intro _
  have hpublished : w.channel.published =
      p.session.yard.channel.published ++ (p.typed poll.bytes).1.told before ++
        .reloadRequested :: p.toldFrom poll.bytes (before.length + 1) := by
    rw [hchannel, p.told_typed _ htyped, List.append_assoc]
  have hring : w.channel.ring = ring := by
    rw [hchannel]
    exact h.ring_eq
  rw [Session.watch, hw, ← hring]
  exact Channel.mem_pending_iff hpublished h.next_eq (p.not_mem_toldFrom _ htyped hlast)

/-- **Without a request to reload** the layout file is not read. -/
theorem Ready.not_mem_takeTurn (h : p.Ready ring) (poll : Poll)
    (hnone : .control .reload ∉ (p.typed poll.bytes).2) :
    .reloaded success ∉ (p.takeTurn poll).2 := by
  obtain ⟨w, hw, -, hchannel⟩ := p.served_eq poll.bytes
  rw [takeTurn_eq, mem_handle, Session.watch, hw]
  rintro ⟨hreceived, -⟩
  have hmem : .reloadRequested ∈ w.channel.published.drop p.session.watcher.next :=
    List.drop_subset_drop_left _ (Nat.le_max_left _ _) (Channel.mem_pending.1 hreceived)
  rw [hchannel, h.next_eq] at hmem
  exact Session.not_mem_told _ hnone (List.drop_left ▸ hmem)

/-- **A request to reload that ends its turn** is always received. -/
theorem rereads_of_concat {args : List String} {files : String → Option String}
    (hstart : start args files = .ok p) (polls : List Poll) (poll : Poll)
    (htyped : ((p.follow polls).1.typed poll.bytes).2 = before ++ [.control .reload]) :
    ∃ success, .reloaded success ∈ ((p.follow polls).1.takeTurn poll).2 := by
  have hready := (ready_of_start hstart).follow polls
  refine ⟨_, (hready.mem_takeTurn poll htyped List.not_mem_nil).2 ⟨?_, rfl⟩⟩
  rw [length_toldFrom _ _ htyped (by simp)]
  exact Channel.ringFor_pos _

/-- A request to reload, and one for a point behind it, as bytes. -/
def reloadAndPoint : List UInt8 := "+-27+".toList.map fun c ↦ UInt8.ofNat c.toNat

theorem typed_reloadAndPoint (config : Config) (layout : Layout) (h : config.console = .standard) :
    ((ofDocuments config layout).typed reloadAndPoint).2 =
      [.control .reload, .point (.plain 27 .straight)] := by
  have hconsole : (ofDocuments config layout).session.console =
      Interpreter.ofGrammar (.ofConfig .standard) := by
    rw [← h]
    rfl
  rw [typed_snd, hconsole]
  decide +kernel

/-- A configuration with the smallest ring, which holds one notice. -/
def narrow : Config :=
  { Config.standard with dispatch := { frameDelay := 0, noticeCapacity := 1 } }

theorem one_lt_ring_standard :
    1 < Channel.ringFor DispatchConfig.standard.noticeCapacity.toNat := by
  decide +kernel

/-- **The last request to reload.** The layout file is read again in a turn exactly if the notices
told behind the last request to reload leave room for it in the ring. Each command behind it tells
one notice, unless it releases routes or stops all signals. -/
theorem rereads_iff {args : List String} {files : String → Option String}
    (hstart : start args files = .ok p) (polls : List Poll) (poll : Poll)
    (htyped : ((p.follow polls).1.typed poll.bytes).2 = before ++ .control .reload :: after)
    (hlast : .control .reload ∉ after) :
    ((∃ success, .reloaded success ∈ ((p.follow polls).1.takeTurn poll).2) ↔
        ((p.follow polls).1.toldFrom poll.bytes (before.length + 1)).length <
          Channel.ringFor p.session.config.noticeCapacity.toNat) ∧
      ((∀ c ∈ after, c.TellsOnce) →
        ((p.follow polls).1.toldFrom poll.bytes (before.length + 1)).length = after.length) := by
  have hready := (ready_of_start hstart).follow polls
  refine ⟨?_, fun honce ↦ length_toldFrom _ _ htyped honce⟩
  constructor
  · rintro ⟨success, h⟩
    exact ((hready.mem_takeTurn poll htyped hlast).1 h).1
  · exact fun hroom ↦ ⟨_, (hready.mem_takeTurn poll htyped hlast).2 ⟨hroom, rfl⟩⟩

/-- The standard ring has room for the request behind which one point is moved. -/
theorem rereads_iff_of_room :
    let p := ofDocuments .standard (.junction [])
    start ["yard.json", "config.json"] (filesOf (.junction []) .standard) = .ok p ∧
      ((p.follow []).1.typed reloadAndPoint).2 =
        [] ++ .control .reload :: [.point (.plain 27 .straight)] ∧
      ∃ success, .reloaded success ∈ ((p.follow []).1.takeTurn ⟨reloadAndPoint, none⟩).2 := by
  intro p
  have hstart := start_filesOf (.junction []) .standard
  have htyped : ((p.follow []).1.typed reloadAndPoint).2 =
      [] ++ .control .reload :: [.point (.plain 27 .straight)] :=
    typed_reloadAndPoint _ _ rfl
  obtain ⟨hiff, hlength⟩ := rereads_iff hstart [] ⟨reloadAndPoint, none⟩ htyped (by decide)
  refine ⟨hstart, htyped, hiff.2 ?_⟩
  rw [hlength (by decide)]
  exact one_lt_ring_standard

/-- The smallest ring has no room for the request behind which one point is moved. -/
theorem unread_of_narrow :
    let p := ofDocuments narrow (.junction [])
    start ["yard.json", "config.json"] (filesOf (.junction []) narrow) = .ok p ∧
      (p.typed reloadAndPoint).2 = [.control .reload, .point (.plain 27 .straight)] ∧
      ∀ text success, .reloaded success ∉ (p.takeTurn ⟨reloadAndPoint, text⟩).2 := by
  intro p
  have hstart := start_filesOf (.junction []) narrow
  have htyped : (p.typed reloadAndPoint).2 =
      [] ++ .control .reload :: [.point (.plain 27 .straight)] :=
    typed_reloadAndPoint _ _ rfl
  refine ⟨hstart, htyped, fun text success h ↦ ?_⟩
  have hready := ready_of_start hstart
  obtain ⟨hroom, -⟩ := (hready.mem_takeTurn ⟨reloadAndPoint, text⟩ htyped (by decide)).1 h
  rw [length_toldFrom _ _ htyped (by decide)] at hroom
  revert hroom
  decide +kernel

/-! ### Layouts of the commands of several turns -/

/-- **The layout stays** during a turn, until the notices are handled. -/
theorem layout_served (p : Program) (bytes : List UInt8) :
    (p.served bytes).yard.layout = p.layout := by
  obtain ⟨w, hw, hplan, -⟩ := p.served_eq bytes
  rw [hw]
  exact congrArg Plan.layout hplan

theorem layout_takeTurn_of_reloaded (hread : poll.layoutText.bind Document.ofText? = some layout)
    (h : .reloaded true ∈ (p.takeTurn poll).2) : (p.takeTurn poll).1.layout = layout := by
  rw [takeTurn_eq, mem_handle] at h
  rw [takeTurn_eq, layout_handle, if_pos h.1, hread, Option.getD_some]

theorem layout_takeTurn_of_not_reloaded (h : .reloaded true ∉ (p.takeTurn poll).2) :
    (p.takeTurn poll).1.layout = p.layout := by
  rw [takeTurn_eq, mem_handle] at h
  rw [takeTurn_eq, layout_handle]
  split
  next hreceived =>
    have hread : (poll.layoutText.bind Document.ofText? : Option Layout) = none :=
      Option.not_isSome_iff_eq_none.1 fun hread ↦ h ⟨hreceived, hread⟩
    rw [hread]
    exact p.layout_served poll.bytes
  next => exact p.layout_served poll.bytes

/-- The commands that are done in turns, in order, each with the layout in which it begins, which is
the one by which it is resolved, checked and encoded (`completes_of_mem_doneIn`). -/
def doneIn (p : Program) : List Poll → List (Command × Layout)
  | [] => []
  | poll :: polls =>
    (p.typed poll.bytes).1.against (p.typed poll.bytes).2 ++ (p.takeTurn poll).1.doneIn polls

theorem console_takeTurn (p : Program) (poll : Poll) : (p.takeTurn poll).1.session.console =
    (p.session.console.pressAll
      ((poll.bytes.map KeyEvent.ofByte).filterMap KeyEvent.grammarChar?)).1 := by
  obtain ⟨w, hw, -⟩ := p.takeTurn_fst poll
  rw [hw]
  rfl

/-- **Cuts do not matter** to which commands are done: they are those of all keys together. -/
theorem commands_doneIn (p : Program) (polls : List Poll) :
    (p.doneIn polls).map Prod.fst = (p.session.console.pressAll
      (polls.flatMap fun poll ↦ (poll.bytes.map KeyEvent.ofByte).filterMap
        KeyEvent.grammarChar?)).2 := by
  induction polls generalizing p with
  | nil => rfl
  | cons poll polls ih =>
    rw [doneIn, List.map_append, ih, console_takeTurn, List.flatMap_cons,
      Interpreter.pressAll_append, Session.against_eq, List.map_map]
    exact congrArg (· ++ _) (List.map_id _)

/-- Without a reload, all commands are done in the same layout. -/
theorem layout_of_mem_doneIn {c : Command} {used : Layout}
    (h : .reloaded true ∉ (p.follow polls).2) (hdone : (c, used) ∈ p.doneIn polls) :
    used = p.layout := by
  induction polls generalizing p with
  | nil => cases hdone
  | cons poll polls ih =>
    rw [follow, List.mem_append, not_or] at h
    rw [doneIn, List.mem_append] at hdone
    rcases hdone with hdone | hdone
    · exact (Session.layout_of_mem_against hdone).trans (p.layout_typed poll.bytes)
    · exact (ih h.2 hdone).trans (layout_takeTurn_of_not_reloaded h.1)

/-- **The layout beside a command** is that of the yard in which it is done: in the turn in which it
is typed, once those in front of it have been done. -/
theorem completes_of_mem_doneIn {c : Command} {used : Layout} (h : (c, used) ∈ p.doneIn polls) :
    ∃ earlier poll later place, polls = earlier ++ poll :: later ∧
      ∃ s, s = ((p.follow earlier).1.typed poll.bytes).1.carryOut
          (((p.follow earlier).1.typed poll.bytes).2.take place) ∧
        s.yard.layout = used ∧
        ∃ w result, Task.Completes s.yard (.pending (.command c .never)) result w := by
  induction polls generalizing p with
  | nil => cases h
  | cons poll polls ih =>
    rcases List.mem_append.1 h with h | h
    · obtain ⟨place, hplace⟩ := List.mem_iff_getElem?.1 h
      obtain ⟨hlayout, result, hcompletes⟩ := Session.completes_of_against hplace
      exact ⟨[], poll, polls, place, rfl, _, rfl, hlayout, _, result, hcompletes⟩
    · obtain ⟨earlier, next, later, place, rfl, hdone⟩ := ih h
      exact ⟨poll :: earlier, next, later, place, rfl, hdone⟩

theorem layout_of_text (layout : Layout) :
    (some (Document.text layout)).bind Document.ofText? = some layout :=
  (Document.roundTrips Layout).ofText?_text layout

/-- With the standard configuration, a request to reload behind which one point is asked for has a
layout loaded. -/
theorem reloaded_reloadAndPoint (old loaded : Layout) :
    .reloaded true ∈ ((ofDocuments .standard old).takeTurn
      ⟨reloadAndPoint, some (Document.text loaded)⟩).2 := by
  have hready := ready_of_start (start_filesOf old .standard)
  have htyped : ((ofDocuments .standard old).typed reloadAndPoint).2 =
      [] ++ .control .reload :: [.point (.plain 27 .straight)] :=
    typed_reloadAndPoint _ _ rfl
  refine (hready.mem_takeTurn ⟨reloadAndPoint, some (Document.text loaded)⟩ htyped
    (by decide)).2 ⟨?_, ?_⟩
  · rw [length_toldFrom _ _ htyped (by decide)]
    exact one_lt_ring_standard
  · exact congrArg Option.isSome (layout_of_text loaded)

/-- **A layout that is loaded** is the one in which commands are done from the next turn on, and
until another one is loaded. The commands of the turn itself are done in the one before, those
behind the request to reload among them. -/
theorem against_reloaded_iff {later : List Poll} {place : Nat} {c : Command} {used : Layout}
    (hread : poll.layoutText.bind Document.ofText? = some layout)
    (hreloaded : .reloaded true ∈ (p.takeTurn poll).2)
    (hlater : .reloaded true ∉ ((p.takeTurn poll).1.follow later).2)
    (hdone : (p.doneIn (poll :: later))[place]? = some (c, used)) :
    used = layout ↔ (p.typed poll.bytes).2.length ≤ place ∨ p.layout = layout := by
  rw [doneIn] at hdone
  by_cases hturn : (p.typed poll.bytes).2.length ≤ place
  · rw [List.getElem?_append_right (by rwa [Session.length_against])] at hdone
    have hused := layout_of_mem_doneIn hlater (List.mem_of_getElem? hdone)
    rw [layout_takeTurn_of_reloaded hread hreloaded] at hused
    exact iff_of_true hused (.inl hturn)
  · rw [List.getElem?_append_left (by rw [Session.length_against]; omega)] at hdone
    have hused := Session.layout_of_mem_against (List.mem_of_getElem? hdone)
    rw [hused, layout_typed]
    simp [hturn]

/-- A point is asked for in the turn of the reload, and again in the next one. -/
theorem against_reloaded_iff_of_next :
    let loaded := Layout.junction [.linked "27" [12] [13] 0]
    let p := ofDocuments .standard (.junction [])
    let poll : Poll := ⟨reloadAndPoint, some (Document.text loaded)⟩
    let next : Poll := ⟨reloadAndPoint.drop 2, none⟩
    .reloaded true ∈ (p.takeTurn poll).2 ∧
      .reloaded true ∉ ((p.takeTurn poll).1.follow [next]).2 ∧
      (p.doneIn [poll, next])[2]? = some (.point (.plain 27 .straight), loaded) ∧
      (loaded = loaded ↔ (p.typed poll.bytes).2.length ≤ 2 ∨ p.layout = loaded) := by
  intro loaded p poll next
  have hready := ready_of_start (start_filesOf (.junction []) .standard)
  have hread : poll.layoutText.bind Document.ofText? = some loaded := layout_of_text loaded
  have hreloaded : .reloaded true ∈ (p.takeTurn poll).2 := reloaded_reloadAndPoint _ loaded
  have hconsole : (p.takeTurn poll).1.session.console =
      Interpreter.ofGrammar (.ofConfig .standard) := by
    rw [console_takeTurn]
    decide +kernel
  have hnext : ((p.takeTurn poll).1.typed next.bytes).2 = [.point (.plain 27 .straight)] := by
    rw [typed_snd, hconsole]
    decide +kernel
  have hlater : .reloaded true ∉ ((p.takeTurn poll).1.follow [next]).2 := by
    have hnot : .reloaded true ∉ ((p.takeTurn poll).1.takeTurn next).2 :=
      (hready.takeTurn poll).not_mem_takeTurn next (by rw [hnext]; decide)
    simpa [follow] using hnot
  have hlayout : (p.takeTurn poll).1.layout = loaded :=
    layout_takeTurn_of_reloaded hread hreloaded
  have hdone : (p.doneIn [poll, next])[2]? = some (.point (.plain 27 .straight), loaded) := by
    have htyped : (p.typed poll.bytes).2 = [.control .reload, .point (.plain 27 .straight)] :=
      typed_reloadAndPoint _ _ rfl
    rw [doneIn, doneIn, doneIn, Session.against_eq, Session.against_eq, htyped, hnext,
      layout_typed, layout_typed, hlayout]
    rfl
  exact ⟨hreloaded, hlater, hdone, against_reloaded_iff hread hreloaded hlater hdone⟩

/-- A point that only the layout in the file has is asked for in the turn of the reload: it is
looked for in the layout that is replaced. -/
theorem against_replaced :
    let loaded := Layout.junction [.linked "27" [12] [13] 0]
    let p := ofDocuments .standard (.junction [])
    let poll : Poll := ⟨reloadAndPoint, some (Document.text loaded)⟩
    start ["yard.json", "config.json"] (filesOf (.junction []) .standard) = .ok p ∧
      .reloaded true ∈ (p.takeTurn poll).2 ∧ (p.takeTurn poll).1.layout = loaded ∧
      p.doneIn [poll] = [(.control .reload, .junction []),
        (.point (.plain 27 .straight), .junction [])] ∧
      (Layout.junction []).resolvePoint? (.plain 27 .straight) = none ∧
      loaded.resolvePoint? (.plain 27 .straight) ≠ none := by
  intro loaded p poll
  have hread : poll.layoutText.bind Document.ofText? = some loaded := layout_of_text loaded
  have hreloaded : .reloaded true ∈ (p.takeTurn poll).2 := reloaded_reloadAndPoint _ loaded
  refine ⟨start_filesOf _ _, hreloaded,
    layout_takeTurn_of_reloaded hread hreloaded, ?_, ?_, ?_⟩
  · rw [doneIn, doneIn, Session.against_eq, typed_reloadAndPoint _ _ rfl]
    rfl
  · decide +kernel
  · decide +kernel

end Program

end SignalBox
