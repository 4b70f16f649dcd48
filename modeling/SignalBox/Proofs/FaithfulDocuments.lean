import SignalBox.Document.Config
import SignalBox.Document.Layout
import SignalBox.Document.Notice
import SignalBox.Proofs.WrittenJson

/-!
# Documents are read back

What is written as a document is read back from its text as it was, with each of its fields
(`documents_roundTrip`). The types of which this holds are `Faithful`; each kind of document is one
because what it is made of is.

* **Texts.** There are no reals in what is written and no whole numbers beyond 64 bits, so the text
  is read back as the same JSON value (`Json.parse?_render`).
* **Records** are written with all of their fields, so that it does not matter what a missing one
  would mean (`Record.ofJson?_object`).
* **A graph** is written as ascending lists, and made again by adding their members to the graph
  without nodes. The ends of a link are nodes already (`TrackGraph.ofLists_toList`).
* **A notice** is read as a whole before its type is looked for. Nothing in it nests too deep and no
  object in it is empty, so it is kept as it was written (`Notice.kept_write`).
-/

namespace SignalBox

open Document (write read?)

/-- Types whose values are read back from what is written for them. -/
class Faithful (α : Type) [Document α] : Prop where
  /-- What is written has a text that is read back. -/
  plain_write (a : α) : (write a : Json).Plain
  /-- What is written is read as the value. -/
  read?_write (a : α) : read? (write a) = some a

/-- Types none of whose values is written as nothing. -/
class Present (α : Type) [Document α] : Prop where
  write_ne_null (a : α) : (write a : Json) ≠ .null

open Faithful (plain_write read?_write)

attribute [simp] plain_write read?_write

/-! ### Basic types -/

theorem readBetween?_int {low high n : Int} (hlow : low ≤ n) (hhigh : n ≤ high) :
    Document.readBetween? low high (.int n) = some n :=
  if_pos ⟨hlow, hhigh⟩

instance : Faithful Bool where
  plain_write := .bool
  read?_write _ := rfl

instance : Faithful String where
  plain_write := .string
  read?_write _ := rfl

instance : Faithful Char where
  plain_write c := .string _
  read?_write c := by
    show (match (String.singleton c).toList with
      | [c] => some c
      | _ => none) = some c
    rw [String.toList_singleton]

instance : Faithful UInt16 where
  plain_write n := .int (Nat.lt_trans n.toNat_lt (by decide))
  read?_write n := by
    show (Document.readBetween? 0 65535 (.int n.toNat)).map (fun n ↦ UInt16.ofNat n.toNat) = some n
    have := n.toNat_lt
    rw [readBetween?_int (by omega) (by omega), Option.map_some, Int.toNat_natCast,
      UInt16.ofNat_toNat]

instance : Faithful UInt32 where
  plain_write n := .int (Nat.lt_trans n.toNat_lt (by decide))
  read?_write n := by
    show (Document.readBetween? 0 4294967295 (.int n.toNat)).map (fun n ↦ UInt32.ofNat n.toNat) =
      some n
    have := n.toNat_lt
    rw [readBetween?_int (by omega) (by omega), Option.map_some, Int.toNat_natCast,
      UInt32.ofNat_toNat]

instance : Faithful UInt64 where
  plain_write n := .int n.toNat_lt
  read?_write n := by
    show (Document.readBetween? 0 18446744073709551615 (.int n.toNat)).map
      (fun n ↦ UInt64.ofNat n.toNat) = some n
    have := n.toNat_lt
    rw [readBetween?_int (by omega) (by omega), Option.map_some, Int.toNat_natCast,
      UInt64.ofNat_toNat]

instance : Faithful Int32 where
  plain_write n := .int (by
    have hlow := n.le_toInt
    have hhigh := n.toInt_lt
    show n.toInt.natAbs < 2 ^ 64
    omega)
  read?_write n := by
    show (Document.readBetween? (-2147483648) 2147483647 (.int n.toInt)).map Int32.ofInt = some n
    have hlow := n.le_toInt
    have hhigh := n.toInt_lt
    rw [readBetween?_int (by omega) (by omega), Option.map_some, Int32.ofInt_toInt]

instance : Present Char where
  write_ne_null _ := nofun

instance : Present UInt16 where
  write_ne_null _ := nofun

instance : Present UInt32 where
  write_ne_null _ := nofun

section

variable {α β : Type} [Document α] [Document β] [Faithful α] [Faithful β]

instance [Present α] : Faithful (Option α) where
  plain_write
    | none => .null
    | some a => plain_write a
  read?_write
    | none => rfl
    | some a => by
      have hne := Present.write_ne_null a
      have hread := read?_write a
      show (match write a with
        | .null => some none
        | j => (read? j).map some) = some (some a)
      split
      · contradiction
      · rw [hread]; rfl

theorem mapM_read?_map_write (as : List α) : (as.map write).mapM read? = some as := by
  induction as with
  | nil => rfl
  | cons a as ih => 
    rw [List.map_cons, List.mapM_cons, read?_write, ih]
    rfl

instance : Faithful (List α) where
  plain_write as := .array fun j hj ↦ by
    obtain ⟨a, -, rfl⟩ := List.mem_map.1 hj
    exact plain_write a
  read?_write := mapM_read?_map_write

instance : Faithful (α × β) where
  plain_write p := .array (by simp)
  read?_write p := by
    show (do return (← read? (write p.1), ← read? (write p.2))) = some p
    rw [read?_write, read?_write]
    rfl

end

/-! ### Records -/

namespace Record

variable {names : List String} {members fields : List (String × Json)} {name other : String}
  {j : Json} {positional : Bool}

/-- A record that is written with each of its fields, and no other, is found as it was written. -/
@[simp]
theorem ofJson?_object (hnames : members.map Prod.fst = names) (hnodup : names.Nodup) :
    ofJson? names (.object members) = some ⟨members, false⟩ := by
  have hknown : (members.filter fun m ↦ names.contains m.1) = members := by
    refine List.filter_eq_self.2 fun m hm ↦ ?_
    rw [List.contains_iff_mem, ← hnames]
    exact List.mem_map_of_mem hm
  rw [ofJson?]
  simp only [hknown, hnames, hnodup, if_true]

theorem field?_cons_self : field? ⟨(name, j) :: fields, positional⟩ name = some j := by
  rw [field?, List.lookup_cons_self]

theorem field?_cons_of_ne (h : name ≠ other) :
    field? ⟨(other, j) :: fields, positional⟩ name = field? ⟨fields, positional⟩ name := by
  rw [field?, List.lookup_cons, beq_false_of_ne h]
  rfl

variable {α : Type} [Document α] {a missing : α}

/-! A field that was written is read as it was, whatever a missing one would mean; other fields do
not matter. -/

@[simp]
theorem required?_cons_self [Faithful α] :
    required? ⟨(name, write a) :: fields, positional⟩ name = some a := by
  rw [required?, field?_cons_self, Option.bind_some, read?_write]

@[simp]
theorem required?_cons_of_ne (h : name ≠ other) :
    (required? ⟨(other, j) :: fields, positional⟩ name : Option α) =
      required? ⟨fields, positional⟩ name := by
  rw [required?, field?_cons_of_ne h, required?]

@[simp]
theorem orElse?_cons_self [Faithful α] :
    orElse? ⟨(name, write a) :: fields, positional⟩ name missing = some a := by
  rw [orElse?, field?_cons_self]
  exact read?_write a

@[simp]
theorem orElse?_cons_of_ne (h : name ≠ other) :
    orElse? ⟨(other, j) :: fields, positional⟩ name missing =
      orElse? ⟨fields, positional⟩ name missing := by
  rw [orElse?, field?_cons_of_ne h, orElse?]

@[simp]
theorem optional?_cons_self [Faithful α] [Present α] {a : Option α} :
    optional? ⟨(name, write a) :: fields, positional⟩ name = some a := by
  rw [optional?, field?_cons_self]
  exact read?_write a

@[simp]
theorem optional?_cons_of_ne (h : name ≠ other) :
    (optional? ⟨(other, j) :: fields, positional⟩ name : Option (Option α)) =
      optional? ⟨fields, positional⟩ name := by
  rw [optional?, field?_cons_of_ne h, optional?]

end Record

/-! ### Commands -/

instance : Faithful Position where
  plain_write p := .string _
  read?_write p := by cases p <;> rfl

instance : Faithful RouteState where
  plain_write s := .string _
  read?_write s := by cases s <;> rfl

instance : Faithful Aspect where
  plain_write a := .string _
  read?_write a := by cases a <;> rfl

instance : Faithful PointCommand where
  plain_write c := .object (by simp)
  read?_write c := by
    unfold instDocumentPointCommand
    simp

instance : Faithful RouteCommand where
  plain_write c := .object (by simp)
  read?_write c := by
    unfold instDocumentRouteCommand
    simp

instance : Faithful Coordinate where
  plain_write c := .object (by simp)
  read?_write c := by
    unfold instDocumentCoordinate
    simp

instance : Present Coordinate where
  write_ne_null _ := nofun

/-! ### Layouts -/

namespace TrackGraph

theorem nodes_foldl_addNode (g : TrackGraph) (cs : List Coordinate) (x : Coordinate) :
    x ∈ (cs.foldl addNode g).nodes ↔ x ∈ g.nodes ∨ x ∈ cs := by
  induction cs generalizing g with
  | nil => simp
  | cons c cs ih =>
    rw [List.foldl_cons, ih, addNode, OrderedSet.mem_insert, List.mem_cons]
    grind

theorem links_foldl_addNode (g : TrackGraph) (cs : List Coordinate) :
    (cs.foldl addNode g).links = g.links := by
  induction cs generalizing g with
  | nil => rfl
  | cons c cs ih => rw [List.foldl_cons, ih, addNode]

theorem nodes_foldl_addLink (g : TrackGraph) (ls : List (Coordinate × Coordinate))
    (x : Coordinate) : x ∈ (ls.foldl (fun g l ↦ g.addLink l.1 l.2) g).nodes ↔
      x ∈ g.nodes ∨ ∃ l ∈ ls, x = l.1 ∨ x = l.2 := by
  induction ls generalizing g with
  | nil => simp
  | cons l ls ih =>
    rw [List.foldl_cons, ih, addLink, OrderedSet.mem_insert, OrderedSet.mem_insert]
    simp only [List.mem_cons, exists_eq_or_imp]
    grind

theorem links_foldl_addLink (g : TrackGraph) (ls : List (Coordinate × Coordinate))
    (x : TrackLink) : x ∈ (ls.foldl (fun g l ↦ g.addLink l.1 l.2) g).links ↔
      x ∈ g.links ∨ ∃ l ∈ ls, x = .between l.1 l.2 := by
  induction ls generalizing g with
  | nil => simp
  | cons l ls ih =>
    rw [List.foldl_cons, ih, addLink, OrderedSet.mem_insert]
    simp only [List.mem_cons, exists_eq_or_imp]
    grind

theorem mem_nodes_ofLists (cs : List Coordinate) (ls : List (Coordinate × Coordinate))
    (x : Coordinate) : x ∈ (ofLists cs ls).nodes ↔ x ∈ cs ∨ ∃ l ∈ ls, x = l.1 ∨ x = l.2 := by
  rw [ofLists, nodes_foldl_addLink, nodes_foldl_addNode]
  simp [empty, OrderedSet.mem_def, OrderedSet.empty]

theorem mem_links_ofLists (cs : List Coordinate) (ls : List (Coordinate × Coordinate))
    (x : TrackLink) : x ∈ (ofLists cs ls).links ↔ ∃ l ∈ ls, x = .between l.1 l.2 := by
  rw [ofLists, links_foldl_addLink, links_foldl_addNode]
  simp [empty, OrderedSet.mem_def, OrderedSet.empty]

/-- A link is the link between its ends. -/
theorem between_ends (l : TrackLink) : TrackLink.between l.a l.b = l :=
  dif_pos l.ordered

theorem ext {g h : TrackGraph} (hnodes : g.nodes = h.nodes) (hlinks : g.links = h.links) :
    g = h := by
  cases g
  cases h
  cases hnodes
  cases hlinks
  rfl

/-- **A graph** is made again of its nodes and links. -/
theorem ofLists_toList (g : TrackGraph) :
    ofLists g.nodes.toList (g.links.toList.map fun l ↦ (l.a, l.b)) = g := by
  refine ext (OrderedSet.ext fun x ↦ ?_) (OrderedSet.ext fun x ↦ ?_)
  · rw [mem_nodes_ofLists, OrderedSet.mem_def]
    refine or_iff_left_of_imp fun ⟨_, hends, hx⟩ ↦ ?_
    -- the ends of a link are nodes already
    obtain ⟨l, hl, rfl⟩ := List.mem_map.1 hends
    obtain ⟨ha, hb⟩ := g.ends_mem l hl
    rcases hx with rfl | rfl
    · exact ha
    · exact hb
  · rw [mem_links_ofLists, OrderedSet.mem_def]
    constructor
    · rintro ⟨_, hends, rfl⟩
      obtain ⟨l, hl, rfl⟩ := List.mem_map.1 hends
      rwa [between_ends]
    · exact fun hx ↦ ⟨_, List.mem_map_of_mem hx, (between_ends x).symm⟩

end TrackGraph

instance : Faithful PointDefinition where
  plain_write p := .object (by simp)
  read?_write p := by
    unfold instDocumentPointDefinition
    simp

instance : Faithful SignalDefinition where
  plain_write s := .object (by simp)
  read?_write s := by
    unfold instDocumentSignalDefinition
    simp

instance : Faithful TurntableTrack where
  plain_write t := .object (by simp)
  read?_write t := by
    unfold instDocumentTurntableTrack
    simp

instance : Faithful RoutePoint where
  plain_write p := .object (by simp)
  read?_write p := by
    unfold instDocumentRoutePoint
    simp

instance : Faithful RouteDefinition where
  plain_write d := .object (by simp)
  read?_write d := by
    unfold instDocumentRouteDefinition
    simp

instance : Faithful TrackGraph where
  plain_write g := .object (by simp)
  read?_write g := by
    unfold instDocumentTrackGraph
    simp [TrackGraph.ofLists_toList]

instance : Faithful Layout where
  plain_write l := .object (by simp)
  read?_write l := by
    unfold instDocumentLayout
    simp

/-! ### Configurations -/

instance : Faithful ShortName where
  plain_write n := .string _
  read?_write n := by
    show ShortName.ofText? n.text = some n
    exact dif_pos n.fits

instance : Faithful ConsoleConfig where
  plain_write c := .object (by simp)
  read?_write c := by
    unfold instDocumentConsoleConfig
    simp

instance : Faithful DispatchConfig where
  plain_write c := .object (by simp)
  read?_write c := by
    unfold instDocumentDispatchConfig
    simp

instance : Faithful StationConfig where
  plain_write c := .object (by simp)
  read?_write c := by
    unfold instDocumentStationConfig
    simp

instance : Faithful Config where
  plain_write c := .object (by simp)
  read?_write c := by
    unfold instDocumentConfig
    simp

/-! ### Outcomes -/

namespace Variant

@[simp]
theorem ofJson?_string (word : String) : ofJson? (.string word) = some ⟨word, none⟩ := rfl

@[simp]
theorem ofJson?_write (word : String) (payload : Json) :
    ofJson? (write word payload) = some ⟨word, some payload⟩ := rfl

@[simp]
theorem bare?_none {α : Type} (word : String) (a : α) : bare? ⟨word, none⟩ a = some a := rfl

@[simp]
theorem payload?_write {α : Type} [Document α] [Faithful α] (word : String) (a : α) :
    payload? ⟨word, some (Document.write a)⟩ = some a :=
  read?_write a

@[simp]
theorem record?_some (word : String) (payload : Json) (names : List String) :
    record? ⟨word, some payload⟩ names = Record.ofJson? names payload := rfl

theorem plain_write {payload : Json} (word : String) (h : payload.Plain) :
    (write word payload).Plain :=
  .object (by simpa using h)

end Variant

instance : Faithful Violation where
  plain_write v := by
    cases v <;> exact Variant.plain_write _ (plain_write _)
  read?_write v := by
    unfold instDocumentViolation
    cases v <;> simp

instance : Faithful RejectReason where
  plain_write r := by
    cases r with
    | undefined | alreadyActive | notActive => exact .string _
    | unknownRoute | conflictsWith | cancelled => exact Variant.plain_write _ (.object (by simp))
    | unknownPoint | unknownTrack | invalid | protocol | transportFailed =>
      exact Variant.plain_write _ (plain_write _)
  read?_write r := by
    unfold instDocumentRejectReason
    cases r <;> simp

namespace RejectReason

theorem plain_writeRejected (reason : RejectReason) : reason.writeRejected.Plain :=
  Variant.plain_write _ (.object (by simp))

@[simp]
theorem ofJson?_writeRejected (reason : RejectReason) : Variant.ofJson? reason.writeRejected =
    some ⟨"rejected", some (.object [("reason", write reason)])⟩ := rfl

/-- **A rejection** is read back from an outcome. -/
@[simp]
theorem readRejected?_some (word : String) (reason : RejectReason) :
    readRejected? ⟨word, some (.object [("reason", write reason)])⟩ = some reason := by
  simp [readRejected?]

end RejectReason

instance : Faithful PointOutcome where
  plain_write o := by
    cases o with
    | rejected reason => exact reason.plain_writeRejected
    | set | locked | alreadyInPosition => exact .string _
  read?_write o := by
    unfold instDocumentPointOutcome
    cases o <;> simp

instance : Faithful RouteOutcome where
  plain_write o := by
    cases o with
    | rejected reason => exact reason.plain_writeRejected
    | set | cleared | allCleared => exact .string _
  read?_write o := by
    unfold instDocumentRouteOutcome
    cases o <;> simp

instance : Faithful TurntableOutcome where
  plain_write o := by
    cases o with
    | rejected reason => exact reason.plain_writeRejected
    | turned => exact .string _
  read?_write o := by
    unfold instDocumentTurntableOutcome
    cases o <;> simp

/-! ### Notices -/

/-- Values that may stand in a notice where there is room for some depth, and that are not changed
when the notice is read as a whole. -/
structure Json.Kept (depth : Nat) (j : Json) : Prop where
  isHoldable : j.isHoldable depth = true
  nullForEmpty : j.nullForEmpty depth = j

/-- Types whose values may stand anywhere in a notice. -/
class Flat (α : Type) [Document α] : Prop where
  kept_write (depth : Nat) (a : α) : (write a : Json).Kept depth

namespace Json.Kept

variable {depth : Nat}

theorem string (s : String) : Kept depth (.string s) := by
  cases depth <;> exact ⟨rfl, rfl⟩

/-- An object with something in it. -/
theorem object {m : String × Json} {members : List (String × Json)}
    (h : ∀ n ∈ m :: members, Kept depth n.2) : Kept (depth + 1) (.object (m :: members)) := by
  refine ⟨List.all_eq_true.2 fun n hn ↦ (h n hn).isHoldable, ?_⟩
  have hsame : (m :: members).map (fun n ↦ (n.1, n.2.nullForEmpty depth)) = m :: members := by
    refine (List.map_congr_left fun n hn ↦ ?_).trans (List.map_id _)
    rw [(h n hn).nullForEmpty]
    rfl
  exact congrArg Json.object hsame

theorem variant {payload : Json} (word : String) (h : Kept depth payload) :
    Kept (depth + 1) (Variant.write word payload) :=
  .object (by simpa using h)

end Json.Kept

instance : Flat UInt32 where
  kept_write depth _ := by cases depth <;> exact ⟨rfl, rfl⟩

instance : Flat UInt64 where
  kept_write depth _ := by cases depth <;> exact ⟨rfl, rfl⟩

instance : Flat Bool where
  kept_write depth _ := by cases depth <;> exact ⟨rfl, rfl⟩

instance : Flat String where
  kept_write _ := .string

instance : Flat Aspect where
  kept_write _ _ := .string _

section

attribute [simp] Flat.kept_write

variable (depth : Nat)

namespace RejectReason

theorem kept_write (reason : RejectReason) : (write reason).Kept (depth + 2) := by
  cases reason with
  | undefined | alreadyActive | notActive => exact .string _
  | unknownPoint | unknownTrack | protocol | transportFailed =>
    exact .variant _ (Flat.kept_write _ _)
  | unknownRoute | conflictsWith | cancelled => exact .variant _ (.object (by simp))
  | invalid violation => cases violation <;> exact .variant _ (.variant _ (Flat.kept_write _ _))

theorem kept_writeRejected (reason : RejectReason) : reason.writeRejected.Kept (depth + 4) :=
  .variant _ (.object (by simpa using reason.kept_write depth))

end RejectReason

theorem PointOutcome.kept_write (outcome : PointOutcome) : (write outcome).Kept (depth + 4) := by
  cases outcome with
  | rejected reason => exact reason.kept_writeRejected depth
  | set | locked | alreadyInPosition => exact .string _

theorem RouteOutcome.kept_write (outcome : RouteOutcome) : (write outcome).Kept (depth + 4) := by
  cases outcome with
  | rejected reason => exact reason.kept_writeRejected depth
  | set | cleared | allCleared => exact .string _

theorem TurntableOutcome.kept_write (outcome : TurntableOutcome) :
    (write outcome).Kept (depth + 4) := by
  cases outcome with
  | rejected reason => exact reason.kept_writeRejected depth
  | turned => exact .string _

/-- **A notice** is kept as it was written. -/
theorem Notice.kept_write (notice : Notice) : (write notice).Kept (depth + 5) := by
  cases notice with
  | point _ outcome => exact .object (by simpa using outcome.kept_write depth)
  | route _ _ outcome => exact .object (by simpa using outcome.kept_write depth)
  | turntable _ outcome => exact .object (by simpa using outcome.kept_write depth)
  | signal => exact .object (by simp)
  | reloadRequested => exact .object (by simp)

end

/-- A notice that is written with its type first, and no other field of that name, is parted from
it. -/
theorem Notice.splitTag?_object {tag : String} {members : List (String × Json)}
    (h : ∀ m ∈ members, m.1 ≠ "type") :
    splitTag? (.object (("type", write tag) :: members)) = some (tag, .object members) := by
  have htag : (members.filter fun m ↦ m.1 == "type") = [] :=
    List.filter_eq_nil_iff.2 fun m hm ↦ by simpa using h m hm
  have hrest : (members.filter fun m ↦ m.1 != "type") = members :=
    List.filter_eq_self.2 fun m hm ↦ by simpa using h m hm
  rw [splitTag?, List.filter_cons_of_pos (by rfl), List.filter_cons_of_neg (by simp), htag, hrest]
  rfl

/-- **A notice** is read back if what is left without its type is read as the notice. -/
theorem Notice.read?_write_of_ofTag? {notice : Notice} {tag : String}
    {members : List (String × Json)}
    (hwrite : write notice = .object (("type", write tag) :: members))
    (hmembers : ∀ m ∈ members, m.1 ≠ "type") (htag : ofTag? tag (.object members) = some notice) :
    read? (write notice) = some notice := by
  have hkept : (write notice).Kept maxDepth := notice.kept_write 122
  show (if (write notice).isHoldable maxDepth then
    (splitTag? ((write notice).nullForEmpty maxDepth)).bind fun r ↦ ofTag? r.1 r.2 else none) =
      some notice
  rw [if_pos hkept.isHoldable, hkept.nullForEmpty, hwrite, splitTag?_object hmembers,
    Option.bind_some, htag]

instance : Faithful Notice where
  plain_write n := by
    cases n <;> exact .object (by simp)
  read?_write n := by
    cases n <;> exact Notice.read?_write_of_ofTag? rfl (by simp) (by simp [Notice.ofTag?])

/-! ### Texts of documents -/

namespace Document

variable {α : Type} [Document α]

/-- The text of a document. -/
def text (a : α) : String :=
  (write a).render

/-- The value of a document's text. -/
def ofText? (text : String) : Option α :=
  (Json.parse? text).bind read?

/-- Texts of documents stand for their values: the text of a value is read as that value, and a text
that is read at all may be replaced by the text of its value, once and for all. -/
structure RoundTrips (α : Type) [Document α] : Prop where
  ofText?_text (a : α) : ofText? (text a) = some a
  text_stable (given : String) (a : α) (h : ofText? given = some a) :
    (ofText? (text a) : Option α).map text = some (text a)

theorem roundTrips (α : Type) [Document α] [Faithful α] : RoundTrips α := by
  have hread (a : α) : ofText? (text a) = some a := by
    rw [ofText?, text, Json.parse?_render (plain_write a), Option.bind_some, read?_write]
  exact ⟨hread, fun _ a _ ↦ by rw [hread, Option.map_some]⟩

/-- **Every document is read back**: layouts, configurations, notices, reasons, violations, outcomes
and commands, with all that belongs to them. -/
theorem documents_roundTrip : RoundTrips Layout ∧ RoundTrips Config ∧ RoundTrips Notice ∧
    RoundTrips RejectReason ∧ RoundTrips Violation ∧ RoundTrips PointOutcome ∧
    RoundTrips RouteOutcome ∧ RoundTrips TurntableOutcome ∧ RoundTrips PointCommand ∧
    RoundTrips RouteCommand :=
  ⟨roundTrips _, roundTrips _, roundTrips _, roundTrips _, roundTrips _, roundTrips _,
    roundTrips _, roundTrips _, roundTrips _, roundTrips _⟩

end Document

end SignalBox
