import SignalBox.Document.Command
import SignalBox.Notice

/-!
# Documents of outcomes and notices

Outcomes and reasons are variants. A notice is a record tagged by its type, or a list that starts
with the type. Since its type may stand anywhere, a notice is read as a whole first: all of it has
to be readable, also what is ignored, and there an empty object may stand for nothing attached.
-/

namespace SignalBox

open Document (write)

namespace Variant

/-- Reads a variant that must come with something attached. -/
def payload? {α : Type} [Document α] (v : Variant) : Option α :=
  v.payload.bind Document.read?

/-- Reads the record that is attached to a variant. -/
def record? (v : Variant) (names : List String) : Option Record :=
  v.payload.bind (Record.ofJson? names)

/-- Reads a variant with nothing attached as the given value. -/
def bare? {α : Type} (v : Variant) (a : α) : Option α :=
  if v.isBare then some a else none

end Variant

instance : Document Violation where
  write
    | .unknownSignal n => Variant.write "unknown_signal" (write n)
    | .unknownPoint n => Variant.write "unknown_point" (write n)
    | .notConnected n => Variant.write "not_connected" (write n)
  read? j := do
    let v ← Variant.ofJson? j
    match v.word with
    | "unknown_signal" => v.payload?.map .unknownSignal
    | "unknown_point" => v.payload?.map .unknownPoint
    | "not_connected" => v.payload?.map .notConnected
    | _ => none

instance : Document RejectReason where
  write
    | .undefined => .string "undefined"
    | .unknownPoint n => Variant.write "unknown_point" (write n)
    | .unknownTrack n => Variant.write "unknown_turntable_track" (write n)
    | .unknownRoute a b =>
      Variant.write "unknown_route" (.object [("from_signal", write a), ("to_signal", write b)])
    | .alreadyActive => .string "already_active"
    | .notActive => .string "not_active"
    | .conflictsWith a b p =>
      Variant.write "conflicts_with"
        (.object [("from_signal", write a), ("to_signal", write b), ("point", write p)])
    | .invalid violation => Variant.write "invalid" (write violation)
    | .protocol message => Variant.write "protocol" (write message)
    | .cancelled n => Variant.write "cancelled" (.object [("frames_sent", write n)])
    | .transportFailed message => Variant.write "transport_failed" (write message)
  read? j := do
    let v ← Variant.ofJson? j
    match v.word with
    | "undefined" => v.bare? .undefined
    | "unknown_point" => v.payload?.map .unknownPoint
    | "unknown_turntable_track" => v.payload?.map .unknownTrack
    | "unknown_route" =>
      let r ← v.record? ["from_signal", "to_signal"]
      return .unknownRoute (← r.required? "from_signal") (← r.required? "to_signal")
    | "already_active" => v.bare? .alreadyActive
    | "not_active" => v.bare? .notActive
    | "conflicts_with" =>
      let r ← v.record? ["from_signal", "to_signal", "point"]
      return .conflictsWith (← r.required? "from_signal") (← r.required? "to_signal")
        (← r.required? "point")
    | "invalid" => v.payload?.map .invalid
    | "protocol" => v.payload?.map .protocol
    | "cancelled" =>
      let r ← v.record? ["frames_sent"]
      return .cancelled (← r.required? "frames_sent")
    | "transport_failed" => v.payload?.map .transportFailed
    | _ => none

/-- The form of a rejection inside an outcome. -/
def RejectReason.writeRejected (reason : RejectReason) : Json :=
  Variant.write "rejected" (.object [("reason", write reason)])

/-- Reads the form of a rejection inside an outcome. -/
def RejectReason.readRejected? (v : Variant) : Option RejectReason := do
  let r ← v.record? ["reason"]
  r.required? "reason"

instance : Document PointOutcome where
  write
    | .set => .string "set"
    | .rejected reason => reason.writeRejected
    | .locked => .string "locked"
    | .alreadyInPosition => .string "already_in_position"
  read? j := do
    let v ← Variant.ofJson? j
    match v.word with
    | "set" => v.bare? .set
    | "rejected" => (RejectReason.readRejected? v).map .rejected
    | "locked" => v.bare? .locked
    | "already_in_position" => v.bare? .alreadyInPosition
    | _ => none

instance : Document RouteOutcome where
  write
    | .set => .string "set"
    | .rejected reason => reason.writeRejected
    | .cleared => .string "cleared"
    | .allCleared => .string "all_cleared"
  read? j := do
    let v ← Variant.ofJson? j
    match v.word with
    | "set" => v.bare? .set
    | "rejected" => (RejectReason.readRejected? v).map .rejected
    | "cleared" => v.bare? .cleared
    | "all_cleared" => v.bare? .allCleared
    | _ => none

instance : Document TurntableOutcome where
  write
    | .turned => .string "turned"
    | .rejected reason => reason.writeRejected
  read? j := do
    let v ← Variant.ofJson? j
    match v.word with
    | "turned" => v.bare? .turned
    | "rejected" => (RejectReason.readRejected? v).map .rejected
    | _ => none

namespace Notice

/-- How deep lists and objects may nest in a notice. -/
def maxDepth : Nat := 127

/-- Parts a notice into its type and the rest. -/
def splitTag? : Json → Option (String × Json)
  | .object members =>
    match members.filter (·.1 == "type") with
    | [(_, .string tag)] => some (tag, .object (members.filter (·.1 != "type")))
    | _ => none
  | .array (.string tag :: items) => some (tag, .array items)
  | _ => none

/-- Reads the rest of a notice of a given type. -/
def ofTag? (tag : String) (rest : Json) : Option Notice :=
  match tag with
  | "point" => do
    let r ← Record.ofJson? ["number", "outcome"] rest
    return .point (← r.required? "number") (← r.required? "outcome")
  | "route" => do
    let r ← Record.ofJson? ["from_signal", "to_signal", "outcome"] rest
    return .route (← r.required? "from_signal") (← r.required? "to_signal")
      (← r.required? "outcome")
  | "signal_state_changed" => do
    let r ← Record.ofJson? ["signal", "state", "confirmed_by_bus"] rest
    return .signal (← r.required? "signal") (← r.required? "state")
      (← r.required? "confirmed_by_bus")
  | "turntable" => do
    let r ← Record.ofJson? ["track", "outcome"] rest
    return .turntable (← r.required? "track") (← r.required? "outcome")
  | "reload_requested" => (Record.ofJson? [] rest).map fun _ ↦ .reloadRequested
  | _ => none

end Notice

instance : Document Notice where
  write
    | .point number outcome => .object [
      ("type", write "point"), ("number", write number), ("outcome", write outcome)]
    | .route start destination outcome => .object [
      ("type", write "route"), ("from_signal", write start), ("to_signal", write destination),
      ("outcome", write outcome)]
    | .signal signal aspect confirmed => .object [
      ("type", write "signal_state_changed"), ("signal", write signal), ("state", write aspect),
      ("confirmed_by_bus", write confirmed)]
    | .turntable track outcome => .object [
      ("type", write "turntable"), ("track", write track), ("outcome", write outcome)]
    | .reloadRequested => .object [("type", write "reload_requested")]
  read? j :=
    if j.isHoldable Notice.maxDepth then do
      let (tag, rest) ← Notice.splitTag? (j.nullForEmpty Notice.maxDepth)
      Notice.ofTag? tag rest
    else none

end SignalBox
