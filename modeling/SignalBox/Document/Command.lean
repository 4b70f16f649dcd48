import SignalBox.Command
import SignalBox.Json.Document

/-!
# Documents of commands

Commands to points, routes, signals and the turntable, and the words for what they ask. Reading
takes addresses, letters and lock offsets as they are written.
-/

namespace SignalBox

open Document (write)

instance : Document Position where
  write p := .string <| match p with
    | .undefined => "undefined"
    | .straight => "straight"
    | .diverging => "diverging"
  read? j := (Variant.bareWord? j).bind fun word ↦ match word with
    | "undefined" => some .undefined
    | "straight" => some .straight
    | "diverging" => some .diverging
    | _ => none

instance : Document RouteState where
  write s := .string <| match s with
    | .undefined => "undefined"
    | .unset => "unset"
    | .setMain => "set_main"
    | .setShunting => "set_shunting"
    | .clear => "clear"
    | .cancel => "cancel"
  read? j := (Variant.bareWord? j).bind fun word ↦ match word with
    | "undefined" => some .undefined
    | "unset" => some .unset
    | "set_main" => some .setMain
    | "set_shunting" => some .setShunting
    | "clear" => some .clear
    | "cancel" => some .cancel
    | _ => none

instance : Document Aspect where
  write a := .string <| match a with
    | .stop => "stop"
    | .go => "go"
  read? j := (Variant.bareWord? j).bind fun word ↦ match word with
    | "stop" => some .stop
    | "go" => some .go
    | _ => none

instance : Document ControlCommand where
  write c := .string <| match c with
    | .reload => "reload_configuration"
    | .clearAllRoutes => "clear_all_train_routes"
    | .stopAllSignals => "stop_all_signals"
  read? j := (Variant.bareWord? j).bind fun word ↦ match word with
    | "reload_configuration" => some .reload
    | "clear_all_train_routes" => some .clearAllRoutes
    | "stop_all_signals" => some .stopAllSignals
    | _ => none

instance : Document PointCommand where
  write c := .object [
    ("number", write c.number),
    ("sub_point", write c.subPoint),
    ("position", write c.position),
    ("lock_address_offset", write c.lockOffset),
    ("is_on_route", write c.onRoute),
    ("addresses", write c.addresses)]
  read? j := do
    let r ← Record.ofJson?
      ["number", "sub_point", "position", "lock_address_offset", "is_on_route", "addresses"] j
    return {
      number := ← r.required? "number"
      subPoint := ← r.optional? "sub_point"
      position := ← r.required? "position"
      lockOffset := ← r.optional? "lock_address_offset"
      onRoute := ← r.required? "is_on_route"
      addresses := ← r.required? "addresses" }

instance : Document RouteCommand where
  write c := .object [
    ("from_signal", write c.start),
    ("to_signal", write c.destination),
    ("state", write c.state),
    ("point_commands", write c.points),
    ("intermediate_signals", write c.via)]
  read? j := do
    let r ← Record.ofJson?
      ["from_signal", "to_signal", "state", "point_commands", "intermediate_signals"] j
    return {
      start := ← r.required? "from_signal"
      destination := ← r.required? "to_signal"
      state := ← r.required? "state"
      points := ← r.required? "point_commands"
      via := ← r.required? "intermediate_signals" }

instance : Document SignalCommand where
  write c := .object [
    ("signal_number", write c.signal),
    ("address", write c.address),
    ("state", write c.aspect),
    ("feedback_address", write c.feedback)]
  read? j := do
    let r ← Record.ofJson? ["signal_number", "address", "state", "feedback_address"] j
    return {
      signal := ← r.required? "signal_number"
      address := ← r.required? "address"
      aspect := ← r.required? "state"
      feedback := ← r.optional? "feedback_address" }

instance : Document TurntableCommand where
  write c := .object [("track", write c.track), ("direction", write c.direction)]
  read? j := do
    let r ← Record.ofJson? ["track", "direction"] j
    return { track := ← r.required? "track", direction := ← r.required? "direction" }

end SignalBox
