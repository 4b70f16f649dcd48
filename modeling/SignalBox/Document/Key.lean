import SignalBox.Console.Key
import SignalBox.Json.Document

/-!
# Documents of keys
-/

namespace SignalBox

open Document (write)

instance : Document KeyCode where
  write
    | .char c => Variant.write "char" (write c)
    | .backspace => .string "backspace"
    | .escape => .string "escape"
    | .enter => .string "enter"
    | .other scanCode => Variant.write "other" (write scanCode)
  read? j := do
    let v ← Variant.ofJson? j
    match v.word with
    | "char" => (v.payload.bind Document.read?).map .char
    | "backspace" => if v.isBare then some .backspace else none
    | "escape" => if v.isBare then some .escape else none
    | "enter" => if v.isBare then some .enter else none
    | "other" => (v.payload.bind Document.read?).map .other
    | _ => none

instance : Document Modifiers where
  write m := .object [("shift", write m.shift), ("control", write m.control), ("alt", write m.alt)]
  read? j := do
    let r ← Record.ofJson? ["shift", "control", "alt"] j
    return {
      shift := ← r.required? "shift"
      control := ← r.required? "control"
      alt := ← r.required? "alt" }

instance : Document KeyEvent where
  write e := .object [("ch", write e.ch), ("code", write e.code), ("modifiers", write e.modifiers)]
  read? j := do
    let r ← Record.ofJson? ["ch", "code", "modifiers"] j
    return {
      ch := ← r.required? "ch"
      code := ← r.required? "code"
      modifiers := ← r.required? "modifiers" }

end SignalBox
