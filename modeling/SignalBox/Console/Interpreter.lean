import SignalBox.Console.Grammar

/-!
# The console interpreter

Keys are collected into an entry until a terminator completes it. An entry holds 32 bytes: a key
that does not fit is dropped, and a terminator that does not fit discards the whole entry. Keys
that are not part of the grammar have no effect.
-/

namespace SignalBox

/-- The state of a console: its grammar and the characters typed so far. -/
structure Interpreter where
  grammar : Grammar
  entry : List Char
  deriving DecidableEq

namespace Interpreter

/-- The number of bytes that an entry holds. -/
def maxEntry : Nat := 32

/-- A console on which nothing has been typed. -/
def ofGrammar (g : Grammar) : Interpreter := ⟨g, []⟩

/-- Replaces the divider. -/
def withDivider (i : Interpreter) (divider : Char) : Interpreter :=
  { i with grammar := { i.grammar with divider := divider } }

/-- Discards the entry. -/
def clear (i : Interpreter) : Interpreter := { i with entry := [] }

/-- Takes one key, and gives a command if the key completes one. -/
def press (i : Interpreter) (key : Char) : Interpreter × Option Command :=
  if key = clearKey then (i.clear, none)
  else if !i.grammar.accepts key then (i, none)
  else if maxEntry < Text.size i.entry + key.utf8Size then
    (if isTerminator key then i.clear else i, none)
  else
    let entry := i.entry ++ [key]
    match i.grammar.classify entry with
    | .waiting => ({ i with entry := entry }, none)
    | .complete command => (i.clear, command)

/-- Takes several keys, and gives the commands that they complete. -/
def pressAll (i : Interpreter) : List Char → Interpreter × List Command
  | [] => (i, [])
  | key :: keys =>
    let (i, command) := i.press key
    let (i, commands) := i.pressAll keys
    (i, command.toList ++ commands)

/-- The characters typed so far, as text. -/
def entryText (i : Interpreter) : String := String.ofList i.entry

end Interpreter

end SignalBox
