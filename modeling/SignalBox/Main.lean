import SignalBox.Program

/-!
# Running the console program

Keys come from standard input. Notices go to standard output; what concerns the program itself, and
the frames instead of a bus, go to standard error.
-/

namespace SignalBox

/-- The text of a file, if it can be read. -/
def readText (path : String) : IO (Option String) := do
  try
    return some (← IO.FS.readFile path)
  catch _ =>
    return none

/-- Reads the files that the arguments name, and gives their texts by path. -/
def readFiles (args : List String) : IO (String → Option String) := do
  match Arguments.ofList? args with
  | none => return fun _ ↦ none
  | some a =>
    let layout ← readText a.layoutPath
    match a.configPath with
    | none => return fun path ↦ if path = a.layoutPath then layout else none
    | some configPath =>
      let config ← readText configPath
      return fun path ↦ if path = a.layoutPath then layout
        else if path = configPath then config else none

/-- Shows what happened in a turn. -/
def showEvent : ProgramEvent → IO Unit
  | .printed line => IO.println line
  | .reloaded true => IO.eprintln "topology reloaded"
  | .reloaded false => IO.eprintln "reload failed"
  | .missed count => IO.eprintln (Decimal.text count ++ " notification(s) dropped")

/-- Takes turns until the input ends. Each turn shows the frames that it put on the bus and takes as
long as it took them on the bus's clock. -/
partial def takeTurns (layoutPath : String) (input : IO.FS.Stream) (p : Program) : IO Unit := do
  let bytes ← input.read 4096
  unless bytes.isEmpty do
    let (q, events) := p.turn bytes.toList (← readText layoutPath)
    for frame in q.framesShown.drop p.framesShown.length do
      IO.eprintln ("bus <- " ++ frame)
    for event in events do
      showEvent event
    IO.sleep (UInt32.ofNat (q.session.yard.now - p.session.yard.now))
    takeTurns layoutPath input q

end SignalBox

open SignalBox in
/-- The console program. -/
def main (args : List String) : IO UInt32 := do
  match Program.start args (← readFiles args), Arguments.ofList? args with
  | .ok p, some a =>
    IO.eprintln p.banner
    takeTurns a.layoutPath (← IO.getStdin) p
    return 0
  | .ok _, none => return 1
  | .error e, _ =>
    IO.eprintln e.message
    return 1
