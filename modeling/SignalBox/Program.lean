import SignalBox.Document.Config
import SignalBox.Document.Layout
import SignalBox.Json.Reader
import SignalBox.Session
import SignalBox.Text.Line

/-!
# The console program

The program reads a layout and, if one is named, a configuration, and then takes turns: it polls the
keys that have come in, carries out the commands that they complete, and goes through the notices.
Each notice is printed, except that a request to reload makes the program read the layout file
again. Frames are shown instead of being sent to a bus.
-/

namespace SignalBox

/-- A file that the program reads. -/
inductive ProgramFile
  | layout
  | config
  deriving DecidableEq

/-- The word for a file in messages. -/
def ProgramFile.word : ProgramFile → String
  | layout => "topology"
  | config => "config"

/-- Why the program does not start: no layout is named, or a file cannot be read, or its text is
not what it should be. -/
inductive StartError
  | usage
  | reading (file : ProgramFile) (path : String)
  | parsing (file : ProgramFile) (path : String)
  deriving DecidableEq

/-- The message for a start that failed. -/
def StartError.message : StartError → String
  | usage => "Error: usage: yard_console [-v] <topology.json> [config.json]"
  | reading file path => "Error: reading " ++ file.word ++ " " ++ path
  | parsing file path => "Error: parsing " ++ file.word ++ " " ++ path

/-- The arguments of the program. -/
structure Arguments where
  /-- Whether more messages are asked for. -/
  verbose : Bool
  /-- Where the layout is. -/
  layoutPath : String
  /-- Where the configuration is, if one is named. -/
  configPath : Option String
  deriving DecidableEq

namespace Arguments

/-- Whether an argument is the flag that asks for more messages. -/
def isVerboseFlag (arg : String) : Bool :=
  arg == "-v" || arg == "--verbose"

/-- Reads the arguments; the flag may stand anywhere, and paths after the second are ignored. -/
def ofList? (args : List String) : Option Arguments :=
  match args.filter fun a ↦ !isVerboseFlag a with
  | [] => none
  | layoutPath :: rest =>
    some { verbose := args.any isVerboseFlag, layoutPath, configPath := rest.head? }

end Arguments

/-- Reads a document that the program needs from the text of its file, which is missing if the file
cannot be read. -/
def ProgramFile.read {α : Type} [Document α] (file : ProgramFile) (path : String)
    (text : Option String) : Except StartError α :=
  match text with
  | none => .error (.reading file path)
  | some text =>
    match (Json.parse? text).bind Document.read? with
    | none => .error (.parsing file path)
    | some document => .ok document

/-- The running program. -/
structure Program where
  /-- The line that it says about the station. -/
  banner : String
  /-- Its session. -/
  session : Session

/-- What the program does in a turn besides moving things: it prints a line, reads the layout again
(with or without success), or finds that it has missed notices. -/
inductive ProgramEvent
  | printed (line : String)
  | reloaded (success : Bool)
  | missed (count : Nat)
  deriving DecidableEq

namespace Program

/-- What the program says about the station. -/
def bannerFor (station : StationConfig) (layout : Layout) : String :=
  "station " ++ station.name.text ++ ": " ++ Decimal.text layout.points.length ++ " point(s), " ++
    Decimal.text layout.signals.length ++ " signal(s), " ++
    Decimal.text layout.routes.length ++ " route(s), " ++
    Decimal.text layout.tracks.length ++ " turntable track(s)"

/-- The program at its start. The configuration comes first, so its error wins. -/
def start (args : List String) (files : String → Option String) : Except StartError Program := do
  match Arguments.ofList? args with
  | none => .error .usage
  | some args =>
    let config : Config ← match args.configPath with
      | none => .ok .standard
      | some path => ProgramFile.config.read path (files path)
    let layout : Layout ← ProgramFile.layout.read args.layoutPath (files args.layoutPath)
    return {
      banner := bannerFor config.station layout
      session := .start layout config.dispatch config.console .none }

/-- Reads the layout again from the text of its file. If that fails the old one stays. -/
def reload (p : Program) (layoutText : Option String) : Program × ProgramEvent :=
  match (layoutText.bind Json.parse?).bind Document.read? with
  | none => (p, .reloaded false)
  | some layout =>
    ({ p with session := { p.session with yard := p.session.yard.replaceLayout layout } },
      .reloaded true)

/-- Handles what the program's observer has received. -/
def handle (p : Program) (layoutText : Option String) :
    List Received → Program × List ProgramEvent
  | [] => (p, [])
  | received :: rest =>
    let (p, event) := match received with
      | .notice .reloadRequested => p.reload layoutText
      | .notice notice => (p, .printed notice.text)
      | .lagged missed => (p, .missed missed)
    let (p, events) := p.handle layoutText rest
    (p, event :: events)

/-- One turn: the bytes that have come in are taken as keys, and then the notices are handled, with
`layoutText` as the text of the layout file meanwhile. -/
def turn (p : Program) (bytes : List UInt8) (layoutText : Option String) :
    Program × List ProgramEvent :=
  let (session, _) := p.session.poll (bytes.map KeyEvent.ofByte) .never
  let (session, received) := session.watch
  { p with session := session }.handle layoutText received

/-- Takes several turns. -/
def turns (p : Program) (layoutText : Option String) :
    List (List UInt8) → Program × List ProgramEvent
  | [] => (p, [])
  | bytes :: rest =>
    let (p, events) := p.turn bytes layoutText
    let (p, more) := p.turns layoutText rest
    (p, events ++ more)

/-- The frames shown so far, as they look on the wire. -/
def framesShown (p : Program) : List String :=
  p.session.yard.line.accepted.map fun f ↦ f.frame.onWire.text

end Program

/-- What can be seen of a run of the program from outside. -/
structure ProgramReport where
  /-- The exit code. -/
  exitCode : Nat
  /-- The lines printed. -/
  printed : List String
  /-- The frames shown. -/
  frames : List String
  /-- The line about the station, if the program came that far. -/
  banner : Option String
  /-- Why the program did not start. -/
  error : Option StartError

namespace ProgramReport

/-- The line about the station as it is shown; a name may hold a line break. -/
def bannerLine? (r : ProgramReport) : Option String :=
  r.banner.map Text.firstLine

/-- The first line about a start that failed; a path may hold a line break. -/
def errorLine? (r : ProgramReport) : Option String :=
  r.error.map fun e ↦ Text.firstLine e.message

end ProgramReport

/-- The lines printed among events. -/
def ProgramEvent.line? : ProgramEvent → Option String
  | printed line => some line
  | _ => none

/-- Runs the program on files that do not change and on input that arrives in pieces. -/
def Program.run (args : List String) (files : String → Option String)
    (input : List (List UInt8)) : ProgramReport :=
  match Program.start args files with
  | .error e => { exitCode := 1, printed := [], frames := [], banner := none, error := some e }
  | .ok p =>
    let layoutText := (Arguments.ofList? args).bind fun a ↦ files a.layoutPath
    let (q, events) := p.turns layoutText input
    { exitCode := 0
      printed := events.filterMap ProgramEvent.line?
      frames := q.framesShown
      banner := some p.banner
      error := none }

end SignalBox
