import SignalBox.Console.Interpreter
import SignalBox.Session.Schedule

/-!
# Sessions

A yard with a console and observers. Keys typed at the console are collected into commands, which
are done one after another. One observer watches the whole session; others can join later.
-/

namespace SignalBox

/-- A session. -/
structure Session where
  /-- The yard. -/
  yard : Yard
  /-- The configuration from which the yard was started. -/
  config : DispatchConfig
  /-- The console. -/
  console : Interpreter
  /-- The observer of the whole session. -/
  watcher : Observer
  /-- The observers that joined later, in order. -/
  observers : List Observer

/-- What could be seen of a session since some earlier moment. -/
structure Observation where
  /-- The frames that the bus has accepted since. -/
  frames : List AcceptedFrame
  /-- What the observer of the whole session has received since. -/
  received : List Received
  /-- The active routes. -/
  active : List RouteCommand
  /-- The characters typed and not yet complete. -/
  entry : String
  /-- The time. -/
  now : Nat

namespace Session

/-- A session in which nothing has happened. -/
def start (layout : Layout) (dispatch : DispatchConfig) (console : ConsoleConfig)
    (faults : BusFaults) : Session :=
  let yard := Yard.start layout dispatch.frameDelay.toNat dispatch.noticeCapacity.toNat faults
  { yard, config := dispatch, console := .ofGrammar (.ofConfig console)
    watcher := yard.channel.subscribe, observers := [] }

/-- Does jobs at the same time. -/
def doAll (s : Session) (jobs : List (Nat × Job)) : Session × List (JobResult × Nat) :=
  let (yard, results) := s.yard.doAll jobs
  ({ s with yard := yard }, results)

/-- Does one job. -/
def doOne (s : Session) (job : Job) : Session × Option JobResult :=
  let (s, results) := s.doAll [(0, job)]
  (s, results.head?.map Prod.fst)

/-- Types keys, and gives the commands that they complete. -/
def typeKeys (s : Session) (events : List KeyEvent) : Session × List Command :=
  let (console, commands) := s.console.pressAll (events.filterMap KeyEvent.grammarChar?)
  ({ s with console := console }, commands)

/-- Does commands one after another. A command that fails does not keep the next ones back. -/
def doInTurn (s : Session) (token : Token) :
    List Command → Session × List (Except Failure Outcome)
  | [] => (s, [])
  | command :: commands =>
    match s.doOne (.command command token) with
    | (s, result) =>
      match s.doInTurn token commands with
      | (s, results) =>
        match result with
        | some (.command result) => (s, result :: results)
        | _ => (s, results)

/-- Types keys, and does the commands that they complete. -/
def poll (s : Session) (events : List KeyEvent) (token : Token) :
    Session × List (Except Failure Outcome) :=
  match s.typeKeys events with
  | (s, commands) => s.doInTurn token commands

/-- Forgets what has been written to the bus. -/
def resetBus (s : Session) : Session :=
  { s with yard := { s.yard with line := s.yard.line.reset } }

/-- Publishes a notice. -/
def publish (s : Session) (notice : Notice) : Session :=
  { s with yard := s.yard.publish notice }

/-- Lets another observer join. -/
def subscribe (s : Session) : Session :=
  { s with observers := s.observers ++ [s.yard.channel.subscribe] }

/-- Everything that waits for the observer that joined at the given place. -/
def drain (s : Session) (place : Nat) : Session × List Received :=
  match s.observers[place]? with
  | none => (s, [])
  | some observer =>
    ({ s with observers := s.observers.set place s.yard.channel.caughtUp },
      s.yard.channel.pending observer)

/-- Everything that waits for the observer of the whole session. -/
def watch (s : Session) : Session × List Received :=
  ({ s with watcher := s.yard.channel.caughtUp }, s.yard.channel.pending s.watcher)

/-- What can be seen of a session since the bus had accepted the given number of frames. -/
def observe (s : Session) (framesBefore : Nat) : Session × Observation :=
  let (s, received) := s.watch
  (s, { frames := s.yard.line.accepted.drop framesBefore
        received
        active := s.yard.active.routes
        entry := s.console.entryText
        now := s.yard.now })

end Session

end SignalBox
