import SignalBox.Text.Truncated

/-!
# Configuration

The grammar of the console, the pace of the bus and the name of the station. A name is held in 64
bytes.
-/

namespace SignalBox

/-- Text of at most 64 bytes. -/
structure ShortName where
  text : String
  fits : Text.size text.toList ≤ 64

namespace ShortName

/-- The longest name that text starts with. -/
def ofText (text : String) : ShortName :=
  ⟨String.ofList (Text.truncate 64 text.toList), by
    rw [String.toList_ofList]
    exact Text.size_truncate_le 64 _⟩

/-- Text as a name, if it is short enough. -/
def ofText? (text : String) : Option ShortName :=
  if h : Text.size text.toList ≤ 64 then some ⟨text, h⟩ else none

end ShortName

/-- The keys of the console grammar that can be chosen. -/
structure ConsoleConfig where
  /-- What parts the signals of a route. -/
  divider : Char
  /-- What marks a point as flank protection, in either case. -/
  offRoutePrefix : Char

/-- The pace of the bus and the room for notices. -/
structure DispatchConfig where
  /-- The pause before each frame, in milliseconds. -/
  frameDelay : UInt32
  /-- How many notices are kept for an observer, at the least. -/
  noticeCapacity : UInt64

/-- What is known about the station. -/
structure StationConfig where
  /-- The name of the station. -/
  name : ShortName

/-- All of the configuration. -/
structure Config where
  console : ConsoleConfig
  dispatch : DispatchConfig
  station : StationConfig

/-- A dot parts signals and the letter x marks flank protection. -/
def ConsoleConfig.standard : ConsoleConfig :=
  { divider := '.', offRoutePrefix := 'x' }

/-- A tenth of a second before each frame, and 64 notices. -/
def DispatchConfig.standard : DispatchConfig :=
  { frameDelay := 100, noticeCapacity := 64 }

/-- A station without a name of its own. -/
def StationConfig.standard : StationConfig :=
  { name := .ofText "yard" }

/-- The configuration where nothing is chosen. -/
def Config.standard : Config :=
  { console := .standard, dispatch := .standard, station := .standard }

deriving instance DecidableEq for ShortName
deriving instance DecidableEq for ConsoleConfig
deriving instance DecidableEq for DispatchConfig
deriving instance DecidableEq for StationConfig
deriving instance DecidableEq for Config

end SignalBox
