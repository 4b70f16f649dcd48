/-!
# Commands to signals
-/

namespace SignalBox

/-- What a signal shows. -/
inductive Aspect
  | stop
  | go
  deriving DecidableEq

/-- The word for an aspect in the text of a notice. -/
def Aspect.word : Aspect → String
  | stop => "Stop"
  | go => "Go"

/-- A command to change the aspect of a signal. -/
structure SignalCommand where
  /-- The number of the signal. -/
  signal : UInt32
  /-- The accessory that drives the signal; 0 for a signal that is not wired to the bus. -/
  address : UInt16
  /-- The aspect asked for. -/
  aspect : Aspect
  /-- The address that reports the aspect shown. -/
  feedback : Option UInt16
  deriving DecidableEq

/-- Whether the signal is driven over the bus. -/
def SignalCommand.hasAddress (s : SignalCommand) : Bool :=
  0 < s.address

end SignalBox
