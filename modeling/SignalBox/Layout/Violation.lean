import SignalBox.Text.Decimal

/-!
# Why a route does not fit the layout
-/

namespace SignalBox

/-- What keeps a route from fitting the layout: a signal without a definition, a point without
one, or a point none of whose definitions is part of the track graph. -/
inductive Violation
  | unknownSignal (signal : UInt32)
  | unknownPoint (point : UInt32)
  | notConnected (point : UInt32)
  deriving DecidableEq

/-- The message for a violation. -/
def Violation.message : Violation → String
  | unknownSignal n => "signal " ++ Decimal.text n.toNat ++ " does not exist"
  | unknownPoint n => "point " ++ Decimal.text n.toNat ++ " does not exist"
  | notConnected n => "point " ++ Decimal.text n.toNat ++ " is not connected in the track graph"

end SignalBox
