import SignalBox.Bus.Line
import SignalBox.Outcome

/-!
# Failed deliveries

A command whose frames cannot be encoded, or do not all reach the bus, fails. Frames that were sent
stay sent, so a failure tells their number.
-/

namespace SignalBox

/-- How a command failed. -/
inductive Failure
  | cancelled (framesSent : Nat)
  | transport (framesSent : Nat) (cause : BusError)
  | protocol (cause : AddressError)
  deriving DecidableEq

/-- Results can be compared if their errors and values can. -/
instance decidableEqResult {ε α : Type} [DecidableEq ε] [DecidableEq α] :
    DecidableEq (Except ε α)
  | .error a, .error b => decidable_of_iff (a = b) (by simp)
  | .error _, .ok _ => .isFalse (by simp)
  | .ok _, .error _ => .isFalse (by simp)
  | .ok a, .ok b => decidable_of_iff (a = b) (by simp)

namespace Failure

/-- The message for a failure. -/
def message : Failure → String
  | cancelled n => "dispatch cancelled after " ++ Decimal.text n ++ " frame(s)"
  | transport n _ => "transport write failed after " ++ Decimal.text n ++ " frame(s)"
  | protocol cause => cause.message

/-- The number of frames that reached the bus. -/
def framesSent : Failure → Nat
  | cancelled n => n
  | transport n _ => n
  | protocol _ => 0

/-- Whether the command was cancelled. -/
def isCancelled : Failure → Bool
  | cancelled _ => true
  | _ => false

/-- The error of the bus behind a failure. -/
def busError? : Failure → Option BusError
  | transport _ cause => some cause
  | _ => none

/-- The reason that observers are told. -/
def reason : Failure → RejectReason
  | cancelled n => .cancelled (UInt64.ofNat n)
  | transport _ cause => .transportFailed cause.message
  | protocol cause => .protocol cause.message

end Failure

end SignalBox
