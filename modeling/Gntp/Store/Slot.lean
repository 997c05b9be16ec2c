import Gntp.Bytes

/-! The place that a store gives to one payload. -/

namespace Gntp

/-- What receives the payload of a slot. -/
inductive Sink where
  /-- Memory; a broken buffer keeps what it has and takes nothing more. -/
  | buffer (content : Bytes) (broken : Bool)
  /-- The partial file with this number. -/
  | part (number : Nat)
  deriving DecidableEq

/-- The place for one payload. -/
structure Slot where
  identifier : Bytes := []
  /-- Whether the store holds the payload already, so that it need not be kept. -/
  cached : Bool := false
  location : Bytes := []
  sink : Option Sink := none
  deriving DecidableEq

namespace Slot

/-- Adds to the payload if it is received in memory. -/
def write (slot : Slot) (data : Bytes) : Slot :=
  match slot.sink with
  | some (.buffer content false) => { slot with sink := some (.buffer (content ++ data) false) }
  | _ => slot

/-- Makes the buffer take nothing more. -/
def breakSink (slot : Slot) : Slot :=
  match slot.sink with
  | some (.buffer content _) => { slot with sink := some (.buffer content true) }
  | _ => slot

end Slot

end Gntp
