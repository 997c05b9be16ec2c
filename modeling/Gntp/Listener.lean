import Gntp.Address
import Gntp.Log

/-! The listening end of the daemon. -/

namespace Gntp

structure Listener where
  address : Bytes
  port : Nat
  running : Bool := false
  deriving DecidableEq

namespace Listener

/-- The text of a record of the listener. -/
def told (text : Bytes) : Bytes := ascii "TCP server: " ++ text

def endpoint (l : Listener) : Bytes := l.address ++ ascii ":" ++ Decimal.ofNat l.port

/-- Makes a listener that does not listen yet. -/
def create (port : Nat) (address : Bytes) : Listener × List Record :=
  let l : Listener := { address, port }
  (l, [.info (told (ascii "Initializing TCP server on " ++ l.endpoint))])

/-- Starts to listen. That fails, with a reason in the words of the system, if the address is not
numeric: names are not looked up. -/
def listen (l : Listener) (reason : Bytes) : Bool × Listener × List Record :=
  if l.running then (false, l, [.warning (told (ascii "Server already running"))])
  else if Address.isNumeric l.address then
    (true, { l with running := true }, [
      .debug (told (ascii "Starting to accept connections")),
      .info (told (ascii "Listening on " ++ l.endpoint))])
  else (false, l, [.error (told (ascii "Failed to start server: " ++ reason))])

def stop (l : Listener) : Listener × List Record :=
  if l.running then
    ({ l with running := false }, [
      .info (told (ascii "Initiating server shutdown")),
      .info (told (ascii "Server shutdown complete"))])
  else (l, [])

end Listener

end Gntp
