import Gntp.Log

/-! A connection with one sender, and what is told about it in the log. -/

namespace Gntp

structure Connection where
  id : Nat
  /-- Address and port of the sender. -/
  endpoint : Bytes
  isOpen : Bool
  active : Bool := false
  deriving DecidableEq

namespace Connection

/-- The record of something about the connection with a number. -/
def told (id : Nat) (text : Bytes) : Bytes :=
  ascii "Connection " ++ Decimal.ofNat id ++ ascii ": " ++ text

/-- Makes a connection over a socket. The other end of a socket that is not open is unknown. -/
def create (id : Nat) (peer : Option Bytes) : Connection × List Record :=
  let endpoint := peer.getD (ascii "unknown")
  ({ id, endpoint, isOpen := peer.isSome },
    [.debug (told id (ascii "Created for " ++ endpoint))])

/-- Starts to handle a request, once, if the socket is open. -/
def start (c : Connection) : Bool × Connection × List Record :=
  if c.active then (false, c, [.debug (told c.id (ascii "Already active"))])
  else if ¬ c.isOpen then
    (false, c, [.error (told c.id (ascii "Cannot start, socket not open"))])
  else
    (true, { c with active := true },
      [.info (told c.id (ascii "Accepted from " ++ c.endpoint))])

/-- Shuts the socket of an active connection down. -/
def close (c : Connection) : List Record :=
  if c.active then [.debug (told c.id (ascii "Closing"))] else []

/-- Gives the connection up. -/
def release (c : Connection) : List Record := [.debug (told c.id (ascii "Destroyed"))]

end Connection

end Gntp
