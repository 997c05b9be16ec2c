import Gntp.Bytes

/-! The kinds of message. -/

namespace Gntp

/-- What a request asks for. -/
inductive MessageType where
  | register
  | notify
  | subscribe
  deriving DecidableEq

namespace MessageType

def name : MessageType → Bytes
  | register => ascii "REGISTER"
  | notify => ascii "NOTIFY"
  | subscribe => ascii "SUBSCRIBE"

def all : List MessageType := [register, notify, subscribe]

def ofName? (name : Bytes) : Option MessageType := all.find? fun type => type.name = name

end MessageType

end Gntp
