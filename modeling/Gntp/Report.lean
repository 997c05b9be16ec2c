import Gntp.Decimal

/-! A failure as it is told to others: either a rejection with the error code that the sender
gets to see, or a fault of one of the other kinds with its text. -/

namespace Gntp

/-- The codes of the Error-Code header. -/
inductive ErrorCode where
  | invalidRequest
  | unknownProtocol
  | unknownProtocolVersion
  | notAuthorized
  | unknownApplication
  | unknownNotification
  | internalServerError
  deriving DecidableEq

namespace ErrorCode

def value : ErrorCode → Nat
  | invalidRequest => 300
  | unknownProtocol => 301
  | unknownProtocolVersion => 302
  | notAuthorized => 400
  | unknownApplication => 401
  | unknownNotification => 402
  | internalServerError => 500

def all : List ErrorCode :=
  [invalidRequest, unknownProtocol, unknownProtocolVersion, notAuthorized, unknownApplication,
    unknownNotification, internalServerError]

def ofValue? (n : Nat) : Option ErrorCode := all.find? fun code => code.value = n

def name : ErrorCode → Bytes
  | invalidRequest => ascii "Invalid request"
  | unknownProtocol => ascii "Unknown protocol"
  | unknownProtocolVersion => ascii "Unknown protocol version"
  | notAuthorized => ascii "Not authorized"
  | unknownApplication => ascii "Unknown application"
  | unknownNotification => ascii "Unknown notification"
  | internalServerError => ascii "Internal server error"

end ErrorCode

/-- The kinds of fault that are not rejections. -/
inductive FaultKind where
  | endOfStream
  | initialization
  | encryption
  | decryption
  | digest
  | crypto
  | store
  | invalidArgument
  | fileSystem
  | other
  deriving DecidableEq

namespace FaultKind

/-- What the text of a fault of this kind starts with. -/
def lead : FaultKind → Bytes
  | endOfStream => ascii "End of stream: "
  | initialization => ascii "Initialization error: "
  | encryption => ascii "Encryption error: "
  | decryption => ascii "Decryption error: "
  | digest => ascii "Digest error: "
  | crypto | store | invalidArgument | fileSystem | other => []

end FaultKind

/-- A failure as it is told to others. -/
inductive Report where
  | rejection (code : ErrorCode) (detail : Bytes)
  | fault (kind : FaultKind) (text : Bytes)
  deriving DecidableEq

namespace Report

/-- The whole message: a detail follows the name of the code. -/
def fullMessage : Report → Bytes
  | rejection code [] => code.name
  | rejection code detail => code.name ++ ascii ": " ++ detail
  | fault kind text => kind.lead ++ text

/-- The message as it is printed: nothing from the first NUL on. -/
def message (r : Report) : Bytes := Bytes.upToNul r.fullMessage

end Report

end Gntp
