import Gntp.Hex
import Gntp.Cipher
import Gntp.MessageType
import Gntp.Report
import Gntp.Request.Phase

/-! Everything that can go wrong, by cause, and the wording of each cause. -/

namespace Gntp

/-- Why cipher parameters are refused. -/
inductive ParameterFault where
  | keyTooShort (cipher : Cipher)
  | badIvSize (cipher : Cipher)
  deriving DecidableEq

namespace ParameterFault

def message : ParameterFault → Bytes
  | keyTooShort cipher => ascii "Key too short for " ++ cipher.name
  | badIvSize cipher => ascii "Invalid IV size for " ++ cipher.name

def report (f : ParameterFault) : Report := .fault .initialization f.message

end ParameterFault

/-- Why a request is refused. -/
inductive Rejection where
  | noProtocolHeader
  | foreignProtocol (name : Bytes)
  | foreignVersion (version : Bytes)
  | fieldCount (count : Nat)
  | unknownMessageType (name : Bytes)
  | unsupportedCipher (name : Bytes)
  | badIv (fault : HexFault)
  | malformedKeyHash
  | unsupportedHash (name : Bytes)
  | keyHashNotHex
  | missingKeyHash
  | incorrectPassword
  | cipherWithoutPassword (cipher : Cipher)
  | cipherParameters (fault : ParameterFault)
  | lineTooLong
  | binaryAmongHeaders
  | sealedBlockTooLarge
  | headerWithoutColon (line : Bytes)
  | emptyHeaderName (line : Bytes)
  | emptyReference
  | badTypeCount (text : Bytes)
  | namelessType
  | missingIdentifier
  | missingLength
  | badLength (text : Bytes)
  | resourceTooLarge (text : Bytes)
  | duplicateResource (identifier : Bytes)
  | noBlankLine (line : Bytes)
  | missingResources (count : Nat)
  | missingHeader (name : Bytes)
  | unknownApplication (name : Bytes)
  | unknownNotification (name : Bytes)
  | subscribeUnsupported
  | readAgain (phase : Phase)
  | emptyResponse
  | badStatusLine (line : Bytes)
  deriving DecidableEq

namespace Rejection

/-- The code that the sender gets to see. -/
def code : Rejection → ErrorCode
  | foreignProtocol _ => .unknownProtocol
  | foreignVersion _ => .unknownProtocolVersion
  | malformedKeyHash | keyHashNotHex | missingKeyHash | incorrectPassword
  | cipherWithoutPassword _ => .notAuthorized
  | unknownApplication _ => .unknownApplication
  | unknownNotification _ => .unknownNotification
  | subscribeUnsupported | readAgain _ => .internalServerError
  | _ => .invalidRequest

/-- The description that the sender gets to see. -/
def detail : Rejection → Bytes
  | noProtocolHeader => ascii "Expected GNTP/1.0 protocol header"
  | foreignProtocol name => name
  | foreignVersion version => version
  | fieldCount count =>
    ascii "Expected 3 or 4 fields, found " ++ Decimal.ofNat count ++ ascii " fields"
  | unknownMessageType name => ascii "Unknown message type: " ++ name
  | unsupportedCipher name => ascii "Unsupported encryption type: " ++ name
  | badIv fault => ascii "Invalid IV: " ++ Bytes.upToNul fault.message
  | malformedKeyHash => ascii "Unable to parse hash"
  | unsupportedHash name => ascii "Unsupported hash type: " ++ name
  | keyHashNotHex => ascii "Key hash or salt is not hex"
  | missingKeyHash => ascii "Missing key hash"
  | incorrectPassword => ascii "Incorrect password"
  | cipherWithoutPassword cipher =>
    ascii "Encryption " ++ cipher.name ++ ascii " requires a password"
  | cipherParameters fault => fault.report.message
  | lineTooLong => ascii "Line exceeds maximum length"
  | binaryAmongHeaders => ascii "Binary data inside an encrypted header block"
  | sealedBlockTooLarge => ascii "Encrypted header block too large"
  | headerWithoutColon line => ascii "Unable to parse header: " ++ line
  | emptyHeaderName line => ascii "Empty header name: " ++ line
  | emptyReference => ascii "Resource reference without identifier"
  | badTypeCount text => ascii "Invalid Notifications-Count: " ++ text
  | namelessType => ascii "Notification type without Notification-Name"
  | missingIdentifier => ascii "Resource without Identifier header"
  | missingLength => ascii "Resource without Length header"
  | badLength text => ascii "Invalid resource length: " ++ text
  | resourceTooLarge text => ascii "Resource too large: " ++ text
  | duplicateResource identifier => ascii "Duplicate resource: " ++ identifier
  | noBlankLine line => ascii "Expected blank line after resource, not: " ++ line
  | missingResources count => Decimal.ofNat count ++ ascii " referenced resources missing"
  | missingHeader name => ascii "Missing " ++ name ++ ascii " header"
  | unknownApplication name => name
  | unknownNotification name => name
  | subscribeUnsupported => ascii "SUBSCRIBE is not supported"
  | readAgain phase => ascii "Parser invoked in state " ++ phase.name
  | emptyResponse => ascii "Empty response"
  | badStatusLine line => ascii "Unexpected status line: " ++ line

end Rejection

/-- Where the input ended before the request did. -/
inductive Truncation where
  | beforeRequestLine
  | during (phase : Phase)
  | insideSealedBlock
  | insidePayload (missing : Nat)
  | afterResource (identifier : Bytes)
  deriving DecidableEq

namespace Truncation

def message : Truncation → Bytes
  | beforeRequestLine => ascii "before request line"
  | during phase => ascii "while " ++ phase.name
  | insideSealedBlock => ascii "inside encrypted header block"
  | insidePayload missing =>
    ascii "expected " ++ Decimal.ofNat missing ++ ascii " more bytes of binary data"
  | afterResource identifier => ascii "after resource " ++ identifier

end Truncation

/-- What can go wrong while a cipher runs. -/
inductive CipherFault where
  | notInitialized
  | badStreamState
  | unreadable
  | unwritable
  | cipherUnavailable
  | sealUnavailable
  | unsealUnavailable
  | blockNotSealed
  | blockNotUnsealed
  | sealNotFinished
  | badPadding
  | noRandomness
  deriving DecidableEq

namespace CipherFault

def kind : CipherFault → FaultKind
  | notInitialized | cipherUnavailable => .initialization
  | badStreamState | unreadable | unwritable | noRandomness => .crypto
  | sealUnavailable | blockNotSealed | sealNotFinished => .encryption
  | unsealUnavailable | blockNotUnsealed | badPadding => .decryption

def message : CipherFault → Bytes
  | notInitialized => ascii "Cipher stream: CipherStream not initialized"
  | badStreamState => ascii "Cipher stream: Invalid stream state"
  | unreadable => ascii "Cipher stream: Failed to read from input stream"
  | unwritable => ascii "Cipher stream: Failed to write to output stream"
  | cipherUnavailable => ascii "Cipher stream: Cipher unavailable"
  | sealUnavailable => ascii "Cipher stream: Failed to initialize encryption context"
  | unsealUnavailable => ascii "Cipher stream: Failed to initialize decryption context"
  | blockNotSealed => ascii "Cipher stream: Failed to encrypt data block"
  | blockNotUnsealed => ascii "Cipher stream: Failed to decrypt data block"
  | sealNotFinished => ascii "Cipher stream: Failed to finalize encryption"
  | badPadding => ascii "Cipher stream: Bad padding or corrupted ciphertext"
  | noRandomness => ascii "Cipher stream: Failed to generate random IV"

end CipherFault

/-- Why a path cannot be followed, or a file not moved. -/
inductive MoveFault where
  | missing
  | notADirectory
  | isADirectory
  | notEmpty
  | nameTooLong
  deriving DecidableEq

namespace MoveFault

def message : MoveFault → Bytes
  | missing => ascii "No such file or directory"
  | notADirectory => ascii "Not a directory"
  | isADirectory => ascii "Is a directory"
  | notEmpty => ascii "Directory not empty"
  | nameTooLong => ascii "File name too long"

end MoveFault

/-- What can go wrong in a store on disk. -/
inductive StoreFault where
  | keyNotHashed
  | fileNotCreated (file : Bytes)
  | foreignSlot (identifier : Bytes)
  | payloadNotWritten (identifier : Bytes)
  | payloadNotMoved (identifier : Bytes) (fault : MoveFault)
  deriving DecidableEq

/-- The text of a missing hash function. -/
def digestUnavailable : Report := .fault .digest (ascii "Failed to initialize hash context")

namespace StoreFault

def message : StoreFault → Bytes
  | keyNotHashed => ascii "Store: Failed to hash key: " ++ digestUnavailable.message
  | fileNotCreated file => ascii "Store: Failed to create file: " ++ file
  | foreignSlot identifier =>
    ascii "Store: Slot for " ++ identifier ++ ascii " was not issued by this store"
  | payloadNotWritten identifier => ascii "Store: Failed to write resource " ++ identifier
  | payloadNotMoved identifier fault =>
    ascii "Store: Failed to commit resource " ++ identifier ++ ascii ": " ++ fault.message

end StoreFault

/-- Everything that can go wrong. -/
inductive Failure where
  | rejected (reason : Rejection)
  | truncated (place : Truncation)
  | parameters (fault : ParameterFault)
  | cipher (fault : CipherFault)
  | noDigest
  | store (fault : StoreFault)
  | fileSystem
  | hex (fault : HexFault)
  | unknownOwner (application : Bytes)
  | slotWithoutBuffer (identifier : Bytes)
  deriving DecidableEq

namespace Failure

def report : Failure → Report
  | rejected reason => .rejection reason.code reason.detail
  | truncated place => .fault .endOfStream place.message
  | parameters fault => fault.report
  | cipher fault => .fault fault.kind fault.message
  | noDigest => digestUnavailable
  | store fault => .fault .store fault.message
  | fileSystem => .fault .fileSystem []
  | hex fault => .fault .invalidArgument fault.message
  | unknownOwner application =>
    .fault .invalidArgument (ascii "Registry: Unknown application: " ++ application)
  | slotWithoutBuffer identifier =>
    .fault .invalidArgument
      (ascii "Memory store: Slot for " ++ identifier ++ ascii " has no buffer")

end Failure

end Gntp
