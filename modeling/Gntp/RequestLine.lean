import Gntp.Cipher
import Gntp.Failure
import Gntp.Suite

/-! The first line of a request:
`GNTP/1.0 <type> <cipher>[:<iv>][ <hash>:<key hash>.<salt>]`. -/

namespace Gntp

/-- The proof that a sender knows a password, in hexadecimal as it was sent. -/
structure KeyHash where
  algorithm : HashAlgorithm
  hash : Bytes
  salt : Bytes
  deriving DecidableEq

/-- The first line of a request. -/
structure RequestLine where
  messageType : MessageType
  cipher : Cipher
  iv : Bytes
  keyHash : Option KeyHash
  deriving DecidableEq

namespace RequestLine

def protocol : Bytes := ascii "GNTP"

def version : Bytes := ascii "1.0"

/-- Accepts `GNTP/1.0`. -/
def checkProtocol (field : Bytes) : Except Rejection Unit :=
  match Bytes.splitOn 0x2f field with
  | [name, number] =>
    if name ≠ protocol then .error (.foreignProtocol name)
    else if number ≠ version then .error (.foreignVersion number)
    else .ok ()
  | _ => .error .noProtocolHeader

/-- Reads `<cipher>` or `<cipher>:<iv>`. -/
def parseCipher (field : Bytes) : Except Rejection (Cipher × Bytes) :=
  let (name, ivHex) := (Bytes.cutAt 0x3a field).getD (field, [])
  match Cipher.ofName? name with
  | none => .error (.unsupportedCipher name)
  | some cipher => do
    let iv ← (Hex.decode ivHex).mapError .badIv
    return (cipher, iv)

/-- Reads `<hash>:<key hash>.<salt>`. Both parts behind the colon are hexadecimal and neither is
empty. -/
def parseKeyHash (field : Bytes) : Except Rejection KeyHash :=
  match Bytes.splitOn 0x3a field with
  | [name, hashAndSalt] =>
    match HashAlgorithm.ofName? name with
    | none => .error (.unsupportedHash name)
    | some algorithm =>
      match Bytes.cutAt 0x2e hashAndSalt with
      | none | some ([], _) | some (_, []) => .error .malformedKeyHash
      | some (hash, salt) =>
        match Hex.decode hash, Hex.decode salt with
        | .ok _, .ok _ => .ok ⟨algorithm, hash, salt⟩
        | _, _ => .error .keyHashNotHex
  | _ => .error .malformedKeyHash

/-- Reads the fields after the protocol. -/
def parseFields (typeName cipherField : Bytes) (keyHashField : Option Bytes) :
    Except Rejection RequestLine :=
  match MessageType.ofName? typeName with
  | none => .error (.unknownMessageType typeName)
  | some messageType => do
    let (cipher, iv) ← parseCipher cipherField
    match keyHashField with
    | none => return ⟨messageType, cipher, iv, none⟩
    | some field => return ⟨messageType, cipher, iv, some (← parseKeyHash field)⟩

/-- Reads a request line. Blanks around it do not matter. A foreign protocol is reported as such
even if the rest of the line makes no sense. -/
def parse (line : Bytes) : Except Rejection RequestLine := do
  let fields := Bytes.splitOn 0x20 (Bytes.trim line)
  checkProtocol (fields.headD [])
  match fields with
  | [_, typeName, cipherField] => parseFields typeName cipherField none
  | [_, typeName, cipherField, keyHashField] => parseFields typeName cipherField (some keyHashField)
  | _ => throw (.fieldCount fields.length)

end RequestLine

end Gntp
