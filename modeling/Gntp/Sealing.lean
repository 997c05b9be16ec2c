import Gntp.Cipher.Chaining
import Gntp.Failure
import Gntp.Suite

/-! A sealing: a cipher together with a key and an initialization vector that fit it. -/

namespace Gntp

/-- A cipher with its parameters. -/
structure Sealing where
  cipher : Cipher
  key : Bytes
  iv : Bytes
  key_length : key.length = cipher.keySize
  iv_length : iv.length = cipher.ivSize
  deriving DecidableEq

namespace Sealing

/-- Leaves everything in the clear. -/
def clear : Sealing where
  cipher := .none
  key := []
  iv := []
  key_length := rfl
  iv_length := rfl

instance : Inhabited Sealing := ⟨clear⟩

/-- Takes as much of the key as the cipher needs. The vector has to fit exactly. -/
def make (cipher : Cipher) (key iv : Bytes) : Except ParameterFault Sealing :=
  if cipher = .none then .ok clear
  else if hk : key.length < cipher.keySize then .error (.keyTooShort cipher)
  else if hv : iv.length = cipher.ivSize then
    .ok ⟨cipher, key.take cipher.keySize, iv, by rw [List.length_take]; omega, hv⟩
  else .error (.badIvSize cipher)

/-- Whether anything is sealed at all. -/
def enabled (s : Sealing) : Bool := s.cipher ≠ .none

/-- The block cipher under the key, if the suite has it. -/
def keyed? (suite : Suite) (s : Sealing) : Option BlockCipher :=
  (suite.cipher s.cipher).map fun keyed => keyed s.key

/-- Body and tail of the ciphertext. -/
def sealParts (suite : Suite) (s : Sealing) (text : Bytes) : Except CipherFault (Bytes × Bytes) :=
  match s.keyed? suite with
  | none => .error .sealUnavailable
  | some c => .ok (c.encipher s.cipher.blockSize s.iv text)

/-- Body and tail of the plaintext; there is no tail if the padding is bad. -/
def unsealParts (suite : Suite) (s : Sealing) (text : Bytes) :
    Except CipherFault (Bytes × Option Bytes) :=
  match s.keyed? suite with
  | none => .error .unsealUnavailable
  | some c => .ok (c.decipher s.cipher.blockSize s.iv text)

def encrypt (suite : Suite) (s : Sealing) (text : Bytes) : Except CipherFault Bytes :=
  if s.enabled then do
    let (body, tail) ← s.sealParts suite text
    return body ++ tail
  else .ok text

def decrypt (suite : Suite) (s : Sealing) (text : Bytes) : Except CipherFault Bytes :=
  if s.enabled then do
    match ← s.unsealParts suite text with
    | (body, some tail) => return body ++ tail
    | (_, none) => throw .badPadding
  else .ok text

end Sealing

end Gntp
