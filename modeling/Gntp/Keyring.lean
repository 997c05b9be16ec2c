import Gntp.Failure
import Gntp.Suite

/-! The accepted passwords. A sender proves that it knows one of them by the hash of the
password followed by a salt of its choice, and that hash is the key of the request. -/

namespace Gntp

structure Keyring where
  passwords : List Bytes := []
  deriving DecidableEq

namespace Keyring

def add (k : Keyring) (password : Bytes) : Keyring := ⟨k.passwords ++ [password]⟩

/-- The digest of a message, if the suite has the hash function. -/
def digest (suite : Suite) (algorithm : HashAlgorithm) (message : Bytes) : Except Failure Bytes :=
  match suite.digest algorithm with
  | none => .error .noDigest
  | some hash => .ok (hash message)

/-- The key that a password gives with a salt. -/
def deriveKey (suite : Suite) (algorithm : HashAlgorithm) (password salt : Bytes) :
    Except Failure Bytes :=
  digest suite algorithm (password ++ salt)

/-- The key of the first password whose key is `hash`. -/
def findKey (suite : Suite) (algorithm : HashAlgorithm) (hash salt : Bytes) :
    List Bytes → Except Failure (Option Bytes)
  | [] => .ok none
  | password :: others => do
    let key ← deriveKey suite algorithm password salt
    if key = hash then return some key else findKey suite algorithm hash salt others

/-- The key for a hash and a salt given in hexadecimal, if a password matches. -/
def matchingKey (suite : Suite) (k : Keyring) (algorithm : HashAlgorithm)
    (hashHex saltHex : Bytes) : Except Failure (Option Bytes) := do
  let hash ← (Hex.decode hashHex).mapError .hex
  let salt ← (Hex.decode saltHex).mapError .hex
  findKey suite algorithm hash salt k.passwords

end Keyring

end Gntp
