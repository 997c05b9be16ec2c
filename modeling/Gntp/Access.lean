import Gntp.Keyring
import Gntp.RequestLine
import Gntp.Sealing

/-! Who may send what: the decision taken on a request line before anything else is read. -/

namespace Gntp

/-- What to do with a notification whose key hash matches no password. -/
inductive Policy where
  | reject
  /-- Read it in full and answer as if it had been shown. -/
  | ignoreNotify
  deriving DecidableEq

/-- What is granted to the sender of a request line. -/
inductive Access where
  /-- The key is empty if no key hash was sent. -/
  | authorized (key : Bytes)
  | ignored
  deriving DecidableEq

namespace Access

/-- The key of the request; empty if there is none. -/
def key : Access → Bytes
  | authorized key => key
  | ignored => []

/-- Decides on a request line. Only a notification in the clear can be ignored: without the key an
encrypted request cannot be read at all. -/
def decide (suite : Suite) (keyring : Keyring) (policy : Policy) (line : RequestLine) :
    Except Failure Access :=
  match line.keyHash with
  | none =>
    if keyring.passwords = [] then .ok (authorized [])
    else .error (.rejected .missingKeyHash)
  | some keyHash => do
    match ← keyring.matchingKey suite keyHash.algorithm keyHash.hash keyHash.salt with
    | some key => return authorized key
    | none =>
      if policy = .ignoreNotify ∧ line.messageType = .notify ∧ line.cipher = .none then
        return ignored
      else throw (.rejected .incorrectPassword)

/-- The sealing that a request line asks for. A cipher needs a key, hence a key hash. -/
def sealing (line : RequestLine) (key : Bytes) : Except Rejection Sealing :=
  if line.cipher = .none then .ok .clear
  else if key = [] then .error (.cipherWithoutPassword line.cipher)
  else (Sealing.make line.cipher key line.iv).mapError .cipherParameters

end Access

end Gntp
