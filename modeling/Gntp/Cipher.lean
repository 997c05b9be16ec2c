import Gntp.Cipher.Aes
import Gntp.Cipher.Des

/-! The ciphers that a sender may name on the request line, and the block ciphers under them. -/

namespace Gntp

/-- A cipher by name; `none` leaves everything in the clear. -/
inductive Cipher where
  | none
  | aes
  | des
  | tripleDes
  deriving DecidableEq

/-- A block cipher under one key. -/
structure BlockCipher where
  encrypt : Bytes → Bytes
  decrypt : Bytes → Bytes

namespace Cipher

def name : Cipher → Bytes
  | none => ascii "NONE"
  | aes => ascii "AES"
  | des => ascii "DES"
  | tripleDes => ascii "3DES"

def all : List Cipher := [none, aes, des, tripleDes]

def ofName? (name : Bytes) : Option Cipher := all.find? fun cipher => cipher.name = name

def keySize : Cipher → Nat
  | none => 0
  | aes => 24
  | des => 8
  | tripleDes => 24

def ivSize : Cipher → Nat
  | none => 0
  | aes => 16
  | des => 8
  | tripleDes => 8

/-- Blocks are chained, so a block is as long as the initialization vector. -/
def blockSize (cipher : Cipher) : Nat := cipher.ivSize

/-- The block cipher under a key, which is expanded once. -/
def keyed : Cipher → Bytes → BlockCipher
  | none, _ => ⟨id, id⟩
  | aes, key =>
    let keys := Aes.expandKey key
    ⟨Aes.encryptBlock keys, Aes.decryptBlock keys⟩
  | des, key =>
    let keys := Des.roundKeys key
    ⟨Des.cryptBlock [keys], Des.cryptBlock [keys.reverse]⟩
  | tripleDes, key =>
    let first := Des.roundKeys (key.take 8)
    let second := Des.roundKeys ((key.drop 8).take 8)
    let third := Des.roundKeys ((key.drop 16).take 8)
    ⟨Des.cryptBlock [first, second.reverse, third],
      Des.cryptBlock [third.reverse, second, first.reverse]⟩

end Cipher

end Gntp
