import Gntp.Cipher.Chaining

/-! A cipher at work on a text that comes in pieces. What the pieces are makes no difference to
what comes of them together. -/

namespace Gntp

inductive Direction where
  | encrypt
  | decrypt
  deriving DecidableEq

structure CipherContext where
  direction : Direction
  block : BlockCipher
  size : Nat
  /-- What the next block is masked with: the ciphertext of the block before it. -/
  mask : Bytes
  /-- What has come and is not worked on yet. -/
  held : Bytes := []

namespace CipherContext

/-- Takes one byte more, and returns what comes out for it. A block is encrypted once it is whole,
but not decrypted before there is more to come, for the last one has to be kept for the end. -/
def absorb (c : CipherContext) (b : UInt8) : Bytes × CipherContext :=
  match c.direction with
  | .encrypt =>
    let held := c.held ++ [b]
    if held.length < c.size then ([], { c with held })
    else
      let out := c.block.encrypt (Bytes.xor held c.mask)
      (out, { c with mask := out, held := [] })
  | .decrypt =>
    if c.held.length < c.size then ([], { c with held := c.held ++ [b] })
    else (Bytes.xor (c.block.decrypt c.held) c.mask, { c with mask := c.held, held := [b] })

/-- Takes a piece of the text. -/
def update (c : CipherContext) (piece : Bytes) : Bytes × CipherContext :=
  match piece with
  | [] => ([], c)
  | b :: rest =>
    let (first, c) := c.absorb b
    let (others, c) := c.update rest
    (first ++ others, c)

/-- Works on the last block. Encryption pads what is left, if only with a block of padding.
Decryption needs exactly one block, and padding on it. -/
def finish? (c : CipherContext) : Option Bytes :=
  match c.direction with
  | .encrypt => some (c.block.encrypt (Bytes.xor (Bytes.pad c.size c.held) c.mask))
  | .decrypt =>
    if c.held.length = c.size then
      Bytes.unpad? c.size (Bytes.xor (c.block.decrypt c.held) c.mask)
    else none

end CipherContext

end Gntp
