import Gntp.Cipher

/-! Cipher block chaining with a padded last block. Output comes in two parts: the body, which
is known before the end of the input is seen, and the tail, which depends on the padding. -/

namespace Gntp

namespace Bytes

/-- Adds one to `size` bytes, each of which tells how many there are, to reach a whole number of
blocks. -/
def pad (size : Nat) (s : Bytes) : Bytes :=
  let count := size - s.length % size
  s ++ List.replicate count (UInt8.ofNat count)

/-- Takes the padding off a last block. -/
def unpad? (size : Nat) (block : Bytes) : Option Bytes :=
  match block.getLast? with
  | none => none
  | some last =>
    let count := last.toNat
    let padding := block.drop (block.length - count)
    if 0 < count ∧ count ≤ size ∧ padding = List.replicate count last then
      some (block.take (block.length - count))
    else none

end Bytes

namespace BlockCipher

open Bytes

/-- Encrypts block after block, each one masked with the ciphertext of the one before. -/
def chain (c : BlockCipher) (iv : Bytes) (blocks : List Bytes) : List Bytes :=
  (blocks.foldl (fun (mask, done) block =>
    let out := c.encrypt (xor block mask)
    (out, out :: done)) (iv, [])).2.reverse

/-- Decrypts block after block, each one unmasked with the ciphertext of the one before. -/
def unchain (c : BlockCipher) (iv : Bytes) (blocks : List Bytes) : List Bytes :=
  (blocks.foldl (fun (mask, done) block => (block, xor (c.decrypt block) mask :: done))
    (iv, [])).2.reverse

/-- The ciphertext of a text: the whole blocks, and the padded last one. -/
def encipher (c : BlockCipher) (size : Nat) (iv text : Bytes) : Bytes × Bytes :=
  let blocks := c.chain iv (chunks size (pad size text))
  (blocks.dropLast.flatten, blocks.getLast?.getD [])

/-- The plaintext of the blocks before the last one, and that of the last one without its padding.
The tail is missing unless there is a whole number of blocks and the last one is padded well. -/
def decipher (c : BlockCipher) (size : Nat) (iv text : Bytes) : Bytes × Option Bytes :=
  let whole := chunks size text
  let blocks := c.unchain iv whole
  let tail :=
    if text.length % size = 0 then blocks.getLast?.bind (unpad? size) else none
  (blocks.dropLast.flatten, tail)

end BlockCipher

end Gntp
