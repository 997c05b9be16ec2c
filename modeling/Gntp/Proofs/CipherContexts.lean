import Gntp.Cipher.Context
import Gntp.Proofs.Chaining

/-!
# Texts in pieces

A context that takes a text in pieces ends like one that takes it at once (`update_append`), and
what comes out of it is what the text as a whole is enciphered or deciphered to
(`worked_encrypt`, `worked_decrypt`).
-/

namespace Gntp.CipherContext

open Bytes BlockCipher

variable {c : CipherContext} {piece rest last text : Bytes} {blocks : List Bytes}

/-! ## Pieces -/

theorem update_nil (c : CipherContext) : c.update [] = ([], c) := rfl

theorem update_cons (c : CipherContext) (b : UInt8) (piece : Bytes) :
    c.update (b :: piece) = ((c.absorb b).1 ++ ((c.absorb b).2.update piece).1,
      ((c.absorb b).2.update piece).2) := rfl

theorem update_append (c : CipherContext) (piece rest : Bytes) :
    c.update (piece ++ rest) = ((c.update piece).1 ++ ((c.update piece).2.update rest).1,
      ((c.update piece).2.update rest).2) := by
  induction piece generalizing c with
  | nil => rfl
  | cons b piece ih =>
    rw [List.cons_append, update_cons, ih, update_cons, List.append_assoc]

theorem update_singleton (c : CipherContext) (b : UInt8) : c.update [b] = c.absorb b := by
  rw [update_cons, update_nil, List.append_nil]

/-! ## Encryption -/

/-- Nothing comes out before a block is whole. -/
theorem update_encrypt_of_lt (hd : c.direction = .encrypt)
    (h : c.held.length + piece.length < c.size) :
    c.update piece = ([], { c with held := c.held ++ piece }) := by
  induction piece generalizing c with
  | nil => rw [update_nil, List.append_nil]
  | cons b piece ih =>
    have hlt : (c.held ++ [b]).length + piece.length < c.size := by
      simpa [Nat.add_assoc, Nat.add_comm 1] using h
    have hb : c.absorb b = ([], { c with held := c.held ++ [b] }) := by
      rw [absorb, hd]
      exact if_pos (Nat.lt_of_le_of_lt (Nat.le_add_right _ _) hlt)
    have hrest := ih (c := { c with held := c.held ++ [b] }) hd hlt
    rw [update_cons, hb, hrest, List.append_assoc, List.nil_append, List.singleton_append]

/-- A block that becomes whole is encrypted. -/
theorem update_encrypt_block (hd : c.direction = .encrypt) (hheld : c.held = [])
    {block : Bytes} (hpos : 0 < c.size) (hblock : block.length = c.size) :
    c.update block = (c.block.encrypt (xor block c.mask),
      { c with
        mask := c.block.encrypt (xor block c.mask)
        held := [] }) := by
  cases block using List.reverseRecOn with
  | nil => exact absurd hblock (Nat.ne_of_lt hpos)
  | append_singleton before b =>
    rw [List.length_append, List.length_singleton] at hblock
    have hbefore : c.held.length + before.length < c.size := by
      rw [hheld, List.length_nil, Nat.zero_add]
      omega
    rw [update_append, update_encrypt_of_lt hd hbefore, update_singleton, absorb, hheld]
    simp only [hd, List.nil_append]
    rw [if_neg]
    rw [List.length_append, List.length_singleton, hblock]
    exact Nat.lt_irrefl _

theorem update_encrypt (hd : c.direction = .encrypt) (hheld : c.held = []) (hpos : 0 < c.size)
    (h : Blocks c.size blocks) (hrest : rest.length < c.size) :
    c.update (blocks.flatten ++ rest) = ((c.block.chain c.mask blocks).flatten,
      { c with
        mask := (c.block.chain c.mask blocks).getLast?.getD c.mask
        held := rest }) := by
  induction blocks using List.reverseRecOn generalizing rest with
  | nil =>
    have hlt : c.held.length + rest.length < c.size := by
      rwa [hheld, List.length_nil, Nat.zero_add]
    rw [List.flatten_nil, List.nil_append, update_encrypt_of_lt hd hlt, hheld]
    rfl
  | append_singleton blocks block ih =>
    obtain ⟨h, hblock⟩ := blocks_append_singleton.1 h
    let before : CipherContext := { c with
      mask := (c.block.chain c.mask blocks).getLast?.getD c.mask
      held := [] }
    have hbefore : c.update blocks.flatten = ((c.block.chain c.mask blocks).flatten, before) := by
      rw [← List.append_nil blocks.flatten]
      exact ih h hpos
    let next : CipherContext := { before with
      mask := c.block.encrypt (xor block before.mask) }
    have hnext : before.update block = (next.mask, next) :=
      update_encrypt_block (c := before) hd rfl hpos hblock
    have hend : next.update rest = ([], { next with held := rest }) :=
      update_encrypt_of_lt hd ((Nat.zero_add rest.length).trans_lt hrest)
    rw [List.flatten_append, List.flatten_singleton, List.append_assoc, update_append, hbefore]
    rw [update_append, hnext, hend, chain_append_singleton, List.getLast?_concat,
      List.flatten_append, List.flatten_singleton, List.append_nil]
    rfl

/-! ## Decryption -/

/-- A block that may be the last one is kept. -/
theorem update_decrypt_of_le (hd : c.direction = .decrypt)
    (h : c.held.length + piece.length ≤ c.size) :
    c.update piece = ([], { c with held := c.held ++ piece }) := by
  induction piece generalizing c with
  | nil => rw [update_nil, List.append_nil]
  | cons b piece ih =>
    have hle : (c.held ++ [b]).length + piece.length ≤ c.size := by
      simpa [Nat.add_assoc, Nat.add_comm 1] using h
    have hb : c.absorb b = ([], { c with held := c.held ++ [b] }) := by
      rw [absorb, hd]
      exact if_pos (Nat.lt_of_lt_of_le (Nat.lt_add_of_pos_right (Nat.succ_pos _)) h)
    have hrest := ih (c := { c with held := c.held ++ [b] }) hd hle
    rw [update_cons, hb, hrest, List.append_assoc, List.nil_append, List.singleton_append]

/-- The block that was kept is decrypted when there is more to come. -/
theorem update_decrypt_next (hd : c.direction = .decrypt) (hheld : c.held.length = c.size)
    (hne : piece ≠ []) (hle : piece.length ≤ c.size) :
    c.update piece = (xor (c.block.decrypt c.held) c.mask,
      { c with
        mask := c.held
        held := piece }) := by
  cases piece with
  | nil => exact absurd rfl hne
  | cons b piece =>
    have hb : c.absorb b = (xor (c.block.decrypt c.held) c.mask,
        { c with
          mask := c.held
          held := [b] }) := by
      rw [absorb, hd]
      exact if_neg (hheld ▸ Nat.lt_irrefl _)
    let next : CipherContext := { c with
      mask := c.held
      held := [b] }
    have hnext : next.update piece = ([], { next with held := b :: piece }) :=
      update_decrypt_of_le hd ((Nat.add_comm 1 piece.length).trans_le hle)
    rw [update_cons, hb, hnext, List.append_nil]

theorem update_decrypt (hd : c.direction = .decrypt) (hheld : c.held = []) (hpos : 0 < c.size)
    (h : Blocks c.size blocks) (hne : last ≠ []) (hlast : last.length ≤ c.size) :
    c.update (blocks.flatten ++ last) = ((c.block.unchain c.mask blocks).flatten,
      { c with
        mask := blocks.getLast?.getD c.mask
        held := last }) := by
  induction blocks using List.reverseRecOn generalizing last with
  | nil =>
    have hle : c.held.length + last.length ≤ c.size := by
      rwa [hheld, List.length_nil, Nat.zero_add]
    rw [List.flatten_nil, List.nil_append, update_decrypt_of_le hd hle, hheld]
    rfl
  | append_singleton blocks block ih =>
    obtain ⟨h, hblock⟩ := blocks_append_singleton.1 h
    have hfull : block ≠ [] := List.ne_nil_of_length_pos (hpos.trans_eq hblock.symm)
    let before : CipherContext := { c with
      mask := blocks.getLast?.getD c.mask
      held := block }
    have hbefore : c.update (blocks.flatten ++ block) =
        ((c.block.unchain c.mask blocks).flatten, before) :=
      ih h hfull (Nat.le_of_eq hblock)
    have hend : before.update last = (xor (c.block.decrypt block) before.mask,
        { before with
          mask := block
          held := last }) :=
      update_decrypt_next hd hblock hne hlast
    rw [List.flatten_append, List.flatten_singleton, update_append, hbefore, hend,
      unchain_append_singleton, List.getLast?_concat, List.flatten_append, List.flatten_singleton]
    rfl

/-! ## Whole texts -/

/-- What has come out of the context when the text has come to its end. -/
def worked (c : CipherContext) (text : Bytes) : Option Bytes :=
  (c.update text).2.finish?.map ((c.update text).1 ++ ·)

theorem worked_encrypt (hd : c.direction = .encrypt) (hheld : c.held = []) (hpos : 0 < c.size)
    (text : Bytes) : c.worked text = some
      ((c.block.encipher c.size c.mask text).1 ++ (c.block.encipher c.size c.mask text).2) := by
  obtain ⟨blocks, rest, rfl, hblocks, hrest⟩ := exists_blocks hpos text
  rw [worked, update_encrypt hd hheld hpos hblocks hrest, encipher_eq hpos hblocks hrest]
  simp only [finish?, hd, Option.map_some]

theorem worked_decrypt (hd : c.direction = .decrypt) (hheld : c.held = []) (hpos : 0 < c.size)
    (text : Bytes) : c.worked text = (c.block.decipher c.size c.mask text).2.map
      ((c.block.decipher c.size c.mask text).1 ++ ·) := by
  by_cases hne : text = []
  · subst hne
    have hempty : c.held.length ≠ c.size := by
      rw [hheld]
      exact Nat.ne_of_lt hpos
    rw [worked, update, finish?, hd, decipher, chunks_nil]
    simp only [if_neg hempty]
    simp [unchain]
  · obtain ⟨blocks, last, rfl, hblocks, hne, hlast⟩ := exists_last_block hpos hne
    rw [worked, update_decrypt hd hheld hpos hblocks hne hlast, decipher_eq hpos hblocks hne hlast]
    simp only [finish?, hd]

end Gntp.CipherContext
