import Gntp.Cipher.Chaining
import Mathlib.Data.List.Induction
import Mathlib.Order.Bounds.Basic

/-!
# Chained blocks and back

Every text is a number of whole blocks and a rest (`Bytes.exists_blocks`), and the rest with its
padding is one block more. If the decryption of a block undoes its encryption
(`BlockCipher.Inverts`), then what is deciphered of a ciphertext is the text (`decipher_encipher`).
-/

namespace Gntp

namespace Bytes

variable {size : Nat} {s rest : Bytes} {blocks : List Bytes}

/-! ## Texts as blocks -/

/-- All of them are of one size. -/
def Blocks (size : Nat) (blocks : List Bytes) : Prop := ∀ block ∈ blocks, block.length = size

theorem Blocks.append_singleton {block : Bytes} (h : Blocks size blocks)
    (hblock : block.length = size) : Blocks size (blocks ++ [block]) := by
  intro other hmem
  rcases List.mem_append.1 hmem with hmem | hmem
  · exact h other hmem
  · rwa [List.mem_singleton.1 hmem]

theorem blocks_append_singleton {block : Bytes} :
    Blocks size (blocks ++ [block]) ↔ Blocks size blocks ∧ block.length = size := by
  refine ⟨fun h => ⟨fun other hmem => h other (List.mem_append_left _ hmem),
    h block (List.mem_append_right _ List.mem_cons_self)⟩, fun ⟨h, hblock⟩ =>
      h.append_singleton hblock⟩

theorem Blocks.length_flatten (h : Blocks size blocks) :
    blocks.flatten.length = blocks.length * size := by
  induction blocks with
  | nil => exact (Nat.zero_mul size).symm
  | cons block blocks ih =>
    rw [List.flatten_cons, List.length_append, h block List.mem_cons_self,
      ih fun other hmem => h other (List.mem_cons_of_mem _ hmem), List.length_cons, Nat.succ_mul,
      Nat.add_comm]

/-- What is shorter than a block is left when the whole blocks are taken off. -/
theorem exists_blocks (hpos : 0 < size) (s : Bytes) :
    ∃ blocks rest, s = blocks.flatten ++ rest ∧ Blocks size blocks ∧ rest.length < size := by
  induction h : s.length using Nat.strong_induction_on generalizing s with
  | _ n ih =>
    by_cases hlt : s.length < size
    · exact ⟨[], s, rfl, nofun, hlt⟩
    · have hdrop : (s.drop size).length < n := by rw [List.length_drop]; omega
      obtain ⟨blocks, rest, hs, hblocks, hrest⟩ := ih _ hdrop (s.drop size) rfl
      refine ⟨s.take size :: blocks, rest, ?_, ?_, hrest⟩
      · rw [List.flatten_cons, List.append_assoc, ← hs, List.take_append_drop]
      · intro block hmem
        rcases List.mem_cons.1 hmem with rfl | hmem
        · exact List.length_take_of_le (Nat.le_of_not_lt hlt)
        · exact hblocks block hmem

/-- A text with something in it ends in a last block, whole or not. -/
theorem exists_last_block (hpos : 0 < size) (hs : s ≠ []) :
    ∃ blocks last, s = blocks.flatten ++ last ∧ Blocks size blocks ∧ last ≠ [] ∧
      last.length ≤ size := by
  obtain ⟨blocks, rest, rfl, hblocks, hrest⟩ := exists_blocks hpos s
  by_cases hne : rest = []
  · subst hne
    cases blocks using List.reverseRecOn with
    | nil => exact absurd rfl hs
    | append_singleton blocks last =>
      obtain ⟨hblocks, hlast⟩ := blocks_append_singleton.1 hblocks
      refine ⟨blocks, last, ?_, hblocks, ?_, Nat.le_of_eq hlast⟩
      · rw [List.flatten_append, List.flatten_singleton, List.append_nil]
      · exact List.ne_nil_of_length_pos (hpos.trans_eq hlast.symm)
  · exact ⟨blocks, rest, rfl, hblocks, hne, Nat.le_of_lt hrest⟩

theorem chunksAfter_append (done more : List Bytes) (s : Bytes) :
    chunksAfter size (more ++ done) s = done.reverse ++ chunksAfter size more s := by
  fun_induction chunksAfter size more s with
  | case1 more => rw [chunksAfter, List.reverse_append]
  | case2 more b rest ih => rw [← ih, List.cons_append, chunksAfter]

theorem flatten_chunksAfter (done : List Bytes) (s : Bytes) :
    (chunksAfter size done s).flatten = done.reverse.flatten ++ s := by
  fun_induction chunksAfter size done s with
  | case1 done => rw [List.append_nil]
  | case2 done b rest ih =>
    rw [ih, List.reverse_cons, List.flatten_append, List.flatten_singleton, List.append_assoc,
      List.cons_append, List.take_append_drop]

/-- Nothing is lost when a text is cut. -/
theorem flatten_chunks (size : Nat) (s : Bytes) : (chunks size s).flatten = s :=
  flatten_chunksAfter [] s

theorem chunks_nil (size : Nat) : chunks size [] = [] := by
  rw [chunks, chunksAfter, List.reverse_nil]

theorem chunks_block_append {block : Bytes} (hpos : 0 < size) (hblock : block.length = size)
    (rest : Bytes) : chunks size (block ++ rest) = block :: chunks size rest := by
  cases block with
  | nil => exact absurd hblock (Nat.ne_of_lt hpos)
  | cons b others =>
    have hlength : others.length = size - 1 := by rw [← hblock, List.length_cons]; rfl
    rw [chunks, List.cons_append, chunksAfter, List.take_left' hlength, List.drop_left' hlength]
    exact chunksAfter_append [b :: others] [] rest

theorem chunks_of_le {last : Bytes} (hne : last ≠ []) (hle : last.length ≤ size) :
    chunks size last = [last] := by
  cases last with
  | nil => exact absurd rfl hne
  | cons b others =>
    have hothers : others.length ≤ size - 1 := Nat.le_sub_one_of_lt hle
    rw [chunks, chunksAfter, List.take_of_length_le hothers, List.drop_of_length_le hothers,
      chunksAfter, List.reverse_singleton]

theorem chunks_flatten_append (hpos : 0 < size) (h : Blocks size blocks) (rest : Bytes) :
    chunks size (blocks.flatten ++ rest) = blocks ++ chunks size rest := by
  induction blocks with
  | nil => rfl
  | cons block blocks ih =>
    rw [List.flatten_cons, List.append_assoc, chunks_block_append hpos (h block List.mem_cons_self),
      ih fun other hmem => h other (List.mem_cons_of_mem _ hmem), List.cons_append]

/-- The chunks that are whole are all of the text but what is left over. -/
theorem flatten_whole_chunks (hpos : 0 < size) (s : Bytes) :
    ((chunks size s).filter fun chunk => chunk.length = size).flatten =
      s.take (size * (s.length / size)) := by
  obtain ⟨blocks, rest, rfl, hblocks, hrest⟩ := exists_blocks hpos s
  have hcount : (blocks.flatten ++ rest).length / size = blocks.length := by
    rw [List.length_append, hblocks.length_flatten, Nat.mul_comm, Nat.mul_add_div hpos,
      Nat.div_eq_of_lt hrest, Nat.add_zero]
  have hwhole : blocks.filter (fun chunk => decide (chunk.length = size)) = blocks :=
    List.filter_eq_self.2 fun block hmem => decide_eq_true (hblocks block hmem)
  have hshort : (chunks size rest).filter (fun chunk => decide (chunk.length = size)) = [] := by
    by_cases hne : rest = []
    · rw [hne, chunks_nil, List.filter_nil]
    · rw [chunks_of_le hne (Nat.le_of_lt hrest),
        List.filter_cons_of_neg (by simp [Nat.ne_of_lt hrest]), List.filter_nil]
  rw [hcount, chunks_flatten_append hpos hblocks, List.filter_append, hwhole, hshort,
    List.append_nil, List.take_left' (hblocks.length_flatten.trans (Nat.mul_comm _ _))]

/-! ## Padding and masks -/

theorem length_pad (h : rest.length < size) : (pad size rest).length = size := by
  rw [pad, List.length_append, List.length_replicate, Nat.mod_eq_of_lt h]
  omega

/-- Only the rest of a text is padded. -/
theorem pad_flatten_append (h : Blocks size blocks) (rest : Bytes) :
    pad size (blocks.flatten ++ rest) = blocks.flatten ++ pad size rest := by
  rw [pad, List.length_append, h.length_flatten, Nat.mul_add_mod_self_right, List.append_assoc,
    ← pad]

theorem unpad?_pad (h : rest.length < size) (hsize : size < 256) :
    unpad? size (pad size rest) = some rest := by
  obtain ⟨count, hcount⟩ : ∃ count, size - rest.length = count + 1 :=
    ⟨size - rest.length - 1, by omega⟩
  have hbyte : (UInt8.ofNat (count + 1)).toNat = count + 1 :=
    Nat.mod_eq_of_lt (by omega)
  have hpad : pad size rest = rest ++ List.replicate (count + 1) (UInt8.ofNat (count + 1)) := by
    rw [pad, Nat.mod_eq_of_lt h, hcount]
  have hlast : (pad size rest).getLast? = some (UInt8.ofNat (count + 1)) := by
    rw [hpad, List.replicate_succ', ← List.append_assoc, List.getLast?_concat]
  have hlength : (pad size rest).length - (count + 1) = rest.length := by
    rw [length_pad h]
    omega
  rw [unpad?, hlast]
  dsimp only
  rw [hbyte, hlength, hpad, List.drop_left, List.take_left, if_pos]
  exact ⟨Nat.succ_pos count, by omega, rfl⟩

theorem length_xor {s t : Bytes} (h : s.length = t.length) : (xor s t).length = s.length := by
  rw [xor, List.length_zipWith, h, Nat.min_self]

/-- A mask that is put on twice is off again. -/
theorem xor_xor {s t : Bytes} (h : s.length = t.length) : xor (xor s t) t = s := by
  induction s generalizing t with
  | nil => rfl
  | cons a s ih =>
    cases t with
    | nil => cases h
    | cons b t =>
      have hfirst : a ^^^ b ^^^ b = a := by rw [UInt8.xor_assoc, UInt8.xor_self, UInt8.xor_zero]
      have hrest : List.zipWith (· ^^^ ·) (List.zipWith (· ^^^ ·) s t) t = s := ih (Nat.succ.inj h)
      rw [xor, xor, List.zipWith_cons_cons, List.zipWith_cons_cons, hfirst, hrest]

end Bytes

namespace BlockCipher

open Bytes

variable {c : BlockCipher} {size : Nat} {iv text rest : Bytes} {blocks : List Bytes}

/-! ## Chaining -/

/-- The fold keeps the mask of the next block beside the blocks that are done. -/
theorem chain_fold (c : BlockCipher) (iv : Bytes) (blocks : List Bytes) :
    blocks.foldl (fun (mask, done) block =>
      let out := c.encrypt (xor block mask)
      (out, out :: done)) (iv, []) =
    ((c.chain iv blocks).getLast?.getD iv, (c.chain iv blocks).reverse) := by
  rw [chain, List.reverse_reverse, List.getLast?_reverse]
  induction blocks using List.reverseRecOn with
  | nil => rfl
  | append_singleton blocks block _ => rw [List.foldl_append]; rfl

theorem unchain_fold (c : BlockCipher) (iv : Bytes) (blocks : List Bytes) :
    blocks.foldl (fun (mask, done) block => (block, xor (c.decrypt block) mask :: done)) (iv, []) =
    (blocks.getLast?.getD iv, (c.unchain iv blocks).reverse) := by
  rw [unchain, List.reverse_reverse]
  induction blocks using List.reverseRecOn with
  | nil => rfl
  | append_singleton blocks block _ => rw [List.foldl_append, List.getLast?_concat]; rfl

theorem chain_append_singleton (c : BlockCipher) (iv : Bytes) (blocks : List Bytes)
    (block : Bytes) : c.chain iv (blocks ++ [block]) = c.chain iv blocks ++
      [c.encrypt (xor block ((c.chain iv blocks).getLast?.getD iv))] := by
  rw [chain, List.foldl_append, chain_fold, List.foldl_cons, List.foldl_nil, List.reverse_cons,
    List.reverse_reverse]

theorem unchain_append_singleton (c : BlockCipher) (iv : Bytes) (blocks : List Bytes)
    (block : Bytes) : c.unchain iv (blocks ++ [block]) = c.unchain iv blocks ++
      [xor (c.decrypt block) (blocks.getLast?.getD iv)] := by
  rw [unchain, List.foldl_append, unchain_fold, List.foldl_cons, List.foldl_nil,
    List.reverse_cons, List.reverse_reverse]

/-- A mask is as long as a block, be it a block before or the initialization vector. -/
theorem length_mask (h : Blocks size blocks) (hiv : iv.length = size) :
    (blocks.getLast?.getD iv).length = size := by
  cases blocks using List.reverseRecOn with
  | nil => exact hiv
  | append_singleton blocks block =>
    rw [List.getLast?_concat, Option.getD_some]
    exact (blocks_append_singleton.1 h).2

/-- Blocks are encrypted into blocks, and their decryption undoes that. -/
structure Inverts (c : BlockCipher) (size : Nat) : Prop where
  length_encrypt : ∀ {block : Bytes}, block.length = size → (c.encrypt block).length = size
  decrypt_encrypt : ∀ {block : Bytes}, block.length = size → c.decrypt (c.encrypt block) = block

namespace Inverts

variable (H : c.Inverts size)

include H

theorem blocks_chain (hiv : iv.length = size) (h : Blocks size blocks) :
    Blocks size (c.chain iv blocks) := by
  induction blocks using List.reverseRecOn with
  | nil => exact nofun
  | append_singleton blocks block ih =>
    obtain ⟨h, hblock⟩ := blocks_append_singleton.1 h
    have hmask := length_mask (ih h) hiv
    rw [chain_append_singleton]
    refine (ih h).append_singleton (H.length_encrypt ?_)
    rw [length_xor (hblock.trans hmask.symm), hblock]

theorem unchain_chain (hiv : iv.length = size) (h : Blocks size blocks) :
    c.unchain iv (c.chain iv blocks) = blocks := by
  induction blocks using List.reverseRecOn with
  | nil => rfl
  | append_singleton blocks block ih =>
    obtain ⟨h, hblock⟩ := blocks_append_singleton.1 h
    have hmask : block.length = ((c.chain iv blocks).getLast?.getD iv).length :=
      hblock.trans (length_mask (H.blocks_chain hiv h) hiv).symm
    have hmasked := (length_xor hmask).trans hblock
    rw [chain_append_singleton, unchain_append_singleton, ih h, H.decrypt_encrypt hmasked,
      xor_xor hmask]

end Inverts

theorem length_chain (c : BlockCipher) (iv : Bytes) (blocks : List Bytes) :
    (c.chain iv blocks).length = blocks.length := by
  induction blocks using List.reverseRecOn with
  | nil => rfl
  | append_singleton blocks block ih =>
    rw [chain_append_singleton, List.length_append, List.length_append, ih]
    rfl

/-! ## Whole texts -/

/-- Body and tail of a ciphertext are the chained blocks of the text, with the rest padded. -/
theorem encipher_eq (hpos : 0 < size) (h : Blocks size blocks) (hrest : rest.length < size) :
    c.encipher size iv (blocks.flatten ++ rest) = ((c.chain iv blocks).flatten,
      c.encrypt (xor (pad size rest) ((c.chain iv blocks).getLast?.getD iv))) := by
  have hchunks : chunks size (pad size (blocks.flatten ++ rest)) = blocks ++ [pad size rest] := by
    have hlength := length_pad hrest
    rw [pad_flatten_append h, chunks_flatten_append hpos h,
      chunks_of_le (List.ne_nil_of_length_pos (hpos.trans_eq hlength.symm)) (Nat.le_of_eq hlength)]
  rw [encipher, hchunks, chain_append_singleton, List.dropLast_concat, List.getLast?_concat,
    Option.getD_some]

/-- Body and tail of a plaintext are the unchained blocks, the last one without its padding. -/
theorem decipher_eq (hpos : 0 < size) (h : Blocks size blocks) {last : Bytes} (hne : last ≠ [])
    (hlast : last.length ≤ size) :
    c.decipher size iv (blocks.flatten ++ last) = ((c.unchain iv blocks).flatten,
      if last.length = size then unpad? size (xor (c.decrypt last) (blocks.getLast?.getD iv))
      else none) := by
  have hmod : (blocks.flatten ++ last).length % size = 0 ↔ last.length = size := by
    rw [List.length_append, h.length_flatten, Nat.mul_add_mod_self_right]
    have := List.length_pos_iff.2 hne
    rcases Nat.lt_or_eq_of_le hlast with hlt | heq
    · rw [Nat.mod_eq_of_lt hlt]
      omega
    · rw [heq, Nat.mod_self]
      exact ⟨fun _ => rfl, fun _ => rfl⟩
  rw [decipher, chunks_flatten_append hpos h, chunks_of_le hne hlast,
    unchain_append_singleton, List.dropLast_concat, List.getLast?_concat, Option.bind_some]
  simp only [hmod]

/-- The ciphertext of a text takes up as many blocks as are needed for at least one byte more. -/
theorem Inverts.isLeast_length (H : c.Inverts size) (hpos : 0 < size) (hiv : iv.length = size)
    (text : Bytes) : IsLeast {n | size ∣ n ∧ text.length < n}
      ((c.encipher size iv text).1 ++ (c.encipher size iv text).2).length := by
  obtain ⟨blocks, rest, rfl, hblocks, hrest⟩ := exists_blocks hpos text
  have hchain := H.blocks_chain hiv hblocks
  have hmask := (length_pad hrest).trans (length_mask hchain hiv).symm
  have hlength : ((c.encipher size iv (blocks.flatten ++ rest)).1 ++
      (c.encipher size iv (blocks.flatten ++ rest)).2).length = (blocks.length + 1) * size := by
    rw [encipher_eq hpos hblocks hrest, List.length_append, hchain.length_flatten, length_chain,
      H.length_encrypt ((length_xor hmask).trans (length_pad hrest)), Nat.succ_mul]
  rw [hlength]
  refine ⟨⟨Nat.dvd_mul_left size _, ?_⟩, ?_⟩
  · rw [List.length_append, hblocks.length_flatten, Nat.succ_mul]
    exact Nat.add_lt_add_left hrest _
  · rintro n ⟨⟨count, rfl⟩, hlt⟩
    rw [List.length_append, hblocks.length_flatten] at hlt
    have hmore : blocks.length * size < count * size := by
      rw [Nat.mul_comm count]
      exact Nat.lt_of_le_of_lt (Nat.le_add_right _ _) hlt
    rw [Nat.mul_comm size]
    exact Nat.mul_le_mul_right size (Nat.lt_of_mul_lt_mul_right hmore)

/-- What is deciphered of the ciphertext of a text is the text. -/
theorem Inverts.decipher_encipher (H : c.Inverts size) (hpos : 0 < size) (hsize : size < 256)
    (hiv : iv.length = size) (text : Bytes) :
    ∃ body tail, c.decipher size iv ((c.encipher size iv text).1 ++ (c.encipher size iv text).2) =
      (body, some tail) ∧ body ++ tail = text := by
  obtain ⟨blocks, rest, rfl, hblocks, hrest⟩ := exists_blocks hpos text
  have hchain := H.blocks_chain hiv hblocks
  have hmask := (length_pad hrest).trans (length_mask hchain hiv).symm
  have hmasked := (length_xor hmask).trans (length_pad hrest)
  have hlast := H.length_encrypt hmasked
  rw [encipher_eq hpos hblocks hrest]
  dsimp only
  rw [decipher_eq hpos hchain (List.ne_nil_of_length_pos (hpos.trans_eq hlast.symm))
    (Nat.le_of_eq hlast), if_pos hlast, H.unchain_chain hiv hblocks, H.decrypt_encrypt hmasked,
    xor_xor hmask, unpad?_pad hrest hsize]
  exact ⟨_, _, rfl, rfl⟩

end BlockCipher

end Gntp
