import Gntp.Proofs.Chaining
import Gntp.Proofs.Words
import Mathlib.Data.Fintype.EquivFin

/-!
# AES taken back

Every step of a round has its inverse: the substitution by table, the turned rows because they are
turned back, and the mixing of a column because its fourth power is the identity, which it is on
every single bit (`unmixColumn_mixColumn`). Decryption takes the steps back in reverse
(`rounds_reverse`).
-/

namespace Gntp.Cipher

namespace Aes

open Bytes Words

/-! ## Columns -/

theorem double_xor (a b : UInt32) : double (a ^^^ b) = double a ^^^ double b := by
  simp only [double, UInt32.shiftRight_xor, UInt32.shiftLeft_xor, xor_and32]
  ac_rfl

/-- The bits that leave a word at one end come back where there are none. -/
theorem rotateLeft32_eq_xor (w : UInt32) {n : UInt32} (hn : n ∈ ([8, 16, 24] : List UInt32)) :
    rotateLeft32 w n = w <<< n ^^^ w >>> (32 - n) := by
  refine UInt32.toBitVec_inj.1 (BitVec.eq_of_getLsbD_eq fun i hi => ?_)
  simp only [List.mem_cons, List.not_mem_nil, or_false] at hn
  have hout {k : Nat} (hk : 32 ≤ k) : w.toBitVec.getLsbD k = false :=
    BitVec.getLsbD_of_ge w.toBitVec k hk
  rcases hn with rfl | rfl | rfl
  · by_cases h : i < 8
    · simp [rotateLeft32, h]
    · simp [rotateLeft32, h, hout (Nat.add_le_add_left (Nat.le_of_not_lt h) 24)]
  · by_cases h : i < 16
    · simp [rotateLeft32, h]
    · simp [rotateLeft32, h, hout (Nat.add_le_add_left (Nat.le_of_not_lt h) 16)]
  · by_cases h : i < 24
    · simp [rotateLeft32, h]
    · simp [rotateLeft32, h, hout (Nat.add_le_add_left (Nat.le_of_not_lt h) 8)]

theorem rotateLeft32_xor (a b : UInt32) {n : UInt32} (hn : n ∈ ([8, 16, 24] : List UInt32)) :
    rotateLeft32 (a ^^^ b) n = rotateLeft32 a n ^^^ rotateLeft32 b n := by
  rw [rotateLeft32_eq_xor _ hn, rotateLeft32_eq_xor _ hn, rotateLeft32_eq_xor _ hn,
    UInt32.shiftLeft_xor, UInt32.shiftRight_xor]
  ac_rfl

theorem mixColumn_xor (a b : UInt32) : mixColumn (a ^^^ b) = mixColumn a ^^^ mixColumn b := by
  have h8 (a b : UInt32) := rotateLeft32_xor a b (n := 8) (by decide)
  have h16 (a b : UInt32) := rotateLeft32_xor a b (n := 16) (by decide)
  have h24 (a b : UInt32) := rotateLeft32_xor a b (n := 24) (by decide)
  simp only [mixColumn, double_xor, h8, h16, h24]
  ac_rfl

theorem unmixColumn_mixColumn (w : UInt32) : unmixColumn (mixColumn w) = w := by
  refine eq_self_of_bits32 (f := fun w => unmixColumn (mixColumn w)) (fun a b => ?_) ?_ w
  · simp only [unmixColumn, mixColumn_xor]
  · decide +kernel

/-! ## Bytes -/

theorem sbox_getD {n : Nat} (hn : n < 256) : sbox.getD n 0 = substitute n := by
  rw [sbox, Array.getD_eq_getD_getElem?, List.getElem?_toArray, List.getElem?_map,
    List.getElem?_range hn, Option.map_some, Option.getD_some]

/-- A set of numbers as the bits of a number. -/
theorem exists_of_testBit {f : Nat → Nat} {l : List Nat} {b : Nat}
    (h : (l.foldl (fun found n => found ||| 1 <<< f n) 0).testBit b = true) :
    ∃ n ∈ l, f n = b := by
  induction l using List.reverseRecOn with
  | nil => rw [List.foldl_nil, Nat.zero_testBit] at h; cases h
  | append_singleton l n ih =>
    rw [List.foldl_append, List.foldl_cons, List.foldl_nil, Nat.testBit_or, Bool.or_eq_true,
      Nat.one_shiftLeft, Nat.testBit_two_pow, decide_eq_true_iff] at h
    rcases h with h | h
    · obtain ⟨m, hm, hb⟩ := ih h
      exact ⟨m, List.mem_append_left _ hm, hb⟩
    · exact ⟨n, List.mem_append_right _ List.mem_cons_self, h⟩

/-- Every byte is the substitute of one, so that no two have the same. -/
theorem substitute_injective {m n : Nat} (hm : m < 256) (hn : n < 256)
    (h : substitute m = substitute n) : m = n := by
  let f (n : Fin 256) : Fin 256 := ⟨(substitute n).toNat, (substitute n).toNat_lt⟩
  have hall : (List.range 256).foldl (fun found n => found ||| 1 <<< (substitute n).toNat) 0 =
      2 ^ 256 - 1 := by
    decide +kernel
  have hsurjective : Function.Surjective f := by
    intro b
    have hb : (2 ^ 256 - 1).testBit b.1 = true := by
      rw [Nat.testBit_two_pow_sub_one]
      exact decide_eq_true b.2
    rw [← hall] at hb
    obtain ⟨n, hn, heq⟩ := exists_of_testBit hb
    exact ⟨⟨n, List.mem_range.1 hn⟩, Fin.ext heq⟩
  have hinjective := Finite.injective_iff_surjective.2 hsurjective
  have hf : f ⟨m, hm⟩ = f ⟨n, hn⟩ := Fin.ext (congrArg UInt8.toNat h)
  exact congrArg Fin.val (hinjective hf)

/-- Puts values at their keys. -/
def enter (key : Nat → Nat) (value : Nat → UInt8) (table : Array UInt8) (l : List Nat) :
    Array UInt8 :=
  l.foldl (fun table n => table.setIfInBounds (key n) (value n)) table

variable {key : Nat → Nat} {value : Nat → UInt8} {table : Array UInt8} {l : List Nat}

theorem enter_append_singleton (last : Nat) : enter key value table (l ++ [last]) =
    (enter key value table l).setIfInBounds (key last) (value last) := by
  rw [enter, List.foldl_append, List.foldl_cons, List.foldl_nil, ← enter]

theorem size_enter : (enter key value table l).size = table.size := by
  induction l using List.reverseRecOn with
  | nil => rfl
  | append_singleton l last ih => rw [enter_append_singleton, Array.size_setIfInBounds, ih]

/-- Values whose keys are all different are found at their keys. -/
theorem getElem?_enter (hkey : ∀ m ∈ l, ∀ n ∈ l, key m = key n → m = n)
    (hsize : ∀ n ∈ l, key n < table.size) {n : Nat} (hn : n ∈ l) :
    (enter key value table l)[key n]? = some (value n) := by
  induction l using List.reverseRecOn with
  | nil => cases hn
  | append_singleton l last ih =>
    have hlast : last ∈ l ++ [last] := List.mem_append_right _ List.mem_cons_self
    rw [enter_append_singleton, Array.getElem?_setIfInBounds, size_enter]
    by_cases heq : key last = key n
    · rw [if_pos heq, if_pos (hsize last hlast), hkey last hlast n hn heq]
    · have hbefore : n ∈ l := by
        rcases List.mem_append.1 hn with hn | hn
        · exact hn
        · exact absurd (congrArg key (List.mem_singleton.1 hn)).symm heq
      rw [if_neg heq]
      exact ih (fun m hm n hn => hkey m (List.mem_append_left _ hm) n (List.mem_append_left _ hn))
        (fun n hn => hsize n (List.mem_append_left _ hn)) hbefore

/-- The table of the inverse has the bytes at their substitutes. -/
theorem inverseSbox_sbox (b : UInt8) :
    inverseSbox.getD (sbox.getD b.toNat 0).toNat 0 = b := by
  let substituted (n : Nat) : Nat := (sbox.getD n 0).toNat
  have hkey : ∀ m ∈ List.range 256, ∀ n ∈ List.range 256, substituted m = substituted n →
      m = n := by
    intro m hm n hn heq
    have hm := List.mem_range.1 hm
    have hn := List.mem_range.1 hn
    have hsame := UInt8.toNat_inj.1 heq
    rw [sbox_getD hm, sbox_getD hn] at hsame
    exact substitute_injective hm hn hsame
  have hsize : ∀ n ∈ List.range 256, substituted n < (Array.replicate 256 (0 : UInt8)).size := by
    intro n _
    rw [Array.size_replicate]
    exact UInt8.toNat_lt _
  have hinverse : inverseSbox =
      enter substituted UInt8.ofNat (Array.replicate 256 0) (List.range 256) := rfl
  have hentry : inverseSbox[substituted b.toNat]? = some (UInt8.ofNat b.toNat) := by
    rw [hinverse]
    exact getElem?_enter hkey hsize (List.mem_range.2 b.toNat_lt)
  rw [Array.getD_eq_getD_getElem?, hentry, Option.getD_some, UInt8.ofNat_toNat]

theorem gather_eq (table : Array UInt8) (w x y z : UInt32) : gather table w x y z = word32 [
    table.getD (w >>> 24).toUInt8.toNat 0, table.getD (x >>> 16).toUInt8.toNat 0,
    table.getD (y >>> 8).toUInt8.toNat 0, table.getD z.toUInt8.toNat 0] := by
  have h16 (v : UInt32) : v <<< 8 <<< 8 = v <<< 16 :=
    (UInt32.shiftLeft_add (by decide) (by decide) (by decide)).symm
  have h24 (v : UInt32) : v <<< 16 <<< 8 = v <<< 24 :=
    (UInt32.shiftLeft_add (by decide) (by decide) (by decide)).symm
  simp only [gather, word32, List.foldl_cons, List.foldl_nil, UInt32.shiftLeft_or, h16, h24,
    UInt32.zero_shiftLeft, UInt32.zero_or]


theorem bytes32_gather (table : Array UInt8) (w x y z : UInt32) :
    bytes32 (gather table w x y z) = [
      table.getD (w >>> 24).toUInt8.toNat 0, table.getD (x >>> 16).toUInt8.toNat 0,
      table.getD (y >>> 8).toUInt8.toNat 0, table.getD z.toUInt8.toNat 0] := by
  rw [gather_eq, bytes32_word32 rfl]

/-- A word whose bytes have gone into four words is gathered from these. -/
theorem gather_gather (w a b c d e f g h i j k l : UInt32) :
    gather inverseSbox (gather sbox w a b c) (gather sbox d w e f) (gather sbox g h w i)
      (gather sbox j k l w) = w := by
  obtain ⟨h0, -⟩ := List.cons.inj (bytes32_gather sbox w a b c)
  obtain ⟨-, h1⟩ := List.cons.inj (bytes32_gather sbox d w e f)
  obtain ⟨-, h2⟩ := List.cons.inj (List.cons.inj (bytes32_gather sbox g h w i)).2
  obtain ⟨-, h3⟩ := List.cons.inj (List.cons.inj (List.cons.inj (bytes32_gather sbox j k l w)).2).2
  rw [gather_eq, h0, (List.cons.inj h1).1, (List.cons.inj h2).1, (List.cons.inj h3).1,
    inverseSbox_sbox, inverseSbox_sbox, inverseSbox_sbox, inverseSbox_sbox]
  exact word32_bytes32 w

/-! ## Rounds -/

namespace State

theorem unshift_shift (s : State) : s.shift.unshift = s := by
  simp only [shift, unshift, gather_gather]

theorem map_unmixColumn_map_mixColumn (s : State) : (s.map mixColumn).map unmixColumn = s := by
  simp only [map, unmixColumn_mixColumn]

theorem addKey_addKey (keys : Array UInt32) (s : State) (round : Nat) :
    (s.addKey keys round).addKey keys round = s := by
  simp only [addKey, UInt32.xor_assoc, UInt32.xor_self, UInt32.xor_zero]

theorem ofBytes_toBytes (s : State) : ofBytes s.toBytes = s := by
  have hwords : ofBytes s.toBytes = ⟨word32 (bytes32 s.c0), word32 (bytes32 s.c1),
    word32 (bytes32 s.c2), word32 (bytes32 s.c3)⟩ := rfl
  simp only [hwords, word32_bytes32]

theorem toBytes_ofBytes {block : Bytes} (h : block.length = 16) :
    (ofBytes block).toBytes = block := by
  have hword : ∀ n ≤ 12, ((block.drop n).take 4).length = 4 := fun n hn => by
    rw [List.length_take_of_le]
    rw [List.length_drop]
    omega
  have hfirst : (block.take 4).length = 4 := hword 0 (by decide)
  have hrest (n : Nat) : (block.drop n).take 4 ++ block.drop (n + 4) = block.drop n := by
    rw [← List.drop_drop, List.take_append_drop]
  have hlast : (block.drop 12).take 4 = block.drop 12 :=
    List.take_of_length_le (by rw [List.length_drop]; omega)
  rw [toBytes, ofBytes]
  dsimp only
  rw [bytes32_word32 hfirst, bytes32_word32 (hword 4 (by decide)),
    bytes32_word32 (hword 8 (by decide)), bytes32_word32 (hword 12 (by decide)), hlast,
    List.append_assoc, List.append_assoc, hrest 8, hrest 4, List.take_append_drop]

end State

/-- The rounds that lead back lead back from where the rounds lead. -/
theorem rounds_reverse (keys : Array UInt32) (rounds : List Nat) (s : State) :
    rounds.reverse.foldl (fun s round => ((s.addKey keys round).map unmixColumn).unshift)
      (rounds.foldl (fun s round => (s.shift.map mixColumn).addKey keys round) s) = s := by
  induction rounds generalizing s with
  | nil => rfl
  | cons round rounds ih =>
    rw [List.foldl_cons, List.reverse_cons, List.foldl_append, ih, List.foldl_cons, List.foldl_nil,
      State.addKey_addKey, State.map_unmixColumn_map_mixColumn, State.unshift_shift]

theorem decryptBlock_encryptBlock (keys : Array UInt32) {block : Bytes} (h : block.length = 16) :
    decryptBlock keys (encryptBlock keys block) = block := by
  rw [decryptBlock, encryptBlock, State.ofBytes_toBytes, State.addKey_addKey, State.unshift_shift,
    rounds_reverse, State.addKey_addKey, State.toBytes_ofBytes h]

end Aes

theorem inverts_aes (key : Bytes) : (aes.keyed key).Inverts aes.blockSize where
  length_encrypt _ := rfl
  decrypt_encrypt h := Aes.decryptBlock_encryptBlock _ h

end Gntp.Cipher
