import Gntp.Proofs.Chaining
import Gntp.Proofs.Words

/-!
# DES taken back

A round exchanges two halves and adds to one of them what the other one decides, so that the same
rounds with the keys in reverse lead back (`rounds_reverse`), whatever the round function is. The
permutations at both ends undo one another (`initial_final`), and so one pass is taken back
(`crypt_reverse`), and three of them.
-/

namespace Gntp.Cipher

namespace Des

open Bytes Words

/-! ## Permutations of bits -/

/-- A bit that is put at the end meets none that is there. -/
theorem shiftLeft_or_bit (u b : UInt64) :
    (u <<< 1 ||| (b &&& 1) : UInt64) = u <<< 1 ^^^ (b &&& 1) := by
  refine UInt64.toBitVec_inj.1 (BitVec.eq_of_getLsbD_eq fun i hi => ?_)
  cases i <;> simp

theorem select_append_singleton (width : Nat) (positions : List Nat) (p : Nat) (x : UInt64) :
    select width (positions ++ [p]) x =
      select width positions x <<< 1 ^^^ (x >>> UInt64.ofNat (width - p) &&& 1) := by
  rw [← shiftLeft_or_bit, select, List.foldl_append, List.foldl_cons, List.foldl_nil, ← select]

theorem select_xor (width : Nat) (positions : List Nat) (x y : UInt64) :
    select width positions (x ^^^ y) = select width positions x ^^^ select width positions y := by
  induction positions using List.reverseRecOn with
  | nil => exact (UInt64.xor_self).symm
  | append_singleton positions p ih =>
    rw [select_append_singleton, select_append_singleton, select_append_singleton, ih,
      UInt64.shiftLeft_xor, UInt64.shiftRight_xor, xor_and64]
    ac_rfl

/-- The permutation at the end undoes the one at the beginning. -/
theorem final_initial (x : UInt64) :
    select 64 finalPermutation (select 64 initialPermutation x) = x := by
  refine eq_self_of_bits64
    (f := fun x => select 64 finalPermutation (select 64 initialPermutation x))
    (fun x y => by simp only [select_xor]) ?_ x
  decide +kernel

theorem initial_final (x : UInt64) :
    select 64 initialPermutation (select 64 finalPermutation x) = x := by
  refine eq_self_of_bits64
    (f := fun x => select 64 initialPermutation (select 64 finalPermutation x))
    (fun x y => by simp only [select_xor]) ?_ x
  decide +kernel

/-! ## Rounds -/

/-- The halves change places, and the one is masked by what the other one and the key decide. -/
def round (halves : UInt32 × UInt32) (key : UInt64) : UInt32 × UInt32 :=
  (halves.2, halves.1 ^^^ feistel halves.2 key)

theorem round_swap_round (halves : UInt32 × UInt32) (key : UInt64) :
    round (round halves key).swap key = halves.swap := by
  obtain ⟨left, right⟩ := halves
  simp only [round, Prod.swap_prod_mk, UInt32.xor_assoc, UInt32.xor_self, UInt32.xor_zero]

theorem rounds_reverse (keys : List UInt64) (halves : UInt32 × UInt32) :
    keys.reverse.foldl round (keys.foldl round halves).swap = halves.swap := by
  induction keys generalizing halves with
  | nil => rfl
  | cons key keys ih =>
    rw [List.foldl_cons, List.reverse_cons, List.foldl_append, ih, List.foldl_cons, List.foldl_nil,
      round_swap_round]

theorem crypt_eq (keys : List UInt64) (block : UInt64) : crypt keys block =
    select 64 finalPermutation
      (whole (keys.foldl round (halves (select 64 initialPermutation block))).swap) := rfl

theorem crypt_reverse (keys : List UInt64) (block : UInt64) :
    crypt keys.reverse (crypt keys block) = block := by
  rw [crypt_eq, crypt_eq, initial_final, halves_whole, rounds_reverse, Prod.swap_swap,
    whole_halves, final_initial]

/-! ## Passes -/

/-- The passes that take back these passes. -/
def inversePasses (passes : List (List UInt64)) : List (List UInt64) :=
  passes.reverse.map List.reverse

theorem inversePasses_passes (passes : List (List UInt64)) (x : UInt64) :
    (inversePasses passes).foldl (fun x keys => crypt keys x)
      (passes.foldl (fun x keys => crypt keys x) x) = x := by
  induction passes generalizing x with
  | nil => rfl
  | cons keys passes ih =>
    rw [inversePasses] at ih ⊢
    rw [List.foldl_cons, List.reverse_cons, List.map_append, List.foldl_append, ih,
      List.map_singleton, List.foldl_cons, List.foldl_nil, crypt_reverse]

theorem inverts_passes (passes : List (List UInt64)) :
    BlockCipher.Inverts ⟨cryptBlock passes, cryptBlock (inversePasses passes)⟩ 8 where
  length_encrypt _ := length_bytes64 _
  decrypt_encrypt h := by
    dsimp only
    rw [cryptBlock, cryptBlock, word64_bytes64, inversePasses_passes, bytes64_word64 h]

end Des

theorem inverts_des (key : Bytes) : (des.keyed key).Inverts des.blockSize :=
  Des.inverts_passes [Des.roundKeys key]

theorem inverts_tripleDes (key : Bytes) : (tripleDes.keyed key).Inverts tripleDes.blockSize := by
  have hinverts := Des.inverts_passes [Des.roundKeys (key.take 8),
    (Des.roundKeys ((key.drop 8).take 8)).reverse, Des.roundKeys ((key.drop 16).take 8)]
  rwa [Des.inversePasses, List.reverse_cons, List.reverse_cons, List.reverse_singleton,
    List.singleton_append, List.cons_append, List.singleton_append, List.map_cons, List.map_cons,
    List.map_singleton, List.reverse_reverse] at hinverts

end Gntp.Cipher
