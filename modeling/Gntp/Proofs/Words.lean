import Gntp.Words
import Mathlib.Data.List.Induction
import Mathlib.Tactic.Ring

/-!
# Words and their bytes

A word has the bytes that it is made of, and is made of the bytes that it has. A map of words that
respects the exclusive or is the identity if it leaves every single bit in its place
(`eq_self_of_bits`).
-/

namespace Gntp.Words

open Bytes

variable {s t : Bytes}

/-! ## Bytes -/

/-- The number that bytes stand for, the most significant one first. -/
def number (s : Bytes) : Nat := s.foldl (fun n b => 256 * n + b.toNat) 0

theorem number_append_singleton (s : Bytes) (b : UInt8) :
    number (s ++ [b]) = 256 * number s + b.toNat := by
  rw [number, List.foldl_append, List.foldl_cons, List.foldl_nil, ← number]

theorem number_lt (s : Bytes) : number s < 256 ^ s.length := by
  induction s using List.reverseRecOn with
  | nil => exact Nat.one_pos
  | append_singleton s b ih =>
    have hb : b.toNat < 256 := b.toNat_lt
    rw [number_append_singleton, List.length_append, List.length_singleton, Nat.pow_succ]
    omega

theorem number_append (s t : Bytes) :
    number (s ++ t) = 256 ^ t.length * number s + number t := by
  induction t using List.reverseRecOn with
  | nil => simp [number]
  | append_singleton t b ih =>
    rw [← List.append_assoc, number_append_singleton, ih, number_append_singleton,
      List.length_append, List.length_singleton]
    ring

/-- To put a byte behind bits that leave room for it is to add it. -/
theorem shiftLeft_or_byte (n : Nat) (b : UInt8) : n <<< 8 ||| b.toNat = 256 * n + b.toNat := by
  rw [← Nat.shiftLeft_add_eq_or_of_lt b.toNat_lt, Nat.shiftLeft_eq, Nat.mul_comm]

theorem toNat_word32 (h : s.length ≤ 4) : (word32 s).toNat = number s := by
  induction s using List.reverseRecOn with
  | nil => rfl
  | append_singleton s b ih =>
    rw [List.length_append, List.length_singleton] at h
    have hroom : number s < 256 ^ 3 :=
      Nat.lt_of_lt_of_le (number_lt s) (Nat.pow_le_pow_right (by decide) (by omega))
    have hpush : word32 (s ++ [b]) = word32 s <<< 8 ||| b.toUInt32 := by
      rw [word32, List.foldl_append, List.foldl_cons, List.foldl_nil, ← word32]
    have hshift : number s <<< 8 < 2 ^ 32 := by
      rw [Nat.shiftLeft_eq]
      omega
    rw [hpush, UInt32.toNat_or, UInt32.toNat_shiftLeft, ih (by omega), UInt8.toNat_toUInt32,
      number_append_singleton, ← shiftLeft_or_byte]
    exact congrArg (· ||| b.toNat) (Nat.mod_eq_of_lt hshift)

theorem toNat_word64 (h : s.length ≤ 8) : (word64 s).toNat = number s := by
  induction s using List.reverseRecOn with
  | nil => rfl
  | append_singleton s b ih =>
    rw [List.length_append, List.length_singleton] at h
    have hroom : number s < 256 ^ 7 :=
      Nat.lt_of_lt_of_le (number_lt s) (Nat.pow_le_pow_right (by decide) (by omega))
    have hpush : word64 (s ++ [b]) = word64 s <<< 8 ||| b.toUInt64 := by
      rw [word64, List.foldl_append, List.foldl_cons, List.foldl_nil, ← word64]
    have hshift : number s <<< 8 < 2 ^ 64 := by
      rw [Nat.shiftLeft_eq]
      omega
    rw [hpush, UInt64.toNat_or, UInt64.toNat_shiftLeft, ih (by omega), UInt8.toNat_toUInt64,
      number_append_singleton, ← shiftLeft_or_byte]
    exact congrArg (· ||| b.toNat) (Nat.mod_eq_of_lt hshift)

theorem number_bytes32 (w : UInt32) : number (bytes32 w) = w.toNat := by
  have hw : w.toNat < 2 ^ 32 := w.toNat_lt
  simp [number, bytes32, Nat.shiftRight_eq_div_pow]
  omega

theorem number_injective (hlength : s.length = t.length) (h : number s = number t) : s = t := by
  induction s using List.reverseRecOn generalizing t with
  | nil => exact (List.eq_nil_of_length_eq_zero hlength.symm).symm
  | append_singleton s b ih =>
    cases t using List.reverseRecOn with
    | nil => simp at hlength
    | append_singleton t c =>
      rw [number_append_singleton, number_append_singleton] at h
      have hb : b.toNat < 256 := b.toNat_lt
      have hc : c.toNat < 256 := c.toNat_lt
      have hst : s = t := ih (by simpa using hlength) (by omega)
      have hbc : b = c := UInt8.toNat_inj.1 (by omega)
      rw [hst, hbc]

theorem length_bytes32 (w : UInt32) : (bytes32 w).length = 4 := rfl

theorem length_bytes64 (w : UInt64) : (bytes64 w).length = 8 := rfl

theorem word32_bytes32 (w : UInt32) : word32 (bytes32 w) = w := by
  rw [← UInt32.toNat_inj, toNat_word32 (Nat.le_of_eq (length_bytes32 w)), number_bytes32]

theorem bytes32_word32 (h : s.length = 4) : bytes32 (word32 s) = s := by
  refine number_injective ((length_bytes32 _).trans h.symm) ?_
  rw [number_bytes32, toNat_word32 (Nat.le_of_eq h)]

theorem number_bytes64 (w : UInt64) : number (bytes64 w) = w.toNat := by
  have hw : w.toNat < 2 ^ 64 := w.toNat_lt
  rw [bytes64, number_append, number_bytes32, number_bytes32, length_bytes32, UInt64.toNat_toUInt32,
    UInt64.toNat_toUInt32, UInt64.toNat_shiftRight]
  simp [Nat.shiftRight_eq_div_pow]
  omega

theorem word64_bytes64 (w : UInt64) : word64 (bytes64 w) = w := by
  rw [← UInt64.toNat_inj, toNat_word64 (Nat.le_of_eq (length_bytes64 w)), number_bytes64]

theorem bytes64_word64 (h : s.length = 8) : bytes64 (word64 s) = s := by
  refine number_injective ((length_bytes64 _).trans h.symm) ?_
  rw [number_bytes64, toNat_word64 (Nat.le_of_eq h)]

/-! ## Bits -/

/-- The bits below a place, and the bit at the place. -/
theorem setWidth_succ_eq_xor {n k : Nat} (w : BitVec n) (hk : k < n) :
    (w.setWidth (k + 1)).setWidth n =
      (w.setWidth k).setWidth n ^^^ (if w.getLsbD k then BitVec.twoPow n k else 0#n) := by
  have hbit : ∀ i < n, (if w.getLsbD k then BitVec.twoPow n k else 0#n).getLsbD i =
      (decide (i = k) && w.getLsbD k) := by
    intro i hi
    cases h : w.getLsbD k <;> simp [BitVec.getLsbD_twoPow, hk, eq_comm]
  refine BitVec.eq_of_getLsbD_eq fun i hi => ?_
  simp only [BitVec.getLsbD_xor, BitVec.getLsbD_setWidth, hbit i hi, hi, decide_true,
    Bool.true_and]
  rcases Nat.lt_trichotomy i k with hlt | rfl | hgt
  · simp [hlt, Nat.lt_succ_of_lt hlt, Nat.ne_of_lt hlt]
  · simp
  · simp [Nat.not_lt_of_lt hgt, Nat.not_lt_of_le (Nat.succ_le_of_lt hgt), Nat.ne_of_gt hgt]

theorem eq_self_of_bits {n : Nat} {f : BitVec n → BitVec n}
    (hxor : ∀ a b, f (a ^^^ b) = f a ^^^ f b)
    (hbits : ∀ i < n, f (BitVec.twoPow n i) = BitVec.twoPow n i) (w : BitVec n) : f w = w := by
  have hzero : f 0#n = 0#n := by
    have hdouble := hxor 0#n 0#n
    rwa [BitVec.xor_self, BitVec.xor_self] at hdouble
  -- The map is the identity on words of `k` low bits.
  have hlow : ∀ k ≤ n, f ((w.setWidth k).setWidth n) = (w.setWidth k).setWidth n := by
    intro k
    induction k with
    | zero =>
      intro _
      rw [BitVec.eq_nil (w.setWidth 0)]
      simpa using hzero
    | succ k ih =>
      intro hk
      rw [setWidth_succ_eq_xor w hk, hxor, ih (Nat.le_of_succ_le hk)]
      split
      · rw [hbits k hk]
      · rw [hzero]
  have hwhole := hlow n (Nat.le_refl n)
  rwa [BitVec.setWidth_eq, BitVec.setWidth_eq] at hwhole

theorem eq_self_of_bits32 {f : UInt32 → UInt32} (hxor : ∀ a b, f (a ^^^ b) = f a ^^^ f b)
    (hbits : ∀ i < 32, f ⟨BitVec.twoPow 32 i⟩ = ⟨BitVec.twoPow 32 i⟩) (w : UInt32) : f w = w :=
  UInt32.toBitVec_inj.1 (eq_self_of_bits (f := fun v => (f ⟨v⟩).toBitVec)
    (fun a b => congrArg UInt32.toBitVec (hxor ⟨a⟩ ⟨b⟩))
    (fun i hi => congrArg UInt32.toBitVec (hbits i hi)) w.toBitVec)

theorem eq_self_of_bits64 {f : UInt64 → UInt64} (hxor : ∀ a b, f (a ^^^ b) = f a ^^^ f b)
    (hbits : ∀ i < 64, f ⟨BitVec.twoPow 64 i⟩ = ⟨BitVec.twoPow 64 i⟩) (w : UInt64) : f w = w :=
  UInt64.toBitVec_inj.1 (eq_self_of_bits (f := fun v => (f ⟨v⟩).toBitVec)
    (fun a b => congrArg UInt64.toBitVec (hxor ⟨a⟩ ⟨b⟩))
    (fun i hi => congrArg UInt64.toBitVec (hbits i hi)) w.toBitVec)

theorem xor_and {n : Nat} (a b mask : BitVec n) :
    (a ^^^ b) &&& mask = (a &&& mask) ^^^ (b &&& mask) := by
  refine BitVec.eq_of_getLsbD_eq fun i hi => ?_
  simp only [BitVec.getLsbD_and, BitVec.getLsbD_xor, Bool.and_xor_distrib_right]

theorem xor_and32 (a b mask : UInt32) : (a ^^^ b) &&& mask = (a &&& mask) ^^^ (b &&& mask) :=
  UInt32.toBitVec_inj.1 (xor_and ..)

theorem xor_and64 (a b mask : UInt64) : (a ^^^ b) &&& mask = (a &&& mask) ^^^ (b &&& mask) :=
  UInt64.toBitVec_inj.1 (xor_and ..)

/-! ## Halves -/

/-- The two halves of a word, the high one first. -/
def halves (w : UInt64) : UInt32 × UInt32 := ((w >>> 32).toUInt32, w.toUInt32)

def whole (pair : UInt32 × UInt32) : UInt64 := pair.1.toUInt64 <<< 32 ||| pair.2.toUInt64

theorem toNat_whole (pair : UInt32 × UInt32) :
    (whole pair).toNat = 2 ^ 32 * pair.1.toNat + pair.2.toNat := by
  have hhigh : pair.1.toNat < 2 ^ 32 := pair.1.toNat_lt
  have hlow : pair.2.toNat < 2 ^ 32 := pair.2.toNat_lt
  have hshift : pair.1.toNat <<< 32 < 2 ^ 64 := by
    rw [Nat.shiftLeft_eq]
    omega
  rw [whole, UInt64.toNat_or, UInt64.toNat_shiftLeft, UInt32.toNat_toUInt64, UInt32.toNat_toUInt64]
  rw [Nat.mul_comm, ← Nat.shiftLeft_eq, Nat.shiftLeft_add_eq_or_of_lt hlow]
  exact congrArg (· ||| pair.2.toNat) (Nat.mod_eq_of_lt hshift)

theorem whole_halves (w : UInt64) : whole (halves w) = w := by
  have hw : w.toNat < 2 ^ 64 := w.toNat_lt
  have hhigh : (w >>> 32).toNat = w.toNat / 2 ^ 32 := by
    rw [UInt64.toNat_shiftRight]
    exact Nat.shiftRight_eq_div_pow ..
  rw [← UInt64.toNat_inj, toNat_whole, halves, UInt64.toNat_toUInt32, UInt64.toNat_toUInt32, hhigh]
  omega

theorem halves_whole (pair : UInt32 × UInt32) : halves (whole pair) = pair := by
  have hhigh : pair.1.toNat < 2 ^ 32 := pair.1.toNat_lt
  have hlow : pair.2.toNat < 2 ^ 32 := pair.2.toNat_lt
  have hshift : (whole pair >>> 32).toNat = (whole pair).toNat / 2 ^ 32 := by
    rw [UInt64.toNat_shiftRight]
    exact Nat.shiftRight_eq_div_pow ..
  refine Prod.ext (UInt32.toNat_inj.1 ?_) (UInt32.toNat_inj.1 ?_)
  · rw [halves, UInt64.toNat_toUInt32, hshift, toNat_whole]
    omega
  · rw [halves, UInt64.toNat_toUInt32, toNat_whole]
    omega

end Gntp.Words
