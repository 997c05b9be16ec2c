import Mathlib.Data.List.Induction
import Mathlib.Data.Nat.Digits.Defs
import Gntp.Decimal

/-!
# Numerals and the numbers that they stand for

`Decimal.Numeral` says by places which number a text of digits stands for, and `Decimal.Literal`
adds the sign. A priority is read if it is the literal of a number of 32 bits, and is that number
(`int32?_eq_some`).
-/

namespace Gntp.Decimal

variable {s digits : Bytes} {n : Nat} {z : Int}

/-- The digits of a number, the least significant one last. Leading zeros are fine. -/
structure Numeral (s : Bytes) (n : Nat) : Prop where
  ne_nil : s ≠ []
  digits : ∀ b ∈ s, 0x30 ≤ b ∧ b ≤ 0x39
  places : Nat.ofDigits 10 (s.reverse.map fun b => b.toNat - 0x30) = n

/-- A numeral, or one sign in front of a numeral. -/
inductive Literal : Bytes → Int → Prop
  | bare {digits : Bytes} {n : Nat} : Numeral digits n → Literal digits n
  | plus {digits : Bytes} {n : Nat} : Numeral digits n → Literal (0x2b :: digits) n
  | minus {digits : Bytes} {n : Nat} : Numeral digits n → Literal (0x2d :: digits) (-n)

theorem isDigit_iff {b : UInt8} : isDigit b = true ↔ 0x30 ≤ b ∧ b ≤ 0x39 := by
  simp [isDigit]

theorem isBlank_of_digit {b : UInt8} (h : 0x30 ≤ b ∧ b ≤ 0x39) : Bytes.isBlank b = false := by
  simp only [Bytes.isBlank, Bool.or_eq_false_iff, Bool.and_eq_false_iff, beq_eq_false_iff_ne]
  grind

theorem isNumeral_iff : isNumeral s = true ↔ s ≠ [] ∧ ∀ b ∈ s, 0x30 ≤ b ∧ b ≤ 0x39 := by
  simp [isNumeral, isDigit_iff]

/-- Reading from left to right comes to the sum over the places. -/
theorem value_eq_ofDigits (h : ∀ b ∈ digits, 0x30 ≤ b ∧ b ≤ 0x39) :
    value digits = Nat.ofDigits 10 (digits.reverse.map fun b => b.toNat - 0x30) := by
  induction digits using List.reverseRecOn with
  | nil => rfl
  | append_singleton digits b ih =>
    have hb : (b - 0x30).toNat = b.toNat - 0x30 :=
      UInt8.toNat_sub_of_le b 0x30 (h b (List.mem_append_right _ List.mem_cons_self)).1
    have hrest := ih fun c hc => h c (List.mem_append_left _ hc)
    rw [value, List.foldl_append, ← value, hrest, List.foldl_cons, List.foldl_nil, hb,
      List.reverse_append, List.reverse_singleton, List.singleton_append, List.map_cons,
      Nat.ofDigits_cons, Nat.add_comm]

theorem numeral_iff : Numeral s n ↔ isNumeral s = true ∧ value s = n := by
  rw [isNumeral_iff]
  constructor
  · intro h
    exact ⟨⟨h.ne_nil, h.digits⟩, (value_eq_ofDigits h.digits).trans h.places⟩
  · rintro ⟨⟨hne, hdigits⟩, hvalue⟩
    exact ⟨hne, hdigits, (value_eq_ofDigits hdigits).symm.trans hvalue⟩

/-- A number has less than one place more than its numeral. -/
theorem Numeral.lt_pow (h : Numeral s n) : n < 10 ^ s.length := by
  have hdigits : ∀ d ∈ s.reverse.map fun b => b.toNat - 0x30, d < 10 := by
    intro d hd
    obtain ⟨b, hb, rfl⟩ := List.mem_map.1 hd
    have hhigh : b.toNat ≤ 0x39 := (h.digits b (List.mem_reverse.1 hb)).2
    omega
  have hlt := Nat.ofDigits_lt_base_pow_length (by decide : 1 < 10) hdigits
  rwa [h.places, List.length_map, List.length_reverse] at hlt

/-! ## Numbers in the fewest digits -/

theorem isDigit_digit {n : Nat} (h : n < 10) : isDigit (digit n) = true := by
  have hall : ∀ k : Fin 10, isDigit (digit k) = true := by decide
  exact hall ⟨n, h⟩

theorem isNumeral_ofNat (n : Nat) : isNumeral (ofNat n) = true := by
  fun_induction ofNat n with
  | case1 n h => simp [isNumeral, isDigit_digit h]
  | case2 n h ih =>
    simp only [isNumeral, Bool.and_eq_true] at ih ⊢
    simp [ih.2, isDigit_digit (Nat.mod_lt n (by decide : 10 > 0))]

theorem length_ofNat_le {n k : Nat} (h : n < 10 ^ (k + 1)) : (ofNat n).length ≤ k + 1 := by
  induction k generalizing n with
  | zero => rw [ofNat, if_pos (by simpa using h)]; exact Nat.le_refl 1
  | succ k ih =>
    rw [ofNat]
    split
    · exact Nat.succ_le_succ (Nat.zero_le _)
    · have hrest : n / 10 < 10 ^ (k + 1) := Nat.div_lt_of_lt_mul (by rwa [Nat.mul_comm, ← Nat.pow_succ])
      rw [List.length_append]
      exact Nat.succ_le_succ (ih hrest)

/-! ## Signed numbers -/

theorem signed?_eq_some : signed? s = some z ↔ Literal s z := by
  constructor
  · intro h
    unfold signed? at h
    split at h
    · split at h
      · next hn =>
        cases h
        exact .plus (numeral_iff.2 ⟨hn, rfl⟩)
      · cases h
    · split at h
      · next hn =>
        cases h
        exact .minus (numeral_iff.2 ⟨hn, rfl⟩)
      · cases h
    · split at h
      · next hn =>
        cases h
        exact .bare (numeral_iff.2 ⟨hn, rfl⟩)
      · cases h
  · rintro (⟨h⟩ | ⟨h⟩ | ⟨h⟩)
    · -- A digit is no sign.
      obtain ⟨hn, rfl⟩ := numeral_iff.1 h
      unfold signed?
      split
      · exact absurd (h.digits _ List.mem_cons_self) (by decide)
      · exact absurd (h.digits _ List.mem_cons_self) (by decide)
      · rw [if_pos hn]
    · obtain ⟨hn, rfl⟩ := numeral_iff.1 h
      simp only [signed?, hn, if_true]
    · obtain ⟨hn, rfl⟩ := numeral_iff.1 h
      simp only [signed?, hn, if_true]

theorem int32?_eq_some : int32? s = some z ↔ Literal s z ∧ -2 ^ 31 ≤ z ∧ z < 2 ^ 31 := by
  simp only [int32?, Option.filter_eq_some_iff, signed?_eq_some, Bool.and_eq_true,
    decide_eq_true_eq]
  constructor <;> rintro ⟨h, hlow, hhigh⟩ <;> exact ⟨h, by omega, by omega⟩

end Gntp.Decimal
