import Gntp.Failure

/-!
# Hexadecimal text

Bytes that are written as digits are read back from them (`Hex.decode_encode`), so different bytes
are written differently. A text is read if it consists of pairs of digits (`Hex.decode_eq_ok`), and
otherwise refused for its length before its digits (`Hex.decode_eq_error`). What was read is written
as the same text in small letters (`Hex.decode_inverts_encode`).
-/

namespace Gntp

/-- What holds of 256 bytes holds of every byte. -/
theorem Bytes.forall_byte_iff {P : UInt8 → Prop} :
    (∀ n : Fin 256, P (UInt8.ofNat n)) ↔ ∀ b, P b := by
  refine ⟨fun h b => ?_, fun h n => h _⟩
  have hb := h ⟨b.toNat, b.toNat_lt⟩
  rwa [UInt8.ofNat_toNat] at hb

/-- Whether something holds of every byte can be tried out. -/
instance (priority := low) Bytes.decidableForallByte {P : UInt8 → Prop} [DecidablePred P] :
    Decidable (∀ b, P b) :=
  decidable_of_iff _ Bytes.forall_byte_iff

namespace Hex

theorem digitValue?_digit {n : UInt8} (h : n < 16) : digitValue? (digit n) = some n := by
  have hall : ∀ k : Fin 16, digitValue? (digit (UInt8.ofNat k)) = some (UInt8.ofNat k) := by decide
  have hn := hall ⟨n.toNat, h⟩
  rwa [UInt8.ofNat_toNat] at hn

@[simp] theorem encode_nil : encode [] = [] := rfl

@[simp] theorem encode_cons (b : UInt8) (bytes : Bytes) :
    encode (b :: bytes) = digit (b >>> 4) :: digit (b &&& 0x0f) :: encode bytes := rfl

@[simp] theorem length_encode (bytes : Bytes) : (encode bytes).length = 2 * bytes.length := by
  induction bytes with
  | nil => rfl
  | cons b bytes ih => simp only [encode_cons, List.length_cons, ih]; omega

theorem toNat_high (b : UInt8) : (b >>> 4).toNat = b.toNat / 16 := by
  rw [UInt8.toNat_shiftRight]
  exact Nat.shiftRight_eq_div_pow b.toNat 4

theorem toNat_low (b : UInt8) : (b &&& 0x0f).toNat = b.toNat % 16 := by
  rw [UInt8.toNat_and]
  exact Nat.and_two_pow_sub_one_eq_mod b.toNat 4

theorem high_lt (b : UInt8) : b >>> 4 < 16 := by
  rw [UInt8.lt_iff_toNat_lt, toNat_high]
  exact Nat.div_lt_of_lt_mul b.toNat_lt

theorem low_lt (b : UInt8) : b &&& 0x0f < 16 := by
  rw [UInt8.lt_iff_toNat_lt, toNat_low]
  exact Nat.mod_lt b.toNat (by decide)

theorem halves (b : UInt8) : b >>> 4 <<< 4 ||| b &&& 0x0f = b := by
  decide +kernel +revert

theorem decodePairs_encode (bytes done : Bytes) :
    decodePairs done (encode bytes) = some (done.reverse ++ bytes) := by
  induction bytes generalizing done with
  | nil => simp [decodePairs]
  | cons b bytes ih =>
    rw [encode_cons, decodePairs, digitValue?_digit (high_lt b), digitValue?_digit (low_lt b)]
    simp [halves, ih]

@[simp] theorem decode_encode (bytes : Bytes) : decode (encode bytes) = .ok bytes := by
  simp [decode, decodePairs_encode]

theorem encode_injective {bytes bytes' : Bytes} (h : encode bytes = encode bytes') :
    bytes = bytes' := by
  have hdecode := congrArg decode h
  simpa using hdecode

theorem isSome_digitValue?_of_mem_encode {bytes : Bytes} {b : UInt8} (h : b ∈ encode bytes) :
    (digitValue? b).isSome := by
  obtain ⟨byte, _, hb⟩ := List.mem_flatMap.1 h
  simp only [List.mem_cons, List.not_mem_nil, or_false] at hb
  rcases hb with rfl | rfl
  · simp [digitValue?_digit (high_lt byte)]
  · simp [digitValue?_digit (low_lt byte)]

/-! ## Which texts are read -/

/-- A digit, whose letters may be of either case. -/
def IsDigit (b : UInt8) : Prop :=
  0x30 ≤ b ∧ b ≤ 0x39 ∨ 0x61 ≤ b ∧ b ≤ 0x66 ∨ 0x41 ≤ b ∧ b ≤ 0x46

/-- A text of pairs of digits. -/
def Paired (text : Bytes) : Prop := text.length % 2 = 0 ∧ ∀ b ∈ text, IsDigit b

/-- The text says what these bytes are, up to the case of its letters. -/
def Spells (text bytes : Bytes) : Prop := Paired text ∧ text.map Bytes.lower = encode bytes

theorem isSome_digitValue?_iff (b : UInt8) : (digitValue? b).isSome ↔ IsDigit b := by
  unfold digitValue? IsDigit
  split
  · simp [*]
  · split
    · simp [*]
    · split <;> simp [*]

theorem lower_of_digitValue? {b v : UInt8} (h : digitValue? b = some v) :
    Bytes.lower b = digit v ∧ v < 16 := by
  have hall : ∀ b : UInt8,
      (digitValue? b).all fun v => Bytes.lower b = digit v ∧ v < 16 := by decide +kernel
  simpa [h] using hall b

theorem halves_of_byte {high low : UInt8} (hhigh : high < 16) (hlow : low < 16) :
    (high <<< 4 ||| low) >>> 4 = high ∧ (high <<< 4 ||| low) &&& 0x0f = low := by
  have hall : ∀ h l : Fin 16,
      (UInt8.ofNat h <<< 4 ||| UInt8.ofNat l) >>> 4 = UInt8.ofNat h ∧
      (UInt8.ofNat h <<< 4 ||| UInt8.ofNat l) &&& 0x0f = UInt8.ofNat l := by decide +kernel
  simpa using hall ⟨high.toNat, hhigh⟩ ⟨low.toNat, hlow⟩

theorem spells_of_decodePairs {text done bytes : Bytes} (h : decodePairs done text = some bytes) :
    ∃ tail, bytes = done.reverse ++ tail ∧ Spells text tail := by
  fun_induction decodePairs done text with
  | case1 done =>
    cases h
    exact ⟨[], by simp, ⟨rfl, nofun⟩, rfl⟩
  | case2 => cases h
  | case3 done high low rest hv lv hlow hhigh ih =>
    obtain ⟨tail, rfl, ⟨hlength, hdigits⟩, hspell⟩ := ih h
    obtain ⟨hhigh', hhv⟩ := lower_of_digitValue? hhigh
    obtain ⟨hlow', hlv⟩ := lower_of_digitValue? hlow
    obtain ⟨hupper, hunder⟩ := halves_of_byte hhv hlv
    refine ⟨(hv <<< 4 ||| lv) :: tail, by simp, ⟨?_, ?_⟩, ?_⟩
    · simp only [List.length_cons]
      omega
    · exact List.forall_mem_cons.2 ⟨(isSome_digitValue?_iff high).1 (by simp [hhigh]),
        List.forall_mem_cons.2 ⟨(isSome_digitValue?_iff low).1 (by simp [hlow]), hdigits⟩⟩
    · simp [hhigh', hlow', hupper, hunder, hspell]
  | case4 => cases h

theorem isSome_decodePairs {text : Bytes} (h : Paired text) (done : Bytes) :
    (decodePairs done text).isSome := by
  obtain ⟨hlength, hdigits⟩ := h
  fun_induction decodePairs done text with
  | case1 => rfl
  | case2 => simp at hlength
  | case3 done high low rest hv lv hlow hhigh ih =>
    simp only [List.length_cons] at hlength
    refine ih (by omega) fun b hb => hdigits b ?_
    exact List.mem_cons_of_mem _ (List.mem_cons_of_mem _ hb)
  | case4 done high low rest hnot =>
    have hhigh := (isSome_digitValue?_iff high).2 (hdigits high (by simp))
    have hlow := (isSome_digitValue?_iff low).2 (hdigits low (by simp))
    obtain ⟨hv, hhv⟩ := Option.isSome_iff_exists.1 hhigh
    obtain ⟨lv, hlv⟩ := Option.isSome_iff_exists.1 hlow
    exact absurd hlv (hnot hv lv hhv)

theorem spells_of_decode {text bytes : Bytes} (h : decode text = .ok bytes) : Spells text bytes := by
  unfold decode at h
  split at h
  · cases h
  · split at h
    · next hpairs =>
      cases h
      obtain ⟨tail, rfl, hspells⟩ := spells_of_decodePairs hpairs
      exact hspells
    · cases h

/-- Whatever text of pairs of digits says is what is read. -/
theorem decode_eq_ok {text bytes : Bytes} : decode text = .ok bytes ↔ Spells text bytes := by
  constructor
  · exact spells_of_decode
  · rintro ⟨hpaired, hspell⟩
    obtain ⟨bytes', hpairs⟩ := Option.isSome_iff_exists.1 (isSome_decodePairs hpaired [])
    have hdecode : decode text = .ok bytes' := by simp [decode, hpaired.1, hpairs]
    have hsame := (spells_of_decode hdecode).2.symm.trans hspell
    rw [hdecode, encode_injective hsame]

theorem decode_of_not_paired {text : Bytes} (h : ¬ Paired text) :
    decode text = .error (if text.length % 2 = 1 then .oddLength else .badDigit text) := by
  unfold decode
  split
  · rw [if_pos (by omega)]
  · next heven =>
    rw [if_neg (by omega)]
    split
    · next bytes hpairs =>
      obtain ⟨_, _, hspells⟩ := spells_of_decodePairs hpairs
      exact absurd hspells.1 h
    · rfl

theorem exists_spells {text : Bytes} (h : Paired text) : ∃ bytes, Spells text bytes := by
  obtain ⟨bytes, hpairs⟩ := Option.isSome_iff_exists.1 (isSome_decodePairs h [])
  obtain ⟨tail, _, hspells⟩ := spells_of_decodePairs hpairs
  exact ⟨tail, hspells⟩

theorem decode_eq_error {text : Bytes} {fault : HexFault} : decode text = .error fault ↔
    ¬ Paired text ∧ fault = if text.length % 2 = 1 then .oddLength else .badDigit text := by
  by_cases hpaired : Paired text
  · obtain ⟨bytes, hspells⟩ := exists_spells hpaired
    simp [decode_eq_ok.2 hspells, hpaired]
  · simp [decode_of_not_paired hpaired, hpaired, eq_comm]

theorem spells_encode (bytes : Bytes) : Spells (encode bytes) bytes :=
  spells_of_decode (decode_encode bytes)

/-! ## Both ways -/

/-- The digits in which bytes are written, by value. -/
def smallDigits : Bytes := ascii "0123456789abcdef"

theorem getElem?_smallDigits {n : UInt8} (h : n < 16) :
    smallDigits[n.toNat]? = some (digit n) := by
  have hall : ∀ k : Fin 16, smallDigits[(UInt8.ofNat k).toNat]? = some (digit (UInt8.ofNat k)) := by
    decide
  have hn := hall ⟨n.toNat, h⟩
  rwa [UInt8.ofNat_toNat] at hn

/-- The digits of a byte are those of its two places. -/
theorem map_encode (bytes : Bytes) : (encode bytes).map some =
    bytes.flatMap fun b => [smallDigits[b.toNat / 16]?, smallDigits[b.toNat % 16]?] := by
  induction bytes with
  | nil => rfl
  | cons b bytes ih =>
    rw [encode_cons, List.map_cons, List.map_cons, ih, List.flatMap_cons, ← toNat_high,
      ← toNat_low, getElem?_smallDigits (high_lt b), getElem?_smallDigits (low_lt b)]
    rfl

theorem mem_smallDigits_of_mem_encode {bytes : Bytes} {b : UInt8} (h : b ∈ encode bytes) :
    b ∈ smallDigits := by
  obtain ⟨byte, _, hb⟩ := List.mem_flatMap.1 h
  rcases List.mem_cons.1 hb with rfl | hb
  · exact List.mem_of_getElem? (getElem?_smallDigits (high_lt byte))
  · cases List.mem_singleton.1 hb
    exact List.mem_of_getElem? (getElem?_smallDigits (low_lt byte))

/-- All bytes are read back as they were written, and all texts are either refused or, in small
letters, written again as they were read. -/
theorem decode_inverts_encode :
    (∀ bytes : Bytes, decode (encode bytes) = .ok bytes ∧
      (encode bytes).length = 2 * bytes.length ∧ (∀ b ∈ encode bytes, b ∈ smallDigits) ∧
      (encode bytes).map some = bytes.flatMap fun b =>
        [smallDigits[b.toNat / 16]?, smallDigits[b.toNat % 16]?]) ∧
    ∀ text : Bytes,
      ((∃ bytes, decode text = .ok bytes) ↔ text.length % 2 = 0 ∧ ∀ b ∈ text, IsDigit b) ∧
      (∀ bytes, decode text = .ok bytes → encode bytes = text.map Bytes.lower) ∧
      (¬ (text.length % 2 = 0 ∧ ∀ b ∈ text, IsDigit b) → ∃ fault,
        decode text = .error fault ∧
          (Failure.hex fault).report = .fault .invalidArgument fault.message) := by
  constructor
  · intro bytes
    exact ⟨decode_encode bytes, length_encode bytes, fun _ => mem_smallDigits_of_mem_encode,
      map_encode bytes⟩
  · intro text
    refine ⟨⟨?_, ?_⟩, ?_, ?_⟩
    · rintro ⟨bytes, hdecode⟩
      exact (spells_of_decode hdecode).1
    · intro hpaired
      obtain ⟨bytes, hspells⟩ := exists_spells hpaired
      exact ⟨bytes, decode_eq_ok.2 hspells⟩
    · intro bytes hdecode
      exact (spells_of_decode hdecode).2.symm
    · intro hnot
      exact ⟨_, decode_of_not_paired hnot, rfl⟩

end Hex

end Gntp
