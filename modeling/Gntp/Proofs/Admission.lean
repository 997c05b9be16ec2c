import Gntp.Proofs.Framing
import Gntp.Proofs.Grammar
import Gntp.Proofs.InternalErrors
import Gntp.Proofs.Transparency

/-!
# Who is admitted

What becomes of a request line is decided by the line alone, before anything behind it is looked at
(`Gate.screen`). `RequestLine.Admitted` and `RequestLine.Denied` list who is admitted with which
sealing and who is denied with which code, in terms of the passwords and not of the keyring's way to
search them. An exchange whose line is denied ends there, with nothing else read and nothing done.
-/

namespace Gntp

open Gntp.Action

/-- What a request line is admitted with. -/
structure Admission where
  line : RequestLine
  access : Access
  sealing : Sealing

namespace Gate

/-- Decides on a request line that can be read. -/
def screenLine (gate : Gate) (line : RequestLine) : Except Failure Admission := do
  let access ← Access.decide gate.suite gate.keyring gate.policy line
  let sealing ← (Access.sealing line access.key).mapError .rejected
  return { line, access, sealing }

/-- Decides on the first line of an input, given without its line feed. -/
def screen (gate : Gate) (l : Bytes) : Except Failure Admission := do
  gate.screenLine (← (RequestLine.parse (Bytes.dropFinalCr l)).mapError .rejected)

end Gate

namespace RequestLine

/-- A password is known whose digest with the salt is the hash that was sent, and is this key. -/
def Keyed (suite : Suite) (keyring : Keyring) (line : RequestLine) (key : Bytes) : Prop :=
  ∃ keyHash digest, ∃ password ∈ keyring.passwords, ∃ salt, line.keyHash = some keyHash ∧
    suite.digest keyHash.algorithm = some digest ∧ Hex.decode keyHash.salt = .ok salt ∧
    Hex.decode keyHash.hash = .ok key ∧ key = digest (password ++ salt)

/-- A key hash was sent that no password proves, though every password can be tried. -/
def Unproven (suite : Suite) (keyring : Keyring) (line : RequestLine) : Prop :=
  ∃ keyHash, line.keyHash = some keyHash ∧
    (keyring.passwords ≠ [] → (suite.digest keyHash.algorithm).isSome) ∧
    ∀ password ∈ keyring.passwords, ¬ keyHash.ProvenBy suite password

/-- A notification in the clear, where the policy is to ignore such. -/
def Ignorable (policy : Policy) (line : RequestLine) : Prop :=
  policy = .ignoreNotify ∧ line.messageType = .notify ∧ line.cipher = .none

/-- What a line is admitted with. -/
inductive Admitted (gate : Gate) (line : RequestLine) : Access → Sealing → Prop
  | anonymous : line.keyHash = none → gate.keyring.passwords = [] → line.cipher = .none →
    Admitted gate line (.authorized []) .clear
  | known {key : Bytes} : line.Keyed gate.suite gate.keyring key → line.cipher = .none →
    Admitted gate line (.authorized key) .clear
  | ignored : line.Unproven gate.suite gate.keyring → line.Ignorable gate.policy →
    Admitted gate line .ignored .clear
  | sealed {key : Bytes} {sealing : Sealing} : line.Keyed gate.suite gate.keyring key →
    line.cipher ≠ .none → sealing.cipher = line.cipher →
    line.cipher.keySize ≤ key.length → sealing.key = key.take line.cipher.keySize →
    sealing.iv = line.iv → Admitted gate line (.authorized key) sealing

/-- Why a line is denied, and the code that its sender is told. -/
inductive Denied (gate : Gate) (line : RequestLine) : Bytes → Failure → Prop
  | missing : line.keyHash = none → gate.keyring.passwords ≠ [] →
    Denied gate line (ascii "400") (.rejected .missingKeyHash)
  | unproven : line.Unproven gate.suite gate.keyring → ¬ line.Ignorable gate.policy →
    Denied gate line (ascii "400") (.rejected .incorrectPassword)
  | keyless : line.keyHash = none → gate.keyring.passwords = [] → line.cipher ≠ .none →
    Denied gate line (ascii "400") (.rejected (.cipherWithoutPassword line.cipher))
  | shortKey {key : Bytes} : line.Keyed gate.suite gate.keyring key → line.cipher ≠ .none →
    key.length < line.cipher.keySize →
    Denied gate line (ascii "300") (.rejected (.cipherParameters (.keyTooShort line.cipher)))
  | badIv {key : Bytes} : line.Keyed gate.suite gate.keyring key → line.cipher ≠ .none →
    line.cipher.keySize ≤ key.length → line.iv.length ≠ line.cipher.ivSize →
    Denied gate line (ascii "300") (.rejected (.cipherParameters (.badIvSize line.cipher)))
  /-- The hash function is not at hand. -/
  | unavailable {keyHash : KeyHash} : line.keyHash = some keyHash →
    gate.suite.digest keyHash.algorithm = none → gate.keyring.passwords ≠ [] →
    Denied gate line (ascii "500") .noDigest

end RequestLine

/-! ## The search for a key -/

namespace Keyring

variable {suite : Suite} {algorithm : HashAlgorithm} {hash salt : Bytes} {passwords : List Bytes}

theorem findKey_of_unproven (hd : passwords ≠ [] → (suite.digest algorithm).isSome)
    (h : ∀ password ∈ passwords, ∀ digest, suite.digest algorithm = some digest →
      digest (password ++ salt) ≠ hash) :
    findKey suite algorithm hash salt passwords = .ok none := by
  induction passwords with
  | nil => rfl
  | cons password others ih =>
    obtain ⟨digest, hdigest⟩ := Option.isSome_iff_exists.1 (hd (List.cons_ne_nil _ _))
    have hother : digest (password ++ salt) ≠ hash := h password List.mem_cons_self digest hdigest
    rw [findKey, deriveKey, Keyring.digest, hdigest]
    change (if digest (password ++ salt) = hash then _ else _) = _
    rw [if_neg hother]
    exact ih (fun _ => Option.isSome_iff_exists.2 ⟨digest, hdigest⟩)
      fun other hmem => h other (List.mem_cons_of_mem password hmem)

theorem findKey_of_unavailable (hd : suite.digest algorithm = none) (hne : passwords ≠ []) :
    findKey suite algorithm hash salt passwords = .error .noDigest := by
  cases passwords with
  | nil => exact absurd rfl hne
  | cons password others =>
    rw [findKey, deriveKey, Keyring.digest, hd]
    rfl

theorem matchingKey_eq {keyring : Keyring} {hashHex saltHex : Bytes}
    (hhash : Hex.decode hashHex = .ok hash) (hsalt : Hex.decode saltHex = .ok salt) :
    keyring.matchingKey suite algorithm hashHex saltHex =
      findKey suite algorithm hash salt keyring.passwords := by
  unfold matchingKey
  rw [hhash, hsalt]
  rfl

end Keyring

/-! ## What was sent -/

theorem KeyHash.WellFormed.hexadecimal {keyHash : KeyHash} (h : keyHash.WellFormed) :
    keyHash.Hexadecimal :=
  ⟨(Hex.exists_spells h.hash_paired).imp fun _ => Hex.decode_eq_ok.2,
    (Hex.exists_spells h.salt_paired).imp fun _ => Hex.decode_eq_ok.2⟩

theorem RequestLine.wellFormed_of_parse {text : Bytes} {line : RequestLine}
    (h : parse text = .ok line) : ∀ keyHash ∈ line.keyHash, keyHash.WellFormed := by
  obtain ⟨_, _, hwell, _⟩ := (parse_classifies_trimmed text).eq_ok.1 h
  exact hwell

/-- No key hash says that the key is empty. -/
theorem RequestLine.Keyed.key_ne_nil {suite : Suite} {keyring : Keyring} {line : RequestLine}
    {key : Bytes} (hwell : ∀ keyHash ∈ line.keyHash, keyHash.WellFormed)
    (h : line.Keyed suite keyring key) : key ≠ [] := by
  obtain ⟨keyHash, _, _, _, _, hk, _, _, hhash, _⟩ := h
  rintro rfl
  have hspells : keyHash.hash.map Bytes.lower = [] := (Hex.spells_of_decode hhash).2
  exact (hwell keyHash hk).hash_ne_nil (List.map_eq_nil_iff.1 hspells)

/-! ## The decision -/

section

variable {suite : Suite} {keyring : Keyring} {line : RequestLine} {key : Bytes}

theorem RequestLine.Keyed.authentic (h : line.Keyed suite keyring key) :
    line.Authentic suite keyring := by
  obtain ⟨keyHash, digest, password, hmem, salt, hk, hd, hsalt, hhash, rfl⟩ := h
  unfold RequestLine.Authentic
  rw [hk]
  exact ⟨password, hmem, digest, _, salt, hd, hhash, hsalt, rfl⟩

theorem RequestLine.keyed_of_proven {keyHash : KeyHash} (hk : line.keyHash = some keyHash)
    (h : ∃ password ∈ keyring.passwords, keyHash.ProvenBy suite password) :
    ∃ key, line.Keyed suite keyring key := by
  obtain ⟨password, hmem, digest, _, salt, hd, hhash, hsalt, rfl⟩ := h
  exact ⟨_, keyHash, digest, password, hmem, salt, hk, hd, hsalt, hhash, rfl⟩

namespace Access

theorem decide_of_keyed (h : line.Keyed suite keyring key) (policy : Policy) :
    decide suite keyring policy line = .ok (authorized key) := by
  obtain ⟨keyHash, digest, password, hmem, salt, hk, hd, hsalt, hhash, rfl⟩ := h
  exact decide_of_proven hk ⟨password, hmem, digest, _, salt, hd, hhash, hsalt, rfl⟩ hhash policy

theorem decide_of_keyless (hk : line.keyHash = none) (policy : Policy) :
    decide suite keyring policy line =
      if keyring.passwords = [] then .ok (authorized [])
      else .error (.rejected .missingKeyHash) := by
  unfold decide
  rw [hk]

variable (hwell : ∀ keyHash ∈ line.keyHash, keyHash.WellFormed)
include hwell

theorem decide_of_unproven (h : line.Unproven suite keyring) (policy : Policy) :
    (line.Ignorable policy → decide suite keyring policy line = .ok ignored) ∧
    (¬ line.Ignorable policy →
      decide suite keyring policy line = .error (.rejected .incorrectPassword)) := by
  obtain ⟨keyHash, hk, hd, hunproven⟩ := h
  obtain ⟨⟨hash, hhash⟩, salt, hsalt⟩ := (hwell keyHash hk).hexadecimal
  have hnone :
      keyring.matchingKey suite keyHash.algorithm keyHash.hash keyHash.salt = .ok none := by
    rw [Keyring.matchingKey_eq hhash hsalt]
    refine Keyring.findKey_of_unproven hd fun password hmem digest hdigest heq => ?_
    exact hunproven password hmem ⟨digest, hash, salt, hdigest, hhash, hsalt, heq⟩
  unfold decide
  rw [hk]
  dsimp only
  rw [hnone]
  exact ⟨fun h => if_pos h, fun h => if_neg h⟩

theorem decide_of_unavailable {keyHash : KeyHash} (hk : line.keyHash = some keyHash)
    (hd : suite.digest keyHash.algorithm = none) (hne : keyring.passwords ≠ []) (policy : Policy) :
    decide suite keyring policy line = .error .noDigest := by
  obtain ⟨⟨hash, hhash⟩, salt, hsalt⟩ := (hwell keyHash hk).hexadecimal
  unfold decide
  rw [hk]
  dsimp only
  rw [Keyring.matchingKey_eq hhash hsalt, Keyring.findKey_of_unavailable hd hne]
  rfl

end Access

end

/-! ## The sealing -/

namespace Access

variable {line : RequestLine} {key : Bytes}

theorem sealing_of_clear (hcipher : line.cipher = .none) (key : Bytes) :
    sealing line key = .ok .clear := if_pos hcipher

theorem sealing_of_keyless (hcipher : line.cipher ≠ .none) :
    sealing line [] = .error (.cipherWithoutPassword line.cipher) := by
  unfold sealing
  rw [if_neg hcipher, if_pos rfl]

theorem sealing_of_short (hcipher : line.cipher ≠ .none) (hne : key ≠ [])
    (hshort : key.length < line.cipher.keySize) :
    sealing line key = .error (.cipherParameters (.keyTooShort line.cipher)) := by
  unfold sealing Sealing.make
  rw [if_neg hcipher, if_neg hne, if_neg hcipher, dif_pos hshort]
  rfl

theorem sealing_of_badIv (hcipher : line.cipher ≠ .none) (hne : key ≠ [])
    (hlong : line.cipher.keySize ≤ key.length) (hiv : line.iv.length ≠ line.cipher.ivSize) :
    sealing line key = .error (.cipherParameters (.badIvSize line.cipher)) := by
  unfold sealing Sealing.make
  rw [if_neg hcipher, if_neg hne, if_neg hcipher, dif_neg (Nat.not_lt.2 hlong), dif_neg hiv]
  rfl

end Access

/-! ## Who is admitted -/

namespace Gate

variable {gate : Gate} {line : RequestLine} {access : Access}

theorem screenLine_of_decide
    (hdecide : Access.decide gate.suite gate.keyring gate.policy line = .ok access) :
    gate.screenLine line = match Access.sealing line access.key with
      | .ok sealing => .ok { line, access, sealing }
      | .error reason => .error (.rejected reason) := by
  unfold screenLine
  rw [hdecide]
  dsimp only [bind, Except.bind]
  cases Access.sealing line access.key <;> rfl

theorem screenLine_of_sealing {sealing : Sealing}
    (hdecide : Access.decide gate.suite gate.keyring gate.policy line = .ok access)
    (hsealing : Access.sealing line access.key = .ok sealing) :
    gate.screenLine line = .ok { line, access, sealing } := by
  rw [screenLine_of_decide hdecide, hsealing]

theorem screenLine_of_failure {failure : Failure}
    (hdecide : Access.decide gate.suite gate.keyring gate.policy line = .error failure) :
    gate.screenLine line = .error failure := by
  unfold screenLine
  rw [hdecide]
  rfl

end Gate

namespace RequestLine

variable {gate : Gate} {line : RequestLine}
  (hwell : ∀ keyHash ∈ line.keyHash, keyHash.WellFormed)

include hwell in
theorem Admitted.sound {access : Access} {sealing : Sealing}
    (h : line.Admitted gate access sealing) :
    gate.screenLine line = .ok { line, access, sealing } := by
  cases h with
  | anonymous hk hp hcipher =>
    exact Gate.screenLine_of_sealing ((Access.decide_of_keyless hk _).trans (if_pos hp))
      (Access.sealing_of_clear hcipher _)
  | known hkeyed hcipher =>
    exact Gate.screenLine_of_sealing (Access.decide_of_keyed hkeyed _)
      (Access.sealing_of_clear hcipher _)
  | ignored hunproven hignorable =>
    exact Gate.screenLine_of_sealing ((Access.decide_of_unproven hwell hunproven _).1 hignorable)
      (Access.sealing_of_clear hignorable.2.2 _)
  | sealed hkeyed hcipher hsame hlong hkey hiv =>
    refine Gate.screenLine_of_sealing (Access.decide_of_keyed hkeyed _)
      (Access.sealing_eq ?_ ?_ hsame.symm hiv.symm)
    · exact decide_eq_true (hsame ▸ hcipher)
    · rw [hkey]
      exact List.take_prefix _ _

theorem Denied.code_eq {code : Bytes} {failure : Failure} (h : line.Denied gate code failure) :
    Decimal.ofNat failure.report.code.value = code := by
  have h300 : Decimal.ofNat 300 = ascii "300" := by decide +kernel
  have h400 : Decimal.ofNat 400 = ascii "400" := by decide +kernel
  have h500 : Decimal.ofNat 500 = ascii "500" := by decide +kernel
  cases h with
  | missing | unproven | keyless => exact h400
  | shortKey | badIv => exact h300
  | unavailable => exact h500

include hwell in
theorem Denied.sound {code : Bytes} {failure : Failure} (h : line.Denied gate code failure) :
    gate.screenLine line = .error failure := by
  cases h with
  | missing hk hp =>
    exact Gate.screenLine_of_failure ((Access.decide_of_keyless hk _).trans (if_neg hp))
  | unproven hunproven hignorable =>
    exact Gate.screenLine_of_failure ((Access.decide_of_unproven hwell hunproven _).2 hignorable)
  | unavailable hk hd hp =>
    exact Gate.screenLine_of_failure (Access.decide_of_unavailable hwell hk hd hp _)
  | keyless hk hp hcipher =>
    rw [Gate.screenLine_of_decide ((Access.decide_of_keyless hk _).trans (if_pos hp)), Access.key,
      Access.sealing_of_keyless hcipher]
  | shortKey hkeyed hcipher hshort =>
    rw [Gate.screenLine_of_decide (Access.decide_of_keyed hkeyed _), Access.key,
      Access.sealing_of_short hcipher (hkeyed.key_ne_nil hwell) hshort]
  | badIv hkeyed hcipher hlong hiv =>
    rw [Gate.screenLine_of_decide (Access.decide_of_keyed hkeyed _), Access.key,
      Access.sealing_of_badIv hcipher (hkeyed.key_ne_nil hwell) hlong hiv]

/-- A key that is long enough is cut to the size of the cipher. -/
theorem Keyed.admitted {key : Bytes} (h : line.Keyed gate.suite gate.keyring key)
    (hcipher : line.cipher ≠ .none) (hlong : line.cipher.keySize ≤ key.length)
    (hiv : line.iv.length = line.cipher.ivSize) :
    ∃ access sealing, line.Admitted gate access sealing :=
  let sealing : Sealing := {
    cipher := line.cipher
    key := key.take line.cipher.keySize
    iv := line.iv
    key_length := List.length_take_of_le hlong
    iv_length := hiv }
  ⟨_, sealing, .sealed h hcipher rfl hlong rfl rfl⟩

theorem admitted_or_denied_of_keyed {key : Bytes}
    (hkeyed : line.Keyed gate.suite gate.keyring key) :
    (∃ access sealing, line.Admitted gate access sealing) ∨
      ∃ code failure, line.Denied gate code failure := by
  by_cases hcipher : line.cipher = .none
  · exact .inl ⟨_, _, .known hkeyed hcipher⟩
  · by_cases hlong : line.cipher.keySize ≤ key.length
    · by_cases hiv : line.iv.length = line.cipher.ivSize
      · exact .inl (hkeyed.admitted hcipher hlong hiv)
      · exact .inr ⟨_, _, .badIv hkeyed hcipher hlong hiv⟩
    · exact .inr ⟨_, _, .shortKey hkeyed hcipher (Nat.lt_of_not_le hlong)⟩

theorem admitted_or_denied (gate : Gate) (line : RequestLine) :
    (∃ access sealing, line.Admitted gate access sealing) ∨
      ∃ code failure, line.Denied gate code failure := by
  cases hk : line.keyHash with
  | none =>
    by_cases hp : gate.keyring.passwords = []
    · by_cases hcipher : line.cipher = .none
      · exact .inl ⟨_, _, .anonymous hk hp hcipher⟩
      · exact .inr ⟨_, _, .keyless hk hp hcipher⟩
    · exact .inr ⟨_, _, .missing hk hp⟩
  | some keyHash =>
    by_cases hproven : ∃ password ∈ gate.keyring.passwords, keyHash.ProvenBy gate.suite password
    · obtain ⟨key, hkeyed⟩ := keyed_of_proven hk hproven
      exact admitted_or_denied_of_keyed hkeyed
    · by_cases hd : gate.keyring.passwords ≠ [] → (gate.suite.digest keyHash.algorithm).isSome
      · have hunproven : line.Unproven gate.suite gate.keyring :=
          ⟨keyHash, hk, hd, fun password hmem h => hproven ⟨password, hmem, h⟩⟩
        by_cases hignorable : line.Ignorable gate.policy
        · exact .inl ⟨_, _, .ignored hunproven hignorable⟩
        · exact .inr ⟨_, _, .unproven hunproven hignorable⟩
      · obtain ⟨hp, hnone⟩ := Classical.not_imp.1 hd
        exact .inr ⟨_, _, .unavailable hk (Option.not_isSome_iff_eq_none.1 hnone) hp⟩

section

variable (hwell : ∀ keyHash ∈ line.keyHash, keyHash.WellFormed)
include hwell

theorem denied_of_screenLine {failure : Failure} (h : gate.screenLine line = .error failure) :
    ∃ code, line.Denied gate code failure := by
  rcases admitted_or_denied gate line with ⟨access, sealing, hadmitted⟩ | ⟨code, _, hdenied⟩
  · cases (hadmitted.sound hwell).symm.trans h
  · cases (hdenied.sound hwell).symm.trans h
    exact ⟨code, hdenied⟩

theorem admitted_of_screenLine {admission : Admission} (h : gate.screenLine line = .ok admission) :
    admission.line = line ∧ line.Admitted gate admission.access admission.sealing := by
  rcases admitted_or_denied gate line with ⟨access, sealing, hadmitted⟩ | ⟨code, _, hdenied⟩
  · cases (hadmitted.sound hwell).symm.trans h
    exact ⟨rfl, hadmitted⟩
  · cases (hdenied.sound hwell).symm.trans h

end

/-- The sealing that a line is admitted with: none without a cipher, and otherwise the front of the
digest and the vector as it was sent. -/
theorem Admitted.sealing_eq {access : Access} {sealing : Sealing}
    (h : line.Admitted gate access sealing) :
    line.cipher = .none ∧ sealing = .clear ∨
      line.cipher ≠ .none ∧ ∃ key, line.Keyed gate.suite gate.keyring key ∧
        sealing.cipher = line.cipher ∧ sealing.key = key.take line.cipher.keySize ∧
        sealing.iv = line.iv := by
  cases h with
  | anonymous _ _ hcipher | known _ hcipher => exact .inl ⟨hcipher, rfl⟩
  | ignored _ hignorable => exact .inl ⟨hignorable.2.2, rfl⟩
  | sealed hkeyed hcipher hsame _ hkey hiv => exact .inr ⟨hcipher, _, hkeyed, hsame, hkey, hiv⟩

/-- A line is admitted if its sender is authentic or ignored, and has a key and a vector that fit
the cipher unless there is none. -/
theorem exists_admitted_iff : (∃ access sealing, line.Admitted gate access sealing) ↔
    (line.Authentic gate.suite gate.keyring ∨
      line.Unproven gate.suite gate.keyring ∧ line.Ignorable gate.policy) ∧
    (line.cipher = .none ∨ ∃ key, line.Keyed gate.suite gate.keyring key ∧
      line.cipher.keySize ≤ key.length ∧ line.iv.length = line.cipher.ivSize) := by
  constructor
  · rintro ⟨access, sealing, hadmitted⟩
    cases hadmitted with
    | anonymous hk hp hcipher =>
      refine ⟨.inl ?_, .inl hcipher⟩
      unfold RequestLine.Authentic
      rw [hk]
      exact hp
    | known hkeyed hcipher => exact ⟨.inl hkeyed.authentic, .inl hcipher⟩
    | ignored hunproven hignorable => exact ⟨.inr ⟨hunproven, hignorable⟩, .inl hignorable.2.2⟩
    | sealed hkeyed hcipher hsame hlong _ hiv =>
      have hfits : line.iv.length = line.cipher.ivSize := by rw [← hiv, ← hsame, sealing.iv_length]
      exact ⟨.inl hkeyed.authentic, .inr ⟨_, hkeyed, hlong, hfits⟩⟩
  · rintro ⟨hauthentic | ⟨hunproven, hignorable⟩, hfits⟩
    · by_cases hcipher : line.cipher = .none
      · unfold RequestLine.Authentic at hauthentic
        split at hauthentic
        · next hk => exact ⟨_, _, .anonymous hk hauthentic hcipher⟩
        · next keyHash hk =>
          obtain ⟨key, hkeyed⟩ := keyed_of_proven hk hauthentic
          exact ⟨_, _, .known hkeyed hcipher⟩
      · obtain ⟨key, hkeyed, hlong, hiv⟩ := hfits.resolve_left hcipher
        exact hkeyed.admitted hcipher hlong hiv
    · exact ⟨_, _, .ignored hunproven hignorable⟩

end RequestLine

/-! ## The request line of an exchange -/

theorem Gate.screen_of_parse {gate : Gate} {l : Bytes} {line : RequestLine}
    (h : RequestLine.parse (Bytes.dropFinalCr l) = .ok line) :
    gate.screen l = gate.screenLine line := by
  unfold screen
  rw [h]
  rfl

theorem Gate.screen_of_refused {gate : Gate} {l : Bytes} {reason : Rejection}
    (h : RequestLine.parse (Bytes.dropFinalCr l) = .error reason) :
    gate.screen l = .error (.rejected reason) := by
  unfold screen
  rw [h]
  rfl

/-- Whatever is denied, the input did not end. -/
theorem Gate.not_truncated_of_screen {gate : Gate} {l : Bytes} {failure : Failure}
    (h : gate.screen l = .error failure) (place : Truncation) : failure ≠ .truncated place := by
  cases hparse : RequestLine.parse (Bytes.dropFinalCr l) with
  | error reason =>
    rw [screen_of_refused hparse] at h
    cases h
    exact nofun
  | ok line =>
    rw [screen_of_parse hparse] at h
    obtain ⟨code, hdenied⟩ :=
      RequestLine.denied_of_screenLine (RequestLine.wellFormed_of_parse hparse) h
    cases hdenied <;> exact nofun

namespace Reading

open Bytes

variable {gate : Gate} {l rest : Bytes} {s : Store}

/-- A reading of which the first line was taken, and nothing else. -/
def afterLine (l rest : Bytes) (s : Store) : Reading where
  inbound := { unread := rest, consumed := l.length + 1 }
  store := s

/-- A cipher that is not granted ends the reading. -/
theorem settle_of_unfit {line : RequestLine} {access : Access} {reason : Rejection}
    (h : Access.sealing line access.key = .error reason) :
    ∃ r, settle gate line access (afterLine l rest s) = .error (.rejected reason) r ∧
      r.inbound.unread = rest ∧ r.store = s := by
  have hcipher : line.cipher ≠ .none := fun hcipher =>
    nomatch (Access.sealing_of_clear hcipher _).symm.trans h
  unfold settle grant
  rw [if_pos hcipher, h]
  exact ⟨_, rfl, rfl, rfl⟩

section

variable (hlf : lf ∉ l) (hshort : l.length ≤ Inbound.maxLine)
include hlf hshort

theorem readRequestLine_of_line :
    readRequestLine gate (start (l ++ lf :: rest) s) =
      (check (RequestLine.parse (dropFinalCr l)) >>= fun line =>
        decide gate line >>= settle gate line) (afterLine l rest s) := by
  have htake : Inbound.takeLine { unread := l ++ lf :: rest } = .ok (some (dropFinalCr l))
      { unread := rest, consumed := 0 + (l.length + 1) } :=
    Inbound.takeLine_of_line rfl hlf hshort rfl
  rw [Nat.zero_add] at htake
  exact readRequestLine_of_taken (r := start (l ++ lf :: rest) s) htake

/-- A line that is denied is all that is taken. -/
theorem readRequestLine_of_denied {failure : Failure} (h : gate.screen l = .error failure) :
    ∃ r, readRequestLine gate (start (l ++ lf :: rest) s) = .error failure r ∧
      r.inbound.unread = rest ∧ r.store = s := by
  rw [readRequestLine_of_line hlf hshort]
  rcases Except.bind_eq_error.1 h with hrefused | ⟨line, hparse, h⟩
  · obtain ⟨reason, hparse, rfl⟩ := Except.mapError_eq_error.1 hrefused
    rw [hparse]
    exact ⟨_, rfl, rfl, rfl⟩
  rw [bind_of_ok (check_eq_ok.2 ⟨Except.mapError_eq_ok.1 hparse, rfl⟩)]
  rcases Except.bind_eq_error.1 h with hdecide | ⟨access, hdecide, h⟩
  · unfold decide
    rw [hdecide]
    exact ⟨_, rfl, rfl, rfl⟩
  rw [bind_of_ok (decide_eq_ok.2 ⟨hdecide, rfl⟩)]
  rcases Except.bind_eq_error.1 h with hunfit | ⟨_, _, h⟩
  · obtain ⟨reason, hsealing, rfl⟩ := Except.mapError_eq_error.1 hunfit
    exact settle_of_unfit hsealing
  · cases h

/-- Behind a line that is admitted come the sealed headers. -/
theorem readRequestLine_of_admitted {admission : Admission} (h : gate.screen l = .ok admission) :
    readRequestLine gate (start (l ++ lf :: rest) s) =
      (openHeaders gate >>= fun _ => pure .requestHeaders)
        (past gate admission.line admission.access admission.sealing (afterLine l rest s)) := by
  obtain ⟨line, hparse, h⟩ := Except.bind_eq_ok.1 h
  obtain ⟨access, hdecide, h⟩ := Except.bind_eq_ok.1 h
  obtain ⟨sealing, hsealing, h⟩ := Except.bind_eq_ok.1 h
  cases h
  rw [readRequestLine_of_line hlf hshort,
    bind_of_ok (check_eq_ok.2 ⟨Except.mapError_eq_ok.1 hparse, rfl⟩),
    bind_of_ok (decide_eq_ok.2 ⟨hdecide, rfl⟩)]
  exact settle_of_sealing rfl (Except.mapError_eq_ok.1 hsealing)

end

end Reading

namespace Service

open Bytes

variable {service : Service} {l : Bytes}

theorem handle_of_denied {failure : Failure} (hlf : lf ∉ l) (hshort : l.length ≤ Inbound.maxLine)
    (h : service.gate.screen l = .error failure) (world : World) (rest : Bytes) :
    service.handle world (l ++ lf :: rest) = ⟨some (service.refuse failure), [], world, rest⟩ := by
  obtain ⟨r, hline, hrest, hstore⟩ : ∃ r,
      Reading.readRequestLine service.gate (.start (l ++ lf :: rest) world.store) =
          .error failure r ∧ r.inbound.unread = rest ∧ r.store = world.store :=
    Reading.readRequestLine_of_denied hlf hshort h
  have hparse : Reading.parse service.gate (.start (l ++ lf :: rest) world.store) =
      .error failure r := by
    have hplace := Gate.not_truncated_of_screen h
    unfold Reading.parse
    rw [Reading.finish_eq rfl, hline]
    cases failure with
    | truncated place => exact absurd rfl (hplace place)
    | _ => rfl
  rw [handle_of_unread hparse, hrest, hstore]

/-- What becomes of an input whose first line is `l`, as far as `l` decides it. -/
structure Screens (service : Service) (l : Bytes) : Prop where
  /-- An exchange whose line is denied ends there: the line and its line feed are taken, and a
  refusal is all that comes of it. -/
  denied : ∀ failure, service.gate.screen l = .error failure → ∀ world rest,
    service.handle world (l ++ lf :: rest) = ⟨some (service.refuse failure), [], world, rest⟩
  /-- The refusal is the same for every time, registry, store and rest of the input. -/
  independent : ∀ service' : Service, service'.gate.suite = service.gate.suite →
    service'.gate.keyring = service.gate.keyring → service'.gate.policy = service.gate.policy →
    service'.origin = service.origin → ∀ failure, service.gate.screen l = .error failure →
    ∀ world world' rest rest', (service'.handle world' (l ++ lf :: rest')).response =
      (service.handle world (l ++ lf :: rest)).response
  /-- An exchange whose line is admitted goes on with the sealed headers. -/
  admitted : ∀ admission, service.gate.screen l = .ok admission → ∀ rest store,
    Reading.readRequestLine service.gate (.start (l ++ lf :: rest) store) =
      (Reading.openHeaders service.gate >>= fun _ => pure .requestHeaders)
        (Reading.past service.gate admission.line admission.access admission.sealing
          (Reading.afterLine l rest store))
  passes : ∀ line, RequestLine.parse (dropFinalCr l) = .ok line →
    ((∃ admission, service.gate.screen l = .ok admission) ↔
      (line.Authentic service.gate.suite service.gate.keyring ∨
        line.Unproven service.gate.suite service.gate.keyring ∧
          line.Ignorable service.gate.policy) ∧
      (line.cipher = .none ∨ ∃ key, line.Keyed service.gate.suite service.gate.keyring key ∧
        line.cipher.keySize ≤ key.length ∧ line.iv.length = line.cipher.ivSize))
  /-- A line that does not pass is denied for a reason, and every reason has its code. -/
  reasons : ∀ line, RequestLine.parse (dropFinalCr l) = .ok line → ∀ failure,
    service.gate.screen l = .error failure ↔ ∃ code, line.Denied service.gate code failure
  coded : ∀ line, RequestLine.parse (dropFinalCr l) = .ok line → ∀ code failure,
    line.Denied service.gate code failure → ∀ world rest, ∃ response,
      (service.handle world (l ++ lf :: rest)).response = some response ∧
      response.status = .error ∧ response.headers.get? (ascii "Error-Code") = some code
  /-- The key is the front of the digest, and the vector is the one that was sent. -/
  sealing : ∀ line, RequestLine.parse (dropFinalCr l) = .ok line → ∀ admission,
    service.gate.screen l = .ok admission →
    line.cipher = .none ∧ admission.sealing = .clear ∨
      line.cipher ≠ .none ∧ ∃ key, line.Keyed service.gate.suite service.gate.keyring key ∧
        admission.sealing.cipher = line.cipher ∧
        admission.sealing.key = key.take line.cipher.keySize ∧ admission.sealing.iv = line.iv

/-- The first line decides alone how far an exchange gets. -/
theorem screens_firstLine (hlf : lf ∉ l) (hshort : l.length ≤ Inbound.maxLine) :
    service.Screens l where
  denied failure h world rest := handle_of_denied hlf hshort h world rest
  independent service' hsuite hkeyring hpolicy horigin failure h world world' rest rest' := by
    have hsame : service'.gate.screen l = service.gate.screen l := by
      unfold Gate.screen Gate.screenLine
      rw [hsuite, hkeyring, hpolicy]
    rw [handle_of_denied hlf hshort h, handle_of_denied hlf hshort (hsame.trans h)]
    unfold refuse
    rw [horigin]
  admitted admission h rest store := Reading.readRequestLine_of_admitted hlf hshort h
  passes line hparse := by
    rw [← RequestLine.exists_admitted_iff, Gate.screen_of_parse hparse]
    have hwell := RequestLine.wellFormed_of_parse hparse
    constructor
    · rintro ⟨admission, h⟩
      exact ⟨_, _, (RequestLine.admitted_of_screenLine hwell h).2⟩
    · rintro ⟨access, sealing, h⟩
      exact ⟨_, h.sound hwell⟩
  reasons line hparse failure := by
    rw [Gate.screen_of_parse hparse]
    have hwell := RequestLine.wellFormed_of_parse hparse
    exact ⟨RequestLine.denied_of_screenLine hwell, fun ⟨_, h⟩ => h.sound hwell⟩
  coded line hparse code failure h world rest := by
    have hdenied : service.gate.screen l = .error failure := by
      rw [Gate.screen_of_parse hparse]
      exact h.sound (RequestLine.wellFormed_of_parse hparse)
    have hresponse := congrArg Outcome.response (handle_of_denied hlf hshort hdenied world rest)
    rw [← h.code_eq]
    exact (coded_of_refuse hresponse).2 rfl
  sealing line hparse admission h := by
    rw [Gate.screen_of_parse hparse] at h
    obtain ⟨_, hadmitted⟩ :=
      RequestLine.admitted_of_screenLine (RequestLine.wellFormed_of_parse hparse) h
    exact hadmitted.sealing_eq

/-- A request line without the key hash that is required. -/
def bareLine : Bytes := ascii "GNTP/1.0 REGISTER NONE"

theorem screens_firstLine_bare :
    let service : Service :=
      { gate := { suite := .full, keyring := { passwords := [ascii "secret"] } } }
    let outcome := service.handle { store := .discard } (bareLine ++ lf :: ascii "rest")
    lf ∉ bareLine ∧ bareLine.length ≤ Inbound.maxLine ∧ (∃ response,
      outcome.response = some response ∧ response.status = .error ∧
        response.headers.get? (ascii "Error-Code") = some (ascii "400")) ∧
      outcome.rest = ascii "rest" := by
  intro service outcome
  have hlf : lf ∉ bareLine := by decide
  have hshort : bareLine.length ≤ Inbound.maxLine := by decide
  have hparse : RequestLine.parse (dropFinalCr bareLine) = .ok ⟨.register, .none, [], none⟩ := by
    decide +kernel
  have hdenied : RequestLine.Denied service.gate ⟨.register, .none, [], none⟩ (ascii "400")
      (.rejected .missingKeyHash) := .missing rfl (by decide)
  have hscreens : service.Screens bareLine := screens_firstLine hlf hshort
  have hrefused := (hscreens.reasons _ hparse _).2 ⟨_, hdenied⟩
  refine ⟨hlf, hshort, hscreens.coded _ hparse _ _ hdenied _ _, ?_⟩
  exact congrArg Outcome.rest (hscreens.denied _ hrefused _ _)

end Service

end Gntp
