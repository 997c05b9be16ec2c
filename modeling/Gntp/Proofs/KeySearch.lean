import Gntp.Proofs.Admission

/-!
# The search for a key

With a hash and a salt in hexadecimal, the search through the passwords finds the hash itself if a
password gives it with the salt, and nothing otherwise (`Keyring.matchingKey_of_decoded`). So only
the set of the passwords counts and what the texts spell, and a password more takes nothing away
(`Keyring.Finds`). If one of the texts is not hexadecimal, there is no search
(`Keyring.matchingKey_of_unreadable`).
-/

namespace Gntp

/-! ## Texts that differ in the case of letters -/

namespace Hex

variable {text text' bytes : Bytes}

theorem isDigit_lower (b : UInt8) : IsDigit (Bytes.lower b) ↔ IsDigit b := by
  rw [← isSome_digitValue?_iff, ← isSome_digitValue?_iff]
  have hall : ∀ b : UInt8, (digitValue? (Bytes.lower b)).isSome = (digitValue? b).isSome := by
    decide +kernel
  rw [hall]

theorem paired_lower (text : Bytes) : Paired (text.map Bytes.lower) ↔ Paired text := by
  unfold Paired
  rw [List.length_map, List.forall_mem_map]
  simp only [isDigit_lower]

/-- The case of the letters of a text says nothing. -/
theorem spells_of_lower (hcase : text'.map Bytes.lower = text.map Bytes.lower)
    (h : Spells text bytes) : Spells text' bytes := by
  obtain ⟨hpaired, hspell⟩ := h
  refine ⟨?_, hcase.trans hspell⟩
  rwa [← paired_lower, hcase, paired_lower]

end Hex

namespace Keyring

variable {suite : Suite} {algorithm : HashAlgorithm} {digest : Bytes → Bytes} {k k' : Keyring}
  {hashHex saltHex hash salt key : Bytes}

/-- A password gives this hash with this salt. -/
def Proves (digest : Bytes → Bytes) (k : Keyring) (salt hash : Bytes) : Prop :=
  ∃ password ∈ k.passwords, digest (password ++ salt) = hash

/-! ## What is found -/

open Classical in
/-- What is found is the hash itself, and only if it is the digest of a password and the salt. -/
theorem matchingKey_of_decoded (hd : suite.digest algorithm = some digest)
    (hhash : Hex.decode hashHex = .ok hash) (hsalt : Hex.decode saltHex = .ok salt) :
    k.matchingKey suite algorithm hashHex saltHex =
      .ok (if k.Proves digest salt hash then some hash else none) := by
  have hsearch : k.matchingKey suite algorithm hashHex saltHex =
      findKey suite algorithm hash salt k.passwords :=
    matchingKey_eq hhash hsalt
  rw [hsearch]
  split
  · next hproves =>
    obtain ⟨password, hmem, rfl⟩ := hproves
    exact findKey_of_mem hd hmem
  · next hnone =>
    apply findKey_of_unproven
    · intro _
      rw [hd]
      rfl
    · rintro password hmem digest' hd' rfl
      cases hd.symm.trans hd'
      exact hnone ⟨password, hmem, rfl⟩

theorem matchingKey_eq_some (hd : suite.digest algorithm = some digest)
    (hhash : Hex.decode hashHex = .ok hash) (hsalt : Hex.decode saltHex = .ok salt) :
    k.matchingKey suite algorithm hashHex saltHex = .ok (some key) ↔
      key = hash ∧ k.Proves digest salt hash := by
  rw [matchingKey_of_decoded hd hhash hsalt]
  split
  · next hproves => simp [hproves, eq_comm]
  · next hnone => simp [hnone]

theorem matchingKey_eq_none (hd : suite.digest algorithm = some digest)
    (hhash : Hex.decode hashHex = .ok hash) (hsalt : Hex.decode saltHex = .ok salt) :
    k.matchingKey suite algorithm hashHex saltHex = .ok none ↔ ¬ k.Proves digest salt hash := by
  rw [matchingKey_of_decoded hd hhash hsalt]
  split
  · next hproves => simp [hproves]
  · next hnone => simp [hnone]

/-- A text that is not hexadecimal is refused before any password is looked at. -/
theorem matchingKey_of_unreadable (h : ¬ (Hex.Paired hashHex ∧ Hex.Paired saltHex)) :
    ∃ fault, k.matchingKey suite algorithm hashHex saltHex = .error (.hex fault) := by
  unfold matchingKey
  by_cases hhash : Hex.Paired hashHex
  · obtain ⟨hash, hspells⟩ := Hex.exists_spells hhash
    rw [Hex.decode_eq_ok.2 hspells, Hex.decode_of_not_paired fun hsalt => h ⟨hhash, hsalt⟩]
    exact ⟨_, rfl⟩
  · rw [Hex.decode_of_not_paired hhash]
    exact ⟨_, rfl⟩

/-! ## What the search depends on -/

theorem proves_congr (h : ∀ password, password ∈ k'.passwords ↔ password ∈ k.passwords) :
    k'.Proves digest salt hash ↔ k.Proves digest salt hash := by
  unfold Proves
  simp only [h]

theorem Proves.mono (h : k.Proves digest salt hash) (hsub : k.passwords ⊆ k'.passwords) :
    k'.Proves digest salt hash := by
  obtain ⟨password, hmem, heq⟩ := h
  exact ⟨password, hsub hmem, heq⟩

/-- What a search with two texts in hexadecimal comes to. -/
structure Finds (suite : Suite) (algorithm : HashAlgorithm) (digest : Bytes → Bytes) (k : Keyring)
    (hashHex saltHex hash salt : Bytes) : Prop where
  /-- A key is found if a password gives the hash with the salt, and then it is the hash. -/
  some_iff : ∀ key, k.matchingKey suite algorithm hashHex saltHex = .ok (some key) ↔
    key = hash ∧ ∃ password ∈ k.passwords, digest (password ++ salt) = hash
  none_iff : k.matchingKey suite algorithm hashHex saltHex = .ok none ↔
    ∀ password ∈ k.passwords, digest (password ++ salt) ≠ hash
  /-- Neither the order of the passwords nor their repetition makes a difference. -/
  same_passwords : ∀ k' : Keyring,
    (∀ password, password ∈ k'.passwords ↔ password ∈ k.passwords) →
      k'.matchingKey suite algorithm hashHex saltHex = k.matchingKey suite algorithm hashHex saltHex
  /-- The case of the letters makes no difference. -/
  same_letters : ∀ hashHex' saltHex', hashHex'.map Bytes.lower = hashHex.map Bytes.lower →
    saltHex'.map Bytes.lower = saltHex.map Bytes.lower →
      k.matchingKey suite algorithm hashHex' saltHex' =
        k.matchingKey suite algorithm hashHex saltHex
  /-- What was found is still found with a password more. -/
  one_more : ∀ password key, k.matchingKey suite algorithm hashHex saltHex = .ok (some key) →
    (k.add password).matchingKey suite algorithm hashHex saltHex = .ok (some key)

theorem finds_of_decoded (hd : suite.digest algorithm = some digest)
    (hhash : Hex.decode hashHex = .ok hash) (hsalt : Hex.decode saltHex = .ok salt) :
    Finds suite algorithm digest k hashHex saltHex hash salt where
  some_iff _ := matchingKey_eq_some hd hhash hsalt
  none_iff := by
    rw [matchingKey_eq_none hd hhash hsalt]
    unfold Proves
    push Not
    rfl
  same_passwords k' hsame := by
    rw [matchingKey_of_decoded hd hhash hsalt, matchingKey_of_decoded hd hhash hsalt,
      proves_congr hsame]
  same_letters hashHex' saltHex' hhashCase hsaltCase := by
    have hhash' : Hex.decode hashHex' = .ok hash :=
      Hex.decode_eq_ok.2 (Hex.spells_of_lower hhashCase (Hex.decode_eq_ok.1 hhash))
    have hsalt' : Hex.decode saltHex' = .ok salt :=
      Hex.decode_eq_ok.2 (Hex.spells_of_lower hsaltCase (Hex.decode_eq_ok.1 hsalt))
    rw [matchingKey_of_decoded hd hhash' hsalt', matchingKey_of_decoded hd hhash hsalt]
  one_more password key hfound := by
    rw [matchingKey_eq_some hd hhash hsalt] at hfound ⊢
    obtain ⟨rfl, hproves⟩ := hfound
    exact ⟨rfl, hproves.mono (List.subset_append_left _ _)⟩

/-- The search with any two texts, whatever the digest: if both are hexadecimal, it finds the hash
or nothing, and otherwise it fails. -/
theorem matchingKey_searches (hd : suite.digest algorithm = some digest) (k : Keyring)
    (hashHex saltHex : Bytes) :
    (Hex.Paired hashHex ∧ Hex.Paired saltHex → ∃ hash salt, Hex.decode hashHex = .ok hash ∧
      Hex.decode saltHex = .ok salt ∧ Finds suite algorithm digest k hashHex saltHex hash salt) ∧
    (¬ (Hex.Paired hashHex ∧ Hex.Paired saltHex) → ∃ fault,
      k.matchingKey suite algorithm hashHex saltHex = .error (.hex fault) ∧
        (Failure.hex fault).report = .fault .invalidArgument fault.message) := by
  constructor
  · rintro ⟨hhash, hsalt⟩
    obtain ⟨hash, hspellsHash⟩ := Hex.exists_spells hhash
    obtain ⟨salt, hspellsSalt⟩ := Hex.exists_spells hsalt
    have hhash := Hex.decode_eq_ok.2 hspellsHash
    have hsalt := Hex.decode_eq_ok.2 hspellsSalt
    exact ⟨hash, salt, hhash, hsalt, finds_of_decoded hd hhash hsalt⟩
  · intro h
    obtain ⟨fault, hfault⟩ := matchingKey_of_unreadable (k := k) h
    exact ⟨fault, hfault, rfl⟩

/-- Two passwords, one of them given twice. -/
def exampleRing : Keyring := ⟨[ascii "guess", ascii "secret", ascii "secret"]⟩

theorem matchingKey_searches_capitals :
    Suite.full.digest .md5 = some HashAlgorithm.md5.hash ∧
      Hex.Paired (ascii "5062B9292628BC5B48CF58EF3D1770C7") ∧ Hex.Paired (ascii "Ab") ∧
      exampleRing.matchingKey .full .md5 (ascii "5062B9292628BC5B48CF58EF3D1770C7") (ascii "Ab") =
        .ok (some (HashAlgorithm.md5.hash (ascii "secret" ++ [0xab]))) := by
  have hhash : Hex.decode (ascii "5062B9292628BC5B48CF58EF3D1770C7") =
      .ok (HashAlgorithm.md5.hash (ascii "secret" ++ [0xab])) := by
    decide +kernel
  have hsalt : Hex.decode (ascii "Ab") = .ok [0xab] := by decide +kernel
  have hdigest : Suite.full.digest .md5 = some HashAlgorithm.md5.hash := rfl
  have hpaired := And.intro (Hex.spells_of_decode hhash).1 (Hex.spells_of_decode hsalt).1
  obtain ⟨hash, salt, hhash', hsalt', hfinds⟩ :=
    (matchingKey_searches hdigest exampleRing _ _).1 hpaired
  cases hhash.symm.trans hhash'
  cases hsalt.symm.trans hsalt'
  refine ⟨hdigest, hpaired.1, hpaired.2, (hfinds.some_iff _).2 ⟨rfl, ascii "secret", ?_, rfl⟩⟩
  exact List.mem_cons_of_mem _ List.mem_cons_self

end Keyring

end Gntp
