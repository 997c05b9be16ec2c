import Gntp.Request.Reading

/-!
# Who is authentic

The first line of an input (`firstLine`, `Opens`) and what makes the request line that stands there
authentic (`RequestLine.Authentic`): a password whose digest with the salt is the hash that was
sent. Both are said of the bytes alone, without the reader. `authentic_iff_decide` is the gate:
access is granted to an authentic request line, and to no other.
-/

namespace Gntp

/-- The first line of an input: the bytes before the first line feed, without a carriage return at
their end. -/
def firstLine (input : Bytes) : Bytes := Bytes.dropFinalCr (input.takeWhile (· ≠ Bytes.lf))

/-- An input starts with a request line, and with one that is not too long to be read. -/
structure Opens (input : Bytes) (line : RequestLine) : Prop where
  short : (input.takeWhile (· ≠ Bytes.lf)).length ≤ Inbound.maxLine
  parsed : RequestLine.parse (firstLine input) = .ok line

/-- An input starts with one request line at most. -/
theorem Opens.unique {input : Bytes} {line line' : RequestLine} (h : Opens input line)
    (h' : Opens input line') : line = line' := by
  have heq := h.parsed.symm.trans h'.parsed
  cases heq
  rfl

/-- The digest of this password and the salt is the hash that was sent. -/
def KeyHash.ProvenBy (suite : Suite) (keyHash : KeyHash) (password : Bytes) : Prop :=
  ∃ digest hash salt, suite.digest keyHash.algorithm = some digest ∧
    Hex.decode keyHash.hash = .ok hash ∧ Hex.decode keyHash.salt = .ok salt ∧
    digest (password ++ salt) = hash

/-- The sender knows a password, or there is none to know. -/
def RequestLine.Authentic (suite : Suite) (keyring : Keyring) (line : RequestLine) : Prop :=
  match line.keyHash with
  | none => keyring.passwords = []
  | some keyHash => ∃ password ∈ keyring.passwords, keyHash.ProvenBy suite password

/-- Where a password is to be known, only a key hash makes a request line authentic. -/
theorem RequestLine.Authentic.proven {suite : Suite} {keyring : Keyring} {line : RequestLine}
    (h : line.Authentic suite keyring) (hk : keyring.passwords ≠ []) :
    ∃ keyHash, line.keyHash = some keyHash ∧
      ∃ password ∈ keyring.passwords, keyHash.ProvenBy suite password := by
  unfold RequestLine.Authentic at h
  split at h
  · exact absurd h hk
  · next keyHash heq => exact ⟨keyHash, heq, h⟩

/-! ## The decision -/

theorem Keyring.proven_of_findKey {suite : Suite} {algorithm : HashAlgorithm}
    {hash salt key : Bytes} {passwords : List Bytes}
    (h : findKey suite algorithm hash salt passwords = .ok (some key)) :
    ∃ password ∈ passwords, deriveKey suite algorithm password salt = .ok hash := by
  induction passwords with
  | nil => cases h
  | cons password others ih =>
    rw [findKey] at h
    cases hd : deriveKey suite algorithm password salt with
    | error e => rw [hd] at h; cases h
    | ok candidate =>
      rw [hd] at h
      by_cases hc : candidate = hash
      · subst hc
        exact ⟨password, List.mem_cons_self, hd⟩
      · obtain ⟨found, hmem, hf⟩ := ih (by simpa [bind, Except.bind, hc] using h)
        exact ⟨found, List.mem_cons_of_mem _ hmem, hf⟩

theorem Keyring.proven_of_matchingKey {suite : Suite} {keyring : Keyring} {keyHash : KeyHash}
    {key : Bytes}
    (h : keyring.matchingKey suite keyHash.algorithm keyHash.hash keyHash.salt = .ok (some key)) :
    ∃ password ∈ keyring.passwords, keyHash.ProvenBy suite password := by
  unfold matchingKey at h
  cases hh : Hex.decode keyHash.hash with
  | error e => rw [hh] at h; cases h
  | ok hash =>
    cases hs : Hex.decode keyHash.salt with
    | error e => rw [hh, hs] at h; cases h
    | ok salt =>
      rw [hh, hs] at h
      obtain ⟨password, hmem, hkey⟩ := proven_of_findKey h
      unfold deriveKey digest at hkey
      split at hkey
      · cases hkey
      · next digest hd =>
        exact ⟨password, hmem, digest, hash, salt, hd, hh, hs, Except.ok.inj hkey⟩

/-- Access is granted to an authentic request line only. -/
theorem Access.authentic_of_decide {suite : Suite} {keyring : Keyring} {policy : Policy}
    {line : RequestLine} {key : Bytes}
    (h : decide suite keyring policy line = .ok (authorized key)) :
    line.Authentic suite keyring := by
  unfold decide at h
  unfold RequestLine.Authentic
  cases hkey : line.keyHash with
  | none =>
    rw [hkey] at h
    dsimp only at h
    split at h
    · assumption
    · cases h
  | some keyHash =>
    rw [hkey] at h
    dsimp only at h
    cases hm : keyring.matchingKey suite keyHash.algorithm keyHash.hash keyHash.salt with
    | error e => rw [hm] at h; cases h
    | ok found =>
      cases found with
      | some found => exact Keyring.proven_of_matchingKey hm
      | none =>
        rw [hm] at h
        simp only [bind, Except.bind] at h
        split at h <;> cases h

theorem Keyring.findKey_of_mem {suite : Suite} {algorithm : HashAlgorithm}
    {digest : Bytes → Bytes} {password salt : Bytes} {passwords : List Bytes}
    (hd : suite.digest algorithm = some digest) (hmem : password ∈ passwords) :
    findKey suite algorithm (digest (password ++ salt)) salt passwords =
      .ok (some (digest (password ++ salt))) := by
  have hkey (candidate : Bytes) :
      deriveKey suite algorithm candidate salt = .ok (digest (candidate ++ salt)) := by
    rw [deriveKey, Keyring.digest, hd]
  induction passwords with
  | nil => cases hmem
  | cons first others ih =>
    rw [findKey, hkey]
    change (if digest (first ++ salt) = digest (password ++ salt) then
      Except.ok (some (digest (first ++ salt))) else _) = _
    split
    · next heq => rw [heq]
    · next hne =>
      rcases List.mem_cons.1 hmem with rfl | hmem
      · exact absurd rfl hne
      · exact ih hmem

/-- The key of whoever knows a password is the hash that was sent. -/
theorem Access.decide_of_proven {suite : Suite} {keyring : Keyring} {line : RequestLine}
    {keyHash : KeyHash} {hash : Bytes} (hk : line.keyHash = some keyHash)
    (hproven : ∃ password ∈ keyring.passwords, keyHash.ProvenBy suite password)
    (hhash : Hex.decode keyHash.hash = .ok hash) (policy : Policy) :
    decide suite keyring policy line = .ok (authorized hash) := by
  obtain ⟨password, hmem, digest, found, salt, hd, hh, hs, rfl⟩ := hproven
  cases hh.symm.trans hhash
  have hfound : keyring.matchingKey suite keyHash.algorithm keyHash.hash keyHash.salt =
      .ok (some (digest (password ++ salt))) := by
    unfold Keyring.matchingKey
    rw [hh, hs]
    exact Keyring.findKey_of_mem hd hmem
  unfold decide
  rw [hk]
  dsimp only
  rw [hfound]
  rfl

/-- Access is granted to every authentic request line. -/
theorem Access.decide_of_authentic {suite : Suite} {keyring : Keyring} {line : RequestLine}
    (h : line.Authentic suite keyring) (policy : Policy) :
    ∃ key, decide suite keyring policy line = .ok (authorized key) := by
  unfold RequestLine.Authentic at h
  cases hkey : line.keyHash with
  | none =>
    rw [hkey] at h
    refine ⟨[], ?_⟩
    unfold decide
    rw [hkey]
    exact if_pos h
  | some keyHash =>
    rw [hkey] at h
    have hhex : ∃ hash, Hex.decode keyHash.hash = .ok hash := by
      obtain ⟨_, _, _, hash, _, _, hhash, _⟩ := h
      exact ⟨hash, hhash⟩
    obtain ⟨hash, hhash⟩ := hhex
    exact ⟨hash, decide_of_proven hkey h hhash policy⟩

theorem Access.authentic_iff_decide {suite : Suite} {keyring : Keyring} {line : RequestLine}
    (policy : Policy) : line.Authentic suite keyring ↔
      ∃ key, decide suite keyring policy line = .ok (authorized key) :=
  ⟨fun h => decide_of_authentic h policy, fun ⟨_, h⟩ => authentic_of_decide h⟩

/-- Only a notification in the clear is ignored, and only if that is the policy. -/
theorem Access.notify_of_decide {suite : Suite} {keyring : Keyring} {policy : Policy}
    {line : RequestLine} (h : decide suite keyring policy line = .ok ignored) :
    policy = .ignoreNotify ∧ line.messageType = .notify ∧ line.cipher = .none := by
  unfold decide at h
  split at h
  · split at h <;> cases h
  · next keyHash heq =>
    cases hm : keyring.matchingKey suite keyHash.algorithm keyHash.hash keyHash.salt with
    | error e => rw [hm] at h; cases h
    | ok found =>
      rw [hm] at h
      cases found with
      | some found => cases h
      | none =>
        simp only [bind, Except.bind] at h
        split at h
        · next hp => exact hp
        · cases h

/-- Whoever is ignored has sent a key hash that no password proves. -/
theorem Access.unproven_of_decide {suite : Suite} {keyring : Keyring} {policy : Policy}
    {line : RequestLine} (h : decide suite keyring policy line = .ok ignored) :
    ∃ keyHash, line.keyHash = some keyHash ∧
      ∀ password ∈ keyring.passwords, ¬ keyHash.ProvenBy suite password := by
  have hstranger : ¬ line.Authentic suite keyring := by
    intro hauthentic
    obtain ⟨key, hkey⟩ := (authentic_iff_decide policy).1 hauthentic
    cases h.symm.trans hkey
  cases hk : line.keyHash with
  | none =>
    unfold decide at h
    rw [hk] at h
    dsimp only at h
    split at h <;> cases h
  | some keyHash =>
    refine ⟨keyHash, rfl, fun password hmem hproven => hstranger ?_⟩
    unfold RequestLine.Authentic
    rw [hk]
    exact ⟨password, hmem, hproven⟩

end Gntp
