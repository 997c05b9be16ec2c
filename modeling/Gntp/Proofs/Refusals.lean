import Gntp.Proofs.Fields
import Gntp.Request.Reading

/-!
# What refusals tell

Every refusal of what a sender has sent comes with a code of its own, none with that of an internal
error: there is one lemma for each function that refuses (`Blames`). What is left to go wrong on the
request line is decided by the keyring, which decodes again what the request line was checked for
(`RequestLine.hexadecimal_of_parse`), so it comes to a decision while the hash functions are at hand
(`Access.fromSender_of_decide`).
-/

namespace Gntp

/-- The code that a failure is told with. -/
def Report.code : Report → ErrorCode
  | rejection code _ => code
  | fault .decryption _ => .invalidRequest
  | fault _ _ => .internalServerError

/-- A failure that is none of the service: the input ends before the request does, or the sender is
told a code other than that of an internal error. -/
def Failure.FromSender (failure : Failure) : Prop :=
  (∃ place, failure = .truncated place) ∨ failure.report.code ≠ .internalServerError

theorem Failure.FromSender.truncated (place : Truncation) : FromSender (.truncated place) :=
  .inl ⟨place, rfl⟩

theorem Failure.FromSender.decryption {fault : CipherFault} (h : fault.kind = .decryption) :
    FromSender (.cipher fault) := by
  refine .inr ?_
  rw [Failure.report, h]
  exact nofun

/-- Whatever this refuses, it refuses for something that the sender is told. -/
def Blames {α : Type} (outcome : Except Rejection α) : Prop :=
  ∀ reason, outcome = .error reason → reason.code ≠ .internalServerError

namespace Blames

variable {α β : Type}

theorem ok (a : α) : Blames (.ok a) := nofun

theorem error {reason : Rejection} (h : reason.code ≠ .internalServerError) :
    Blames (.error reason : Except Rejection α) := by
  intro reason' heq
  cases heq
  exact h

theorem bind {x : Except Rejection α} {f : α → Except Rejection β} (hx : Blames x)
    (hf : ∀ a, Blames (f a)) : Blames (x >>= f) := by
  cases x with
  | ok a => exact hf a
  | error reason => exact .error (hx reason rfl)

theorem mapError {ε : Type} {f : ε → Rejection} {x : Except ε α}
    (h : ∀ e, (f e).code ≠ .internalServerError) : Blames (x.mapError f) := by
  cases x with
  | ok a => exact .ok a
  | error e => exact .error (h e)

theorem fromSender {x : Except Rejection α} {reason : Rejection} (hx : Blames x)
    (h : x = .error reason) : Failure.FromSender (.rejected reason) := .inr (hx reason h)

end Blames

/-! ## Refusals -/

theorem RequestLine.parseCipher_blames (field : Bytes) : Blames (parseCipher field) := by
  unfold parseCipher
  dsimp only
  split
  · exact .error nofun
  · exact .bind (.mapError nofun) fun _ => .ok _

theorem RequestLine.parseKeyHash_blames (field : Bytes) : Blames (parseKeyHash field) := by
  unfold parseKeyHash
  repeat' split
  all_goals first | exact .ok _ | exact .error nofun

theorem RequestLine.parseFields_blames (typeName cipherField : Bytes)
    (keyHashField : Option Bytes) : Blames (parseFields typeName cipherField keyHashField) := by
  unfold parseFields
  split
  · exact .error nofun
  · refine .bind (parseCipher_blames _) fun _ => ?_
    cases keyHashField with
    | none => exact .ok _
    | some field => exact .bind (parseKeyHash_blames field) fun _ => .ok _

theorem RequestLine.checkProtocol_blames (field : Bytes) : Blames (checkProtocol field) := by
  unfold checkProtocol
  repeat' split
  all_goals first | exact .ok _ | exact .error nofun

theorem RequestLine.parse_blames (line : Bytes) : Blames (parse line) := by
  refine .bind (checkProtocol_blames _) fun _ => ?_
  split
  · exact parseFields_blames _ _ _
  · exact parseFields_blames _ _ _
  · exact .error nofun

theorem Access.sealing_blames (line : RequestLine) (key : Bytes) : Blames (sealing line key) := by
  unfold sealing
  split
  · exact .ok _
  · split
    · exact .error nofun
    · exact .mapError nofun

theorem Headers.parseLine_blames (line : Bytes) : Blames (parseLine line) := by
  unfold parseLine
  split
  · exact .error nofun
  · exact .error nofun
  · exact .ok _

theorem Headers.record_blames (h : Headers) (line : Bytes) : Blames (h.record line) :=
  .bind (parseLine_blames line) fun _ => .ok _

theorem Headers.reference?_blames (value : Bytes) : Blames (reference? value) := by
  unfold reference?
  split
  · exact .ok _
  · exact .error nofun
  · exact .ok _

theorem TypeDeclaration.ofHeaders_blames (h : Headers) : Blames (ofHeaders h) := by
  unfold ofHeaders
  split
  · exact .error nofun
  · exact .error nofun
  · exact .ok _

theorem Attachments.attach_blames (a : Attachments) (resource : Resource) :
    Blames (a.attach resource) := by
  unfold attach
  split
  · exact .error nofun
  · exact .ok _

theorem Payload.announced_blames (h : Headers) : Blames (announced h) := by
  unfold announced
  split
  · exact .error nofun
  · exact .error nofun
  · split
    · exact .error nofun
    · refine .bind ?_ fun _ => .ok _
      unfold parseLength
      split
      · exact .error nofun
      · split
        · exact .error nofun
        · exact .ok _

theorem Reading.parseTypeCount_blames (text : Bytes) : Blames (parseTypeCount text) := by
  unfold parseTypeCount
  split
  · exact .ok _
  · exact .error nofun

theorem Reading.checkNew_blames (r : Reading) : Blames r.checkNew := by
  unfold checkNew
  split
  · exact .ok _
  · split
    · exact .error nofun
    · exact .ok _

/-! ## The request line -/

theorem Except.bind_eq_ok {ε α β : Type} {x : Except ε α} {f : α → Except ε β} {b : β} :
    x >>= f = .ok b ↔ ∃ a, x = .ok a ∧ f a = .ok b := by
  cases x with
  | ok a => exact ⟨fun h => ⟨a, rfl, h⟩, fun ⟨_, ha, h⟩ => by cases ha; exact h⟩
  | error e => exact ⟨nofun, nofun⟩

theorem Except.bind_eq_error {ε α β : Type} {x : Except ε α} {f : α → Except ε β} {e : ε} :
    x >>= f = .error e ↔ x = .error e ∨ ∃ a, x = .ok a ∧ f a = .error e := by
  cases x with
  | ok a =>
    constructor
    · exact fun h => .inr ⟨a, rfl, h⟩
    · rintro (h | ⟨_, ha, h⟩)
      · cases h
      · cases ha
        exact h
  | error e' =>
    constructor
    · intro h
      cases h
      exact .inl rfl
    · rintro (h | ⟨_, ha, _⟩)
      · cases h
        rfl
      · cases ha

theorem Except.mapError_eq_ok {ε ε' α : Type} {x : Except ε α} {f : ε → ε'} {a : α} :
    x.mapError f = .ok a ↔ x = .ok a := by
  cases x with
  | ok a' => exact ⟨fun h => by cases h; rfl, fun h => by cases h; rfl⟩
  | error e => exact ⟨nofun, nofun⟩

theorem Except.mapError_eq_error {ε ε' α : Type} {x : Except ε α} {f : ε → ε'} {e' : ε'} :
    x.mapError f = .error e' ↔ ∃ e, x = .error e ∧ f e = e' := by
  cases x with
  | ok a => exact ⟨nofun, nofun⟩
  | error e =>
    constructor
    · intro h
      cases h
      exact ⟨e, rfl, rfl⟩
    · rintro ⟨_, h, rfl⟩
      cases h
      rfl

/-- Both parts of a key hash can be read. -/
def KeyHash.Hexadecimal (keyHash : KeyHash) : Prop :=
  (∃ hash, Hex.decode keyHash.hash = .ok hash) ∧ ∃ salt, Hex.decode keyHash.salt = .ok salt

namespace RequestLine

variable {line : RequestLine} {keyHash : KeyHash}

theorem hexadecimal_of_parseFields {typeName cipherField : Bytes} {keyHashField : Option Bytes}
    (h : parseFields typeName cipherField keyHashField = .ok line)
    (hk : line.keyHash = some keyHash) : keyHash.Hexadecimal := by
  unfold parseFields at h
  split at h
  · cases h
  · obtain ⟨_, _, h⟩ := Except.bind_eq_ok.1 h
    cases keyHashField with
    | none =>
      cases h
      cases hk
    | some field =>
      obtain ⟨parsed, hfield, h⟩ := Except.bind_eq_ok.1 h
      cases h
      cases hk
      obtain ⟨_, _, _, hhex⟩ := fields_of_parseKeyHash hfield
      exact hhex

/-- What is accepted on the request line is decoded again without fault. -/
theorem hexadecimal_of_parse {text : Bytes} (h : parse text = .ok line)
    (hk : line.keyHash = some keyHash) : keyHash.Hexadecimal := by
  obtain ⟨_, _, h⟩ := Except.bind_eq_ok.1 h
  split at h
  · exact hexadecimal_of_parseFields h hk
  · exact hexadecimal_of_parseFields h hk
  · cases h

end RequestLine

theorem Keyring.findKey_total {suite : Suite} {algorithm : HashAlgorithm}
    (hd : (suite.digest algorithm).isSome) (hash salt : Bytes) (passwords : List Bytes) :
    ∃ key?, findKey suite algorithm hash salt passwords = .ok key? := by
  obtain ⟨digest, hdigest⟩ := Option.isSome_iff_exists.1 hd
  induction passwords with
  | nil => exact ⟨none, rfl⟩
  | cons password others ih =>
    rw [findKey, deriveKey, Keyring.digest, hdigest]
    change ∃ key?, (if digest (password ++ salt) = hash then
      Except.ok (some (digest (password ++ salt))) else _) = .ok key?
    split
    · exact ⟨_, rfl⟩
    · exact ih

section

variable {suite : Suite} (hdigests : ∀ algorithm, (suite.digest algorithm).isSome)
include hdigests

theorem Access.fromSender_of_decide {keyring : Keyring} {policy : Policy} {line : RequestLine}
    {failure : Failure} (hhex : ∀ keyHash, line.keyHash = some keyHash → keyHash.Hexadecimal)
    (h : decide suite keyring policy line = .error failure) : failure.FromSender := by
  unfold decide at h
  cases hk : line.keyHash with
  | none =>
    rw [hk] at h
    dsimp only at h
    split at h
    · cases h
    · cases h
      exact .inr nofun
  | some keyHash =>
    rw [hk] at h
    obtain ⟨⟨hash, hhash⟩, salt, hsalt⟩ := hhex keyHash hk
    obtain ⟨key?, hkey⟩ :=
      Keyring.findKey_total (hdigests keyHash.algorithm) hash salt keyring.passwords
    have hmatching : keyring.matchingKey suite keyHash.algorithm keyHash.hash keyHash.salt =
        .ok key? := by
      unfold Keyring.matchingKey
      rw [hhash, hsalt]
      exact hkey
    simp only [hmatching, bind, Except.bind] at h
    split at h
    · cases h
    · split at h
      · cases h
      · cases h
        exact .inr nofun

end

end Gntp
