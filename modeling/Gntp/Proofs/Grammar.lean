import Gntp.Proofs.Fields

/-!
# The grammar of request lines

Which texts are request lines (`RequestLine.Spells`), what is wrong with any other
(`RequestLine.Refused`), and that lines are read by this grammar (`RequestLine.parse_classifies`).
What is wrong is said in the order in which it is found: a text has what its first flaw asks for,
whatever comes after it.
-/

namespace Gntp

/-! ## Fields -/

namespace Bytes

variable {sep : UInt8} {s before after : Bytes} {fields : List Bytes}

/-- The fields that a text consists of, with a separator between any two of them. -/
structure Joined (sep : UInt8) (fields : List Bytes) (text : Bytes) : Prop where
  nonempty : fields ≠ []
  notMem : ∀ field ∈ fields, sep ∉ field
  text : text = [sep].intercalate fields

theorem joined_splitOn (sep : UInt8) (s : Bytes) : Joined sep (splitOn sep s) s := by
  refine ⟨by simp [splitOn], ?_, ?_⟩
  · induction s with
    | nil => simp [splitOn, fieldsOf]
    | cons b s ih =>
      by_cases hb : b = sep
      · subst hb
        rw [splitOn_cons_sep]
        simpa using ih
      · rw [splitOn_cons_of_ne hb]
        simpa [splitOn, Ne.symm hb] using ih
  · induction s with
    | nil => simp [splitOn, fieldsOf]
    | cons b s ih =>
      by_cases hb : b = sep
      · subst hb
        rw [splitOn_cons_sep, splitOn, List.intercalate_cons_cons, ← splitOn, ← ih]
        simp
      · rw [splitOn_cons_of_ne hb]
        rw [splitOn] at ih
        cases hothers : (fieldsOf sep s).2 with
        | nil =>
          rw [hothers] at ih
          simpa using ih
        | cons second rest =>
          rw [hothers, List.intercalate_cons_cons] at ih
          rw [List.intercalate_cons_cons, List.cons_append, List.cons_append, ← ih]

/-- A text has no other fields than those that it is split into. -/
theorem splitOn_eq_iff : splitOn sep s = fields ↔ Joined sep fields s := by
  constructor
  · rintro rfl
    exact joined_splitOn sep s
  · rintro ⟨hne, hnotMem, rfl⟩
    induction fields with
    | nil => exact absurd rfl hne
    | cons first rest ih =>
      obtain ⟨hfirst, hrest⟩ := List.forall_mem_cons.1 hnotMem
      cases rest with
      | nil => simpa using splitOn_of_notMem hfirst
      | cons second rest =>
        rw [List.intercalate_cons_cons, List.append_assoc, List.singleton_append,
          splitOn_append hfirst, ih (List.cons_ne_nil _ _) hrest]

theorem joined_pair : Joined sep [before, after] s ↔
    s = before ++ sep :: after ∧ sep ∉ before ∧ sep ∉ after := by
  constructor
  · rintro ⟨_, hnotMem, rfl⟩
    simp only [List.mem_cons, List.not_mem_nil, or_false, forall_eq_or_imp, forall_eq] at hnotMem
    exact ⟨by simp [List.intercalate, List.intersperse], hnotMem⟩
  · rintro ⟨rfl, hbefore, hafter⟩
    refine ⟨by simp, ?_, by simp [List.intercalate, List.intersperse]⟩
    simp [hbefore, hafter]

theorem splitOn_eq_pair : splitOn sep s = [before, after] ↔
    s = before ++ sep :: after ∧ sep ∉ before ∧ sep ∉ after :=
  splitOn_eq_iff.trans joined_pair

/-- There is one field more than there are separators. -/
theorem length_splitOn (sep : UInt8) (s : Bytes) : (splitOn sep s).length = s.count sep + 1 := by
  induction s with
  | nil => rfl
  | cons b s ih =>
    by_cases hb : b = sep
    · subst hb
      simp [splitOn_cons_sep, ih]
    · rw [splitOn_cons_of_ne hb, List.count_cons_of_ne hb, ← ih]
      rfl

theorem exists_splitOn_eq_pair (h : s.count sep = 1) :
    ∃ before after, splitOn sep s = [before, after] := by
  have hlength := length_splitOn sep s
  rw [h] at hlength
  exact List.length_eq_two.1 hlength

theorem splitOn_ne_pair (h : s.count sep ≠ 1) (before after : Bytes) :
    splitOn sep s ≠ [before, after] := by
  intro heq
  have hlength := length_splitOn sep s
  simp only [heq, List.length_cons, List.length_nil] at hlength
  omega

theorem cutAt_eq_some : cutAt sep s = some (before, after) ↔
    s = before ++ sep :: after ∧ sep ∉ before := by
  constructor
  · intro h
    have hs := eq_of_cutAt h
    have hmem : sep ∈ s := by simp [hs]
    obtain ⟨front, back, hsplit, hnotMem⟩ := List.eq_append_cons_of_mem hmem
    rw [hsplit, cutAt_append hnotMem] at h
    cases h
    exact ⟨hsplit, hnotMem⟩
  · rintro ⟨rfl, hnotMem⟩
    exact cutAt_append hnotMem

theorem cutAt_eq_none : cutAt sep s = none ↔ sep ∉ s := by
  constructor
  · intro h hmem
    obtain ⟨front, back, rfl, hnotMem⟩ := List.eq_append_cons_of_mem hmem
    simp [cutAt_append hnotMem] at h
  · intro hnotMem
    cases hcut : cutAt sep s with
    | none => rfl
    | some parts => simp [eq_of_cutAt hcut] at hnotMem

theorem trim_eq_self (hfirst : ∀ b, s.head? = some b → isBlank b = false)
    (hlast : ∀ b, s.getLast? = some b → isBlank b = false) : trim s = s := by
  have hend : trimEnd s = s := by
    unfold trimEnd
    cases hs : s.reverse with
    | nil => simpa using hs
    | cons b rest =>
      have hb : s.getLast? = some b := by simp [← List.head?_reverse, hs]
      rw [List.dropWhile_cons_of_neg (by simp [hlast b hb]), ← hs, List.reverse_reverse]
  rw [trim, hend, trimStart]
  cases s with
  | nil => rfl
  | cons b rest => exact List.dropWhile_cons_of_neg (by simp [hfirst b rfl])

/-- No blanks stand around fields without blanks. -/
theorem trim_intercalate (h : ∀ field ∈ fields, field ≠ [] ∧ Unblank field) :
    trim ([sep].intercalate fields) = [sep].intercalate fields := by
  refine trim_eq_self (fun b hb => ?_) (fun b hb => ?_)
  · match fields, h with
    | [], _ => simp at hb
    | [field], h =>
      simp only [List.intercalate_singleton] at hb
      exact (h field (by simp)).2 b (List.mem_of_head? hb)
    | first :: second :: rest, h =>
      obtain ⟨hne, hfirst⟩ := h first (by simp)
      rw [List.intercalate_cons_cons, List.append_assoc,
        List.head?_append_of_ne_nil _ hne] at hb
      exact hfirst b (List.mem_of_head? hb)
  · induction fields with
    | nil => simp at hb
    | cons first rest ih =>
      cases rest with
      | nil =>
        simp only [List.intercalate_singleton] at hb
        exact (h first (by simp)).2 b (List.mem_of_getLast? hb)
      | cons second rest =>
        have hne : [sep].intercalate (second :: rest) ≠ [] := by
          cases rest with
          | nil => simpa using (h second (by simp)).1
          | cons third rest => simp [List.intercalate_cons_cons]
        rw [List.intercalate_cons_cons, List.getLast?_append_of_ne_nil _ hne] at hb
        exact ih (fun field hfield => h field (List.mem_cons_of_mem _ hfield)) hb

end Bytes

/-! ## Names -/

/-- Looking for a name in a list of everything there is. -/
theorem find?_named {α : Type} {all : List α} {name : α → Bytes} (hall : ∀ a, a ∈ all)
    (hinj : Function.Injective name) {text : Bytes} {a : α} :
    all.find? (fun a => decide (name a = text)) = some a ↔ name a = text := by
  constructor
  · intro h
    have hfound := List.find?_some h
    simpa using hfound
  · rintro rfl
    cases hfind : all.find? (fun b => decide (name b = name a)) with
    | none => simpa using List.find?_eq_none.1 hfind a (hall a)
    | some b =>
      have hfound := List.find?_some hfind
      exact congrArg some (hinj (by simpa using hfound))

theorem find?_unnamed {α : Type} {all : List α} {name : α → Bytes} (hall : ∀ a, a ∈ all)
    {text : Bytes} :
    all.find? (fun a => decide (name a = text)) = none ↔ ∀ a, name a ≠ text := by
  simp [List.find?_eq_none, hall]

namespace MessageType

theorem name_injective : Function.Injective name := by
  intro a b h
  cases a <;> cases b <;> first | rfl | exact absurd h (by decide)

theorem mem_all (a : MessageType) : a ∈ all := by cases a <;> decide

theorem ofName?_eq_some {text : Bytes} {a : MessageType} : ofName? text = some a ↔ a.name = text :=
  find?_named mem_all name_injective

theorem ofName?_eq_none {text : Bytes} : ofName? text = none ↔ ∀ a : MessageType, a.name ≠ text :=
  find?_unnamed mem_all

end MessageType

namespace Cipher

theorem name_injective : Function.Injective name := by
  intro a b h
  cases a <;> cases b <;> first | rfl | exact absurd h (by decide)

theorem mem_all (a : Cipher) : a ∈ all := by cases a <;> decide

theorem ofName?_eq_some {text : Bytes} {a : Cipher} : ofName? text = some a ↔ a.name = text :=
  find?_named mem_all name_injective

theorem ofName?_eq_none {text : Bytes} :
    ofName? text = Option.none ↔ ∀ a : Cipher, a.name ≠ text :=
  find?_unnamed mem_all

end Cipher

namespace HashAlgorithm

theorem name_injective : Function.Injective name := by
  intro a b h
  cases a <;> cases b <;> first | rfl | exact absurd h (by decide)

theorem mem_all (a : HashAlgorithm) : a ∈ all := by cases a <;> decide

theorem ofName?_eq_some {text : Bytes} {a : HashAlgorithm} :
    ofName? text = some a ↔ a.name = text := find?_named mem_all name_injective

theorem ofName?_eq_none {text : Bytes} :
    ofName? text = none ↔ ∀ a : HashAlgorithm, a.name ≠ text := find?_unnamed mem_all

end HashAlgorithm

/-! ## The grammar -/

/-- Both parts of a key hash are there and hexadecimal. -/
structure KeyHash.WellFormed (keyHash : KeyHash) : Prop where
  hash_ne_nil : keyHash.hash ≠ []
  salt_ne_nil : keyHash.salt ≠ []
  hash_paired : Hex.Paired keyHash.hash
  salt_paired : Hex.Paired keyHash.salt

/-- The field of a key hash. -/
def KeyHash.text (keyHash : KeyHash) : Bytes :=
  keyHash.algorithm.name ++ 0x3a :: (keyHash.hash ++ 0x2e :: keyHash.salt)

namespace RequestLine

open Bytes

/-- The field says which cipher and initialization vector are used. The vector may be left out if
it is empty. -/
inductive SpellsCipher (cipher : Cipher) : Bytes → Bytes → Prop
  | alone : SpellsCipher cipher [] cipher.name
  | withIv {iv ivHex : Bytes} : Hex.Spells ivHex iv →
    SpellsCipher cipher iv (cipher.name ++ 0x3a :: ivHex)

/-- The fields of a request line with this field for the cipher. -/
def fields (line : RequestLine) (cipherField : Bytes) : List Bytes :=
  ascii "GNTP/1.0" :: line.messageType.name :: cipherField ::
    (line.keyHash.map KeyHash.text).toList

/-- The text says what the request line is. -/
def Spells (line : RequestLine) (text : Bytes) : Prop :=
  ∃ cipherField, SpellsCipher line.cipher line.iv cipherField ∧
    (∀ keyHash ∈ line.keyHash, keyHash.WellFormed) ∧
    text = [0x20].intercalate (line.fields cipherField)

/-- The text of a request line. -/
def render (line : RequestLine) : Bytes :=
  [0x20].intercalate <| line.fields <|
    line.cipher.name ++ if line.iv = [] then [] else 0x3a :: Hex.encode line.iv

/-- What is wrong with a first field. -/
inductive RefusedProtocol (field : Bytes) : ErrorCode → Rejection → Prop
  | unseparated : field.count 0x2f ≠ 1 → RefusedProtocol field .invalidRequest .noProtocolHeader
  | foreign {name number : Bytes} : field = name ++ 0x2f :: number → 0x2f ∉ name →
    0x2f ∉ number → name ≠ ascii "GNTP" →
    RefusedProtocol field .unknownProtocol (.foreignProtocol name)
  | version {number : Bytes} : field = ascii "GNTP" ++ 0x2f :: number → 0x2f ∉ number →
    number ≠ ascii "1.0" →
    RefusedProtocol field .unknownProtocolVersion (.foreignVersion number)

/-- What is wrong with the field of a cipher. -/
inductive RefusedCipher (field : Bytes) : ErrorCode → Rejection → Prop
  | unknown {name : Bytes} : (field = name ∨ ∃ ivHex, field = name ++ 0x3a :: ivHex) →
    0x3a ∉ name → (∀ cipher : Cipher, cipher.name ≠ name) →
    RefusedCipher field .invalidRequest (.unsupportedCipher name)
  | iv {cipher : Cipher} {ivHex : Bytes} : field = cipher.name ++ 0x3a :: ivHex →
    ¬ Hex.Paired ivHex → RefusedCipher field .invalidRequest
      (.badIv (if ivHex.length % 2 = 1 then .oddLength else .badDigit ivHex))

/-- What is wrong with the field of a key hash. -/
inductive RefusedKeyHash (field : Bytes) : ErrorCode → Rejection → Prop
  | unseparated : field.count 0x3a ≠ 1 → RefusedKeyHash field .notAuthorized .malformedKeyHash
  | unknown {name rest : Bytes} : field = name ++ 0x3a :: rest → 0x3a ∉ name → 0x3a ∉ rest →
    (∀ algorithm : HashAlgorithm, algorithm.name ≠ name) →
    RefusedKeyHash field .invalidRequest (.unsupportedHash name)
  | incomplete {algorithm : HashAlgorithm} {rest : Bytes} :
    field = algorithm.name ++ 0x3a :: rest → 0x3a ∉ rest →
    (∀ hash salt, rest = hash ++ 0x2e :: salt → 0x2e ∉ hash → hash = [] ∨ salt = []) →
    RefusedKeyHash field .notAuthorized .malformedKeyHash
  | notHex {algorithm : HashAlgorithm} {hash salt : Bytes} :
    field = algorithm.name ++ 0x3a :: (hash ++ 0x2e :: salt) → 0x3a ∉ hash → 0x3a ∉ salt →
    0x2e ∉ hash → hash ≠ [] → salt ≠ [] → ¬ (Hex.Paired hash ∧ Hex.Paired salt) →
    RefusedKeyHash field .notAuthorized .keyHashNotHex

/-- What is wrong with a text: the first thing that is, in this order. -/
inductive Refused (text : Bytes) : ErrorCode → Rejection → Prop
  | protocol {first : Bytes} {others : List Bytes} {code : ErrorCode} {reason : Rejection} :
    Joined 0x20 (first :: others) text → RefusedProtocol first code reason →
    Refused text code reason
  | fieldCount {others : List Bytes} : Joined 0x20 (ascii "GNTP/1.0" :: others) text →
    others.length ≠ 2 → others.length ≠ 3 →
    Refused text .invalidRequest (.fieldCount (others.length + 1))
  | messageType {typeName cipherField : Bytes} {keyField : Option Bytes} :
    Joined 0x20 (ascii "GNTP/1.0" :: typeName :: cipherField :: keyField.toList) text →
    (∀ messageType : MessageType, messageType.name ≠ typeName) →
    Refused text .invalidRequest (.unknownMessageType typeName)
  | cipher {messageType : MessageType} {cipherField : Bytes} {keyField : Option Bytes}
    {code : ErrorCode} {reason : Rejection} :
    Joined 0x20 (ascii "GNTP/1.0" :: messageType.name :: cipherField :: keyField.toList) text →
    RefusedCipher cipherField code reason → Refused text code reason
  | keyHash {messageType : MessageType} {cipher : Cipher} {iv cipherField keyField : Bytes}
    {code : ErrorCode} {reason : Rejection} :
    Joined 0x20 [ascii "GNTP/1.0", messageType.name, cipherField, keyField] text →
    SpellsCipher cipher iv cipherField → RefusedKeyHash keyField code reason →
    Refused text code reason

/-- What is accepted is accepted as what it says, what is refused is refused for its reason, and
everything is one or the other. -/
structure Classifies {α : Type} (outcome : Except Rejection α) (Accepted : α → Prop)
    (Refused : ErrorCode → Rejection → Prop) : Prop where
  accepts : ∀ {a}, Accepted a → outcome = .ok a
  refuses : ∀ {code reason}, Refused code reason → outcome = .error reason ∧ code = reason.code
  total : (∃ a, Accepted a) ∨ ∃ code reason, Refused code reason

namespace Classifies

variable {α : Type} {outcome : Except Rejection α} {Accepted : α → Prop}
  {Refused : ErrorCode → Rejection → Prop}

theorem eq_ok (h : Classifies outcome Accepted Refused) {a : α} :
    outcome = .ok a ↔ Accepted a := by
  refine ⟨fun hok => ?_, h.accepts⟩
  rcases h.total with ⟨a', haccepted⟩ | ⟨code, reason, hrefused⟩
  · have hsame := (h.accepts haccepted).symm.trans hok
    cases hsame
    exact haccepted
  · exact nomatch (h.refuses hrefused).1.symm.trans hok

theorem eq_error (h : Classifies outcome Accepted Refused) {reason : Rejection} :
    outcome = .error reason ↔ Refused reason.code reason := by
  refine ⟨fun herror => ?_, fun hrefused => (h.refuses hrefused).1⟩
  rcases h.total with ⟨a, haccepted⟩ | ⟨code, reason', hrefused⟩
  · exact nomatch (h.accepts haccepted).symm.trans herror
  · obtain ⟨herror', rfl⟩ := h.refuses hrefused
    have hsame := herror'.symm.trans herror
    cases hsame
    exact hrefused

end Classifies

variable {field text iv : Bytes} {code : ErrorCode} {reason : Rejection} {cipher : Cipher}
  {keyHash : KeyHash} {line : RequestLine}

/-! ## The protocol -/

theorem RefusedProtocol.sound (h : RefusedProtocol field code reason) :
    checkProtocol field = .error reason ∧ code = reason.code := by
  cases h with
  | unseparated hcount =>
    refine ⟨?_, rfl⟩
    unfold checkProtocol
    split
    · next hfields => exact absurd hfields (splitOn_ne_pair hcount _ _)
    · rfl
  | foreign hfield hname hnumber hforeign =>
    refine ⟨?_, rfl⟩
    rw [checkProtocol, splitOn_eq_pair.2 ⟨hfield, hname, hnumber⟩]
    exact if_pos hforeign
  | version hfield hnumber hforeign =>
    refine ⟨?_, rfl⟩
    rw [checkProtocol, splitOn_eq_pair.2 ⟨hfield, by decide, hnumber⟩]
    exact if_pos hforeign

theorem checkProtocol_classifies (field : Bytes) :
    Classifies (checkProtocol field) (fun _ => field = ascii "GNTP/1.0")
      (RefusedProtocol field) where
  accepts := by
    rintro _ rfl
    rfl
  refuses := RefusedProtocol.sound
  total := by
    by_cases hcount : field.count 0x2f = 1
    · obtain ⟨name, number, hfields⟩ := exists_splitOn_eq_pair hcount
      obtain ⟨hfield, hname, hnumber⟩ := splitOn_eq_pair.1 hfields
      by_cases hknown : name = ascii "GNTP"
      · rw [hknown] at hfield
        by_cases hcurrent : number = ascii "1.0"
        · rw [hcurrent] at hfield
          exact .inl ⟨(), hfield⟩
        · exact .inr ⟨_, _, .version hfield hnumber hcurrent⟩
      · exact .inr ⟨_, _, .foreign hfield hname hnumber hknown⟩
    · exact .inr ⟨_, _, .unseparated hcount⟩

/-! ## The cipher -/

theorem colon_notMem_cipher (cipher : Cipher) : 0x3a ∉ cipher.name := by cases cipher <;> decide

theorem parseCipher_of_known {ivHex : Bytes}
    (hcut : (cutAt 0x3a field).getD (field, []) = (cipher.name, ivHex)) :
    parseCipher field = ((Hex.decode ivHex).mapError Rejection.badIv).map fun iv => (cipher, iv) := by
  unfold parseCipher
  rw [hcut]
  simp only [Cipher.ofName?_name]
  cases Hex.decode ivHex <;> rfl

theorem parseCipher_of_unknown {name ivHex : Bytes}
    (hcut : (cutAt 0x3a field).getD (field, []) = (name, ivHex))
    (hname : ∀ cipher : Cipher, cipher.name ≠ name) :
    parseCipher field = .error (.unsupportedCipher name) := by
  unfold parseCipher
  rw [hcut]
  simp only [Cipher.ofName?_eq_none.2 hname]

theorem SpellsCipher.parse (h : SpellsCipher cipher iv field) :
    parseCipher field = .ok (cipher, iv) := by
  cases h with
  | alone =>
    have hcut : (cutAt 0x3a cipher.name).getD (cipher.name, []) = (cipher.name, []) := by
      rw [cutAt_eq_none.2 (colon_notMem_cipher cipher)]
      rfl
    rw [parseCipher_of_known hcut]
    rfl
  | withIv hspells => exact parseCipher_cipherText (Hex.decode_eq_ok.2 hspells)

theorem RefusedCipher.sound (h : RefusedCipher field code reason) :
    parseCipher field = .error reason ∧ code = reason.code := by
  cases h with
  | @unknown name hfield hcolon hunknown =>
    refine ⟨?_, rfl⟩
    have hcut : ∃ ivHex, (cutAt 0x3a field).getD (field, []) = (name, ivHex) := by
      rcases hfield with rfl | ⟨ivHex, rfl⟩
      · exact ⟨[], by rw [cutAt_eq_none.2 hcolon]; rfl⟩
      · exact ⟨ivHex, by rw [cutAt_append hcolon]; rfl⟩
    obtain ⟨ivHex, hcut⟩ := hcut
    exact parseCipher_of_unknown hcut hunknown
  | @iv cipher ivHex hfield hunpaired =>
    refine ⟨?_, rfl⟩
    have hcut : (cutAt 0x3a field).getD (field, []) = (cipher.name, ivHex) := by
      rw [hfield, cutAt_append (colon_notMem_cipher cipher)]
      rfl
    rw [parseCipher_of_known hcut, Hex.decode_of_not_paired hunpaired]
    rfl

theorem parseCipher_classifies (field : Bytes) :
    Classifies (parseCipher field) (fun parts => SpellsCipher parts.1 parts.2 field)
      (RefusedCipher field) where
  accepts := SpellsCipher.parse
  refuses := RefusedCipher.sound
  total := by
    cases hcut : cutAt 0x3a field with
    | none =>
      by_cases hname : ∃ cipher : Cipher, cipher.name = field
      · obtain ⟨cipher, rfl⟩ := hname
        exact .inl ⟨(cipher, []), .alone⟩
      · exact .inr ⟨_, _, .unknown (.inl rfl) (cutAt_eq_none.1 hcut) (not_exists.1 hname)⟩
    | some parts =>
      obtain ⟨hfield, hcolon⟩ := cutAt_eq_some.1 hcut
      by_cases hname : ∃ cipher : Cipher, cipher.name = parts.1
      · obtain ⟨cipher, hname⟩ := hname
        rw [← hname] at hfield
        by_cases hpaired : Hex.Paired parts.2
        · obtain ⟨iv, hspells⟩ := Hex.exists_spells hpaired
          exact .inl ⟨(cipher, iv), hfield ▸ .withIv hspells⟩
        · exact .inr ⟨_, _, .iv hfield hpaired⟩
      · exact .inr ⟨_, _, .unknown (.inr ⟨_, hfield⟩) hcolon (not_exists.1 hname)⟩

/-! ## The key hash -/

theorem colon_notMem_hash (algorithm : HashAlgorithm) : 0x3a ∉ algorithm.name := by
  cases algorithm <;> decide

/-- Digits are no separators. -/
theorem notMem_of_paired {sep : UInt8} (hsep : ¬ Hex.IsDigit sep) {text : Bytes}
    (h : Hex.Paired text) : sep ∉ text := fun hmem => hsep (h.2 sep hmem)

/-- The part behind the colon, if the name in front of it is known. -/
theorem parseKeyHash_of_known {algorithm : HashAlgorithm} {rest : Bytes} (hrest : 0x3a ∉ rest) :
    parseKeyHash (algorithm.name ++ 0x3a :: rest) = match cutAt 0x2e rest with
      | none | some ([], _) | some (_, []) => .error .malformedKeyHash
      | some (hash, salt) =>
        match Hex.decode hash, Hex.decode salt with
        | .ok _, .ok _ => .ok ⟨algorithm, hash, salt⟩
        | _, _ => .error .keyHashNotHex := by
  have hfields := splitOn_eq_pair.2 ⟨rfl, colon_notMem_hash algorithm, hrest⟩
  have hname : HashAlgorithm.ofName? algorithm.name = some algorithm :=
    HashAlgorithm.ofName?_eq_some.2 rfl
  unfold parseKeyHash
  rw [hfields]
  dsimp only
  rewrite [hname]
  rfl

/-- The same if there is something on both sides of the dot. -/
theorem parseKeyHash_of_parts {algorithm : HashAlgorithm} {hash salt : Bytes}
    (hhash : 0x3a ∉ hash) (hsalt : 0x3a ∉ salt) (hdot : 0x2e ∉ hash) (hhashNe : hash ≠ [])
    (hsaltNe : salt ≠ []) :
    parseKeyHash (algorithm.name ++ 0x3a :: (hash ++ 0x2e :: salt)) =
      match Hex.decode hash, Hex.decode salt with
      | .ok _, .ok _ => .ok ⟨algorithm, hash, salt⟩
      | _, _ => .error .keyHashNotHex := by
  rw [parseKeyHash_of_known (by simp [hhash, hsalt]), cutAt_append hdot]
  cases hash with
  | nil => exact absurd rfl hhashNe
  | cons b hash =>
    cases salt with
    | nil => exact absurd rfl hsaltNe
    | cons b' salt => rfl

theorem parseKeyHash_text (h : keyHash.WellFormed) : parseKeyHash keyHash.text = .ok keyHash := by
  obtain ⟨hash, hhash⟩ := Hex.exists_spells h.hash_paired
  obtain ⟨salt, hsalt⟩ := Hex.exists_spells h.salt_paired
  have hcolon : ¬ Hex.IsDigit 0x3a := by unfold Hex.IsDigit; decide
  have hdot : ¬ Hex.IsDigit 0x2e := by unfold Hex.IsDigit; decide
  rw [KeyHash.text, parseKeyHash_of_parts (notMem_of_paired hcolon h.hash_paired)
    (notMem_of_paired hcolon h.salt_paired) (notMem_of_paired hdot h.hash_paired) h.hash_ne_nil
    h.salt_ne_nil, Hex.decode_eq_ok.2 hhash, Hex.decode_eq_ok.2 hsalt]

theorem RefusedKeyHash.sound (h : RefusedKeyHash field code reason) :
    parseKeyHash field = .error reason ∧ code = reason.code := by
  cases h with
  | unseparated hcount =>
    refine ⟨?_, rfl⟩
    unfold parseKeyHash
    split
    · next hfields => exact absurd hfields (splitOn_ne_pair hcount _ _)
    · rfl
  | unknown hfield hname hrest hunknown =>
    refine ⟨?_, rfl⟩
    rw [parseKeyHash, splitOn_eq_pair.2 ⟨hfield, hname, hrest⟩]
    simp only [HashAlgorithm.ofName?_eq_none.2 hunknown]
  | incomplete hfield hrest hparts =>
    refine ⟨?_, rfl⟩
    rw [hfield, parseKeyHash_of_known hrest]
    split
    · rfl
    · rfl
    · rfl
    · next hash salt hhash hsalt hcut =>
      obtain ⟨heq, hdot⟩ := cutAt_eq_some.1 hcut
      rcases hparts hash salt heq hdot with rfl | rfl
      · exact absurd rfl hhash
      · exact absurd rfl hsalt
  | @notHex algorithm hash salt hfield hhash hsalt hdot hhashNe hsaltNe hunpaired =>
    refine ⟨?_, rfl⟩
    rw [hfield, parseKeyHash_of_parts hhash hsalt hdot hhashNe hsaltNe]
    split
    · next hhashOk hsaltOk =>
      exact absurd ⟨(Hex.spells_of_decode hhashOk).1, (Hex.spells_of_decode hsaltOk).1⟩ hunpaired
    · rfl

theorem parseKeyHash_classifies (field : Bytes) :
    Classifies (parseKeyHash field) (fun keyHash => keyHash.WellFormed ∧ field = keyHash.text)
      (RefusedKeyHash field) where
  accepts := by
    rintro keyHash ⟨hkeyHash, rfl⟩
    exact parseKeyHash_text hkeyHash
  refuses := RefusedKeyHash.sound
  total := by
    by_cases hcount : field.count 0x3a = 1
    · obtain ⟨name, rest, hfields⟩ := exists_splitOn_eq_pair hcount
      obtain ⟨hfield, hname, hrest⟩ := splitOn_eq_pair.1 hfields
      by_cases hknown : ∃ algorithm : HashAlgorithm, algorithm.name = name
      · obtain ⟨algorithm, rfl⟩ := hknown
        by_cases hparts : ∃ hash salt, rest = hash ++ 0x2e :: salt ∧ 0x2e ∉ hash ∧ hash ≠ [] ∧ salt ≠ []
        · obtain ⟨hash, salt, rfl, hdot, hhash, hsalt⟩ := hparts
          by_cases hpaired : Hex.Paired hash ∧ Hex.Paired salt
          · exact .inl ⟨⟨algorithm, hash, salt⟩, ⟨hhash, hsalt, hpaired.1, hpaired.2⟩, hfield⟩
          · simp only [List.mem_append, List.mem_cons, not_or] at hrest
            exact .inr ⟨_, _, .notHex hfield hrest.1 hrest.2.2 hdot hhash hsalt hpaired⟩
        · refine .inr ⟨_, _, .incomplete hfield hrest fun hash salt heq hdot => ?_⟩
          by_contra hboth
          exact hparts ⟨hash, salt, heq, hdot, not_or.1 hboth⟩
      · exact .inr ⟨_, _, .unknown hfield hname hrest (not_exists.1 hknown)⟩
    · exact .inr ⟨_, _, .unseparated hcount⟩

/-! ## Request lines -/

variable {others : List Bytes} {keyField : Option Bytes} {messageType : MessageType}
  {cipherField typeName : Bytes}

theorem parse_of_joined {first : Bytes} (h : Joined 0x20 (first :: others) (trim text)) :
    parse text = checkProtocol first >>= fun _ => match others with
      | [typeName, cipherField] => parseFields typeName cipherField none
      | [typeName, cipherField, keyField] => parseFields typeName cipherField (some keyField)
      | _ => .error (.fieldCount (others.length + 1)) := by
  unfold parse
  rw [splitOn_eq_iff.2 h]
  simp only [List.headD_cons]
  congr 1
  funext _
  rcases others with _ | ⟨_, _ | ⟨_, _ | ⟨_, _ | ⟨_, others⟩⟩⟩⟩ <;> rfl

/-- Three fields or four are read one after the other. -/
theorem parse_of_fields (keyField : Option Bytes)
    (h : Joined 0x20 (ascii "GNTP/1.0" :: typeName :: cipherField :: keyField.toList) (trim text)) :
    parse text = parseFields typeName cipherField keyField := by
  rw [parse_of_joined h, (checkProtocol_classifies _).accepts (a := ()) rfl]
  cases keyField <;> rfl

theorem parseFields_of_known :
    parseFields messageType.name cipherField keyField = parseCipher cipherField >>= fun parts =>
      match keyField with
      | none => .ok ⟨messageType, parts.1, parts.2, none⟩
      | some field => (parseKeyHash field).map fun keyHash =>
        ⟨messageType, parts.1, parts.2, some keyHash⟩ := by
  unfold parseFields
  simp only [MessageType.ofName?_name]
  cases keyField with
  | none => rfl
  | some field =>
    cases parseCipher cipherField with
    | error reason => rfl
    | ok parts => cases hparse : parseKeyHash field <;> simp [hparse, bind, Except.bind] <;> rfl

theorem unblank_of_spellsCipher (h : SpellsCipher cipher iv field) : field ≠ [] ∧ Unblank field := by
  have hname : cipher.name ≠ [] := by cases cipher <;> decide
  cases h with
  | alone => exact ⟨hname, cipher.unblank_name⟩
  | withIv hspells => exact ⟨by simp, unblank_cipherText (Hex.decode_eq_ok.2 hspells)⟩

/-- There are no blanks in the fields of a request line. -/
theorem unblank_fields (hcipher : SpellsCipher line.cipher line.iv cipherField)
    (hkeyHash : ∀ keyHash ∈ line.keyHash, keyHash.WellFormed) :
    ∀ field ∈ line.fields cipherField, field ≠ [] ∧ Unblank field := by
  intro field hfield
  simp only [fields, List.mem_cons, Option.mem_toList, Option.map_eq_some_iff] at hfield
  rcases hfield with rfl | rfl | rfl | ⟨keyHash, hmem, rfl⟩
  · decide
  · exact ⟨by cases line.messageType <;> decide, line.messageType.unblank_name⟩
  · exact unblank_of_spellsCipher hcipher
  · exact unblank_of_parseKeyHash (parseKeyHash_text (hkeyHash keyHash hmem))

/-- So there are none around them either. -/
theorem Spells.trim (h : line.Spells text) : trim text = text := by
  obtain ⟨cipherField, hcipher, hkeyHash, rfl⟩ := h
  exact trim_intercalate (unblank_fields hcipher hkeyHash)

theorem Spells.joined (h : line.Spells text) : ∃ cipherField,
    SpellsCipher line.cipher line.iv cipherField ∧
    (∀ keyHash ∈ line.keyHash, keyHash.WellFormed) ∧
    Joined 0x20 (line.fields cipherField) text := by
  obtain ⟨cipherField, hcipher, hkeyHash, htext⟩ := h
  refine ⟨cipherField, hcipher, hkeyHash, List.cons_ne_nil _ _, fun field hfield => ?_, htext⟩
  exact (unblank_fields hcipher hkeyHash field hfield).2.notMem rfl

theorem parse_of_spells (h : line.Spells (trim text)) : parse text = .ok line := by
  obtain ⟨cipherField, hcipher, hkeyHash, hjoined⟩ := h.joined
  obtain ⟨messageType, cipher, iv, keyHash⟩ := line
  rw [parse_of_fields _ hjoined, parseFields_of_known, hcipher.parse]
  cases keyHash with
  | none => rfl
  | some keyHash =>
    have hparse := parseKeyHash_text (hkeyHash keyHash rfl)
    simp [bind, Except.bind, hparse, Except.map]

theorem Refused.sound (h : Refused (trim text) code reason) :
    parse text = .error reason ∧ code = reason.code := by
  cases h with
  | protocol hjoined hrefused =>
    obtain ⟨herror, hcode⟩ := hrefused.sound
    exact ⟨by rw [parse_of_joined hjoined, herror]; rfl, hcode⟩
  | @fieldCount others hjoined htwo hthree =>
    refine ⟨?_, rfl⟩
    rw [parse_of_joined hjoined]
    rcases others with _ | ⟨_, _ | ⟨_, _ | ⟨_, _ | ⟨_, others⟩⟩⟩⟩
    · rfl
    · rfl
    · exact absurd rfl htwo
    · exact absurd rfl hthree
    · rfl
  | messageType hjoined hunknown =>
    refine ⟨?_, rfl⟩
    rw [parse_of_fields _ hjoined, parseFields]
    simp only [MessageType.ofName?_eq_none.2 hunknown]
  | cipher hjoined hrefused =>
    obtain ⟨herror, hcode⟩ := hrefused.sound
    exact ⟨by rw [parse_of_fields _ hjoined, parseFields_of_known, herror]; rfl, hcode⟩
  | @keyHash _ cipher iv _ keyField _ _ hjoined hcipher hrefused =>
    obtain ⟨herror, hcode⟩ := hrefused.sound
    refine ⟨?_, hcode⟩
    rw [parse_of_fields (some keyField) hjoined, parseFields_of_known, hcipher.parse]
    simp [bind, Except.bind, herror, Except.map]

theorem total_of_fields (keyField : Option Bytes)
    (h : Joined 0x20 (ascii "GNTP/1.0" :: typeName :: cipherField :: keyField.toList) text) :
    (∃ line : RequestLine, line.Spells text) ∨ ∃ code reason, Refused text code reason := by
  by_cases hknown : ∃ messageType : MessageType, messageType.name = typeName
  · obtain ⟨messageType, rfl⟩ := hknown
    rcases (parseCipher_classifies cipherField).total with ⟨⟨cipher, iv⟩, hcipher⟩ |
      ⟨code, reason, hrefused⟩
    · cases keyField with
      | none => exact .inl ⟨⟨messageType, cipher, iv, none⟩, cipherField, hcipher, nofun, h.text⟩
      | some field =>
        rcases (parseKeyHash_classifies field).total with ⟨keyHash, hkeyHash, rfl⟩ |
          ⟨code, reason, hrefused⟩
        · refine .inl ⟨⟨messageType, cipher, iv, some keyHash⟩, cipherField, hcipher, ?_, h.text⟩
          rintro _ ⟨⟩
          exact hkeyHash
        · exact .inr ⟨code, reason, .keyHash h hcipher hrefused⟩
    · exact .inr ⟨code, reason, .cipher h hrefused⟩
  · exact .inr ⟨_, _, .messageType h (not_exists.1 hknown)⟩

/-- A line is read as the grammar has it, up to the blanks around it. -/
theorem parse_classifies_trimmed (text : Bytes) :
    Classifies (parse text) (fun line => line.Spells (trim text)) (Refused (trim text)) where
  accepts := parse_of_spells
  refuses := Refused.sound
  total := by
    have hjoined := joined_splitOn 0x20 (trim text)
    rw [splitOn] at hjoined
    generalize (fieldsOf 0x20 (trim text)).1 = first at hjoined
    generalize (fieldsOf 0x20 (trim text)).2 = others at hjoined
    rcases (checkProtocol_classifies first).total with ⟨_, rfl⟩ | ⟨code, reason, hrefused⟩
    · rcases others with _ | ⟨typeName, _ | ⟨cipherField, _ | ⟨keyField, _ | ⟨_, others⟩⟩⟩⟩
      · exact .inr ⟨_, _, .fieldCount hjoined (by simp) (by simp)⟩
      · exact .inr ⟨_, _, .fieldCount hjoined (by simp) (by simp)⟩
      · exact total_of_fields none hjoined
      · exact total_of_fields (some keyField) hjoined
      · exact .inr ⟨_, _, .fieldCount hjoined (by simp) (by simp)⟩
    · exact .inr ⟨code, reason, .protocol hjoined hrefused⟩

theorem spells_render (h : ∀ keyHash ∈ line.keyHash, keyHash.WellFormed) :
    line.Spells line.render := by
  refine ⟨_, ?_, h, rfl⟩
  by_cases hiv : line.iv = []
  · simp only [hiv, if_true, List.append_nil]
    exact .alone
  · simp only [hiv, if_false]
    exact .withIv (Hex.spells_encode line.iv)

/-- A line is a request line if it is one by the grammar, up to the blanks around it, and then says
what the grammar has it say. Every other line is refused for the first thing that is wrong with it.
What is put into words is read as what it was. -/
theorem parse_classifies :
    (∀ text line, parse text = .ok line ↔ line.Spells (trim text)) ∧
    (∀ text reason, parse text = .error reason ↔ Refused (trim text) reason.code reason) ∧
    ∀ line : RequestLine, (∀ keyHash ∈ line.keyHash, keyHash.WellFormed) →
      parse line.render = .ok line := by
  refine ⟨fun text line => (parse_classifies_trimmed text).eq_ok,
    fun text reason => (parse_classifies_trimmed text).eq_error, fun line hline => ?_⟩
  have hspells := spells_render hline
  exact (parse_classifies_trimmed _).accepts (hspells.trim.symm ▸ hspells)

/-- A request line with an initialization vector and a key hash. -/
def sealed : RequestLine :=
  ⟨.notify, .aes, [0x0a, 0xb1], some ⟨.md5, ascii "Ab", ascii "c0"⟩⟩

theorem parse_classifies_sealed :
    sealed.render = ascii "GNTP/1.0 NOTIFY AES:0ab1 MD5:Ab.c0" ∧
    parse sealed.render = .ok sealed := by
  refine ⟨by decide, parse_classifies.2.2 sealed ?_⟩
  rintro _ ⟨⟩
  refine ⟨by decide, by decide, ⟨by decide, ?_⟩, ⟨by decide, ?_⟩⟩ <;> unfold Hex.IsDigit <;>
    decide +kernel

end RequestLine

end Gntp
