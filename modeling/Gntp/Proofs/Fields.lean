import Mathlib.Data.List.Basic
import Gntp.Proofs.Hexadecimal
import Gntp.RequestLine

/-!
# Texts of fields

How a text that is put together from fields comes apart again: at separators (`splitOn_append`,
`cutAt_append`) and at blanks around it (`trim_of_ends`). The request line is such a text
(`RequestLine.parse_text`), since nothing that it is made of has a blank in it. Whether no other
field starts as the first one does can be told from the whole (`length_filter_flatMap_eq_one_iff`).
-/

namespace Gntp

namespace Bytes

variable {sep b : UInt8} {s t before after : Bytes}

/-! ## Separators -/

theorem splitOn_cons_sep (sep : UInt8) (s : Bytes) :
    splitOn sep (sep :: s) = [] :: splitOn sep s := by
  simp [splitOn, fieldsOf]

theorem splitOn_cons_of_ne (h : b ≠ sep) (s : Bytes) :
    splitOn sep (b :: s) = (b :: (fieldsOf sep s).1) :: (fieldsOf sep s).2 := by
  simp [splitOn, fieldsOf, h]

theorem splitOn_of_notMem (h : sep ∉ s) : splitOn sep s = [s] := by
  induction s with
  | nil => rfl
  | cons b s ih =>
    have hs : (fieldsOf sep s).1 :: (fieldsOf sep s).2 = [s] :=
      ih fun hmem => h (List.mem_cons_of_mem b hmem)
    have hb : b ≠ sep := fun heq => h (heq ▸ List.mem_cons_self)
    injection hs with hfirst hothers
    rw [splitOn_cons_of_ne hb, hfirst, hothers]

theorem splitOn_append_sep (s t : Bytes) :
    splitOn sep (s ++ sep :: t) = splitOn sep s ++ splitOn sep t := by
  induction s with
  | nil => exact splitOn_cons_sep sep t
  | cons b s ih =>
    by_cases hb : b = sep
    · rw [hb, List.cons_append, splitOn_cons_sep, splitOn_cons_sep, ih, List.cons_append]
    · have hs : (fieldsOf sep (s ++ sep :: t)).1 :: (fieldsOf sep (s ++ sep :: t)).2 =
          (fieldsOf sep s).1 :: ((fieldsOf sep s).2 ++ splitOn sep t) := ih
      injection hs with hfirst hothers
      rw [List.cons_append, splitOn_cons_of_ne hb, splitOn_cons_of_ne hb, hfirst, hothers,
        List.cons_append]

theorem splitOn_append (h : sep ∉ s) (t : Bytes) :
    splitOn sep (s ++ sep :: t) = s :: splitOn sep t := by
  rw [splitOn_append_sep, splitOn_of_notMem h, List.singleton_append]

/-- Texts that each end with a separator come apart into their fields, with nothing behind the last
separator. -/
theorem splitOn_flatMap_sep (texts : List Bytes) :
    splitOn sep (texts.flatMap (· ++ [sep])) = texts.flatMap (splitOn sep) ++ [[]] := by
  induction texts with
  | nil => rfl
  | cons text texts ih =>
    rw [List.flatMap_cons, List.append_assoc, List.singleton_append, splitOn_append_sep, ih,
      List.flatMap_cons, List.append_assoc]

theorem splitOn_flatMap {fields : List Bytes} (h : ∀ field ∈ fields, sep ∉ field) :
    splitOn sep (fields.flatMap (· ++ [sep])) = fields ++ [[]] := by
  have hfields : fields.flatMap (splitOn sep) = fields.flatMap ([·]) :=
    List.flatMap_congr fun field hmem => splitOn_of_notMem (h field hmem)
  rw [splitOn_flatMap_sep, hfields, List.flatMap_singleton']

/-- Whatever stands in a text is a separator or stands in one of the fields. -/
theorem mem_splitOn (h : b ∈ s) : b = sep ∨ ∃ field ∈ splitOn sep s, b ∈ field := by
  induction s with
  | nil => cases h
  | cons first s ih =>
    by_cases hfirst : first = sep
    · rw [hfirst, splitOn_cons_sep]
      rcases List.mem_cons.1 h with rfl | hmem
      · exact .inl hfirst
      · exact (ih hmem).imp_right fun ⟨field, hfield, hin⟩ =>
          ⟨field, List.mem_cons_of_mem [] hfield, hin⟩
    · rw [splitOn_cons_of_ne hfirst]
      rcases List.mem_cons.1 h with rfl | hmem
      · exact .inr ⟨_, List.mem_cons_self, List.mem_cons_self⟩
      · refine (ih hmem).imp_right ?_
        rintro ⟨field, hfield, hin⟩
        rcases List.mem_cons.1 hfield with rfl | hfield
        · exact ⟨_, List.mem_cons_self, List.mem_cons_of_mem first hin⟩
        · exact ⟨field, List.mem_cons_of_mem _ hfield, hin⟩

theorem cutAt_append (h : sep ∉ before) :
    cutAt sep (before ++ sep :: after) = some (before, after) := by
  have hall : ∀ b ∈ before, decide (b ≠ sep) = true := fun b hb =>
    decide_eq_true fun heq => h (heq ▸ hb)
  unfold cutAt
  rw [List.dropWhile_append_of_pos hall, List.takeWhile_append_of_pos hall]
  simp

theorem eq_of_cutAt (h : cutAt sep s = some (before, after)) : s = before ++ sep :: after := by
  unfold cutAt at h
  split at h
  · cases h
  · next b rest hdrop =>
    cases h
    have hb : b = sep := by
      have hhead := List.head?_dropWhile_not (fun x => decide (x ≠ sep)) s
      rw [hdrop] at hhead
      simpa using hhead
    calc s = s.takeWhile (· ≠ sep) ++ s.dropWhile (· ≠ sep) := List.takeWhile_append_dropWhile.symm
      _ = s.takeWhile (· ≠ sep) ++ sep :: after := by rw [hdrop, hb]

/-! ## Fields that start alike -/

variable {p : Bytes}

theorem prefix_first_iff (h : sep ∉ p) : p <+: (fieldsOf sep s).1 ↔ p <+: s := by
  induction s generalizing p with
  | nil => rfl
  | cons b s ih =>
    cases p with
    | nil => simp
    | cons first p =>
      have hp : sep ∉ p := fun hmem => h (List.mem_cons_of_mem first hmem)
      have hfirst : first ≠ sep := fun heq => h (heq ▸ List.mem_cons_self)
      by_cases hb : b = sep
      · simp [fieldsOf, hb, List.cons_prefix_cons, hfirst]
      · have hcons : (fieldsOf sep (b :: s)).1 = b :: (fieldsOf sep s).1 := by simp [fieldsOf, hb]
        rw [hcons, List.cons_prefix_cons, List.cons_prefix_cons, ih hp]

/-- Behind the first field, one starts with a text where the text stands behind a separator. -/
theorem exists_prefix_iff (h : sep ∉ p) :
    (∃ field ∈ (fieldsOf sep s).2, p <+: field) ↔ sep :: p <:+: s := by
  induction s with
  | nil => simp [fieldsOf]
  | cons b s ih =>
    rw [List.infix_cons_iff, List.cons_prefix_cons]
    by_cases hb : b = sep
    · have hcons : (fieldsOf sep (b :: s)).2 = (fieldsOf sep s).1 :: (fieldsOf sep s).2 := by
        simp [fieldsOf, hb]
      rw [hcons, List.exists_mem_cons_iff, prefix_first_iff h, ih]
      simp [hb]
    · have hcons : (fieldsOf sep (b :: s)).2 = (fieldsOf sep s).2 := by simp [fieldsOf, hb]
      rw [hcons, ih]
      simp [Ne.symm hb]

theorem filter_others_eq_nil_iff (h : sep ∉ p) :
    (fieldsOf sep s).2.filter p.isPrefixOf = [] ↔ ¬ sep :: p <:+: s := by
  rw [← exists_prefix_iff h, List.filter_eq_nil_iff]
  simp

theorem filter_splitOn_eq_nil_iff (h : sep ∉ p) :
    (splitOn sep s).filter p.isPrefixOf = [] ↔ ¬ p <+: s ∧ ¬ sep :: p <:+: s := by
  rw [← filter_others_eq_nil_iff h, ← prefix_first_iff h, splitOn, List.filter_cons]
  split
  · next hfirst => simp [List.isPrefixOf_iff_prefix.1 hfirst]
  · next hfirst => simp [mt List.isPrefixOf_iff_prefix.2 hfirst]

/-- Where texts follow each other of which the first starts with `p`, no other field does if `p`
stands behind no separator and the other texts do not start with it. -/
theorem length_filter_flatMap_eq_one_iff {first : Bytes} {texts : List Bytes} (h : sep ∉ p)
    (hne : p ≠ []) (hfirst : p <+: first) :
    ((splitOn sep ((first :: texts).flatMap (· ++ [sep]))).filter p.isPrefixOf).length = 1 ↔
      ¬ sep :: p <:+: first ∧ ∀ text ∈ texts, ¬ p <+: text ∧ ¬ sep :: p <:+: text := by
  have hlast : [([] : Bytes)].filter p.isPrefixOf = [] := by
    cases p with
    | nil => exact absurd rfl hne
    | cons b p => rfl
  have hhead : p.isPrefixOf (fieldsOf sep first).1 = true :=
    List.isPrefixOf_iff_prefix.2 ((prefix_first_iff h).2 hfirst)
  have hothers : (texts.flatMap (splitOn sep)).filter p.isPrefixOf = [] ↔
      ∀ text ∈ texts, ¬ p <+: text ∧ ¬ sep :: p <:+: text := by
    simp only [List.filter_flatMap, List.flatMap_eq_nil_iff, filter_splitOn_eq_nil_iff h]
  rw [splitOn_flatMap_sep, List.flatMap_cons, List.filter_append, List.filter_append, hlast,
    List.append_nil, splitOn, List.filter_cons_of_pos hhead, ← hothers,
    ← filter_others_eq_nil_iff h, List.cons_append, List.length_cons, List.length_append]
  simp only [← List.length_eq_zero_iff]
  omega

/-- What starts with a byte does not start where there is none. -/
theorem infix_append_of_notMem (h : b ∉ s) : b :: p <:+: s ++ t ↔ b :: p <:+: t := by
  induction s with
  | nil => rfl
  | cons first s ih =>
    obtain ⟨hfirst, hs⟩ := not_or.1 (mt List.mem_cons.2 h)
    rw [List.cons_append, List.infix_cons_iff, List.cons_prefix_cons, ih hs]
    simp [hfirst]

theorem prefix_of_prefix_append_cons (h : b ∉ p) (hstarts : p <+: s ++ b :: t) : p <+: s := by
  rcases List.prefix_or_prefix_of_prefix hstarts (List.prefix_append s (b :: t)) with hp | hs
  · exact hp
  · obtain ⟨rest, rfl⟩ := hs
    rw [List.prefix_append_right_inj, List.prefix_cons_iff] at hstarts
    rcases hstarts with rfl | ⟨rest, rfl, _⟩
    · simp
    · exact absurd (List.mem_append_right s List.mem_cons_self) h

/-- What has a byte in it nowhere stands before the byte or behind it. -/
theorem infix_append_cons_iff (h : b ∉ p) (hne : p ≠ []) :
    p <:+: s ++ b :: t ↔ p <:+: s ∨ p <:+: t := by
  constructor
  · intro hinside
    induction s with
    | nil =>
      refine .inr ((List.infix_cons_iff.1 hinside).resolve_left fun hstarts => hne ?_)
      exact List.prefix_nil.1 (prefix_of_prefix_append_cons (s := []) h hstarts)
    | cons first s ih =>
      rcases List.infix_cons_iff.1 hinside with hstarts | hinside
      · exact .inl (prefix_of_prefix_append_cons (s := first :: s) h hstarts).isInfix
      · exact (ih hinside).imp_left fun hs => hs.trans (List.infix_cons (List.infix_refl s))
  · rintro (hs | ht)
    · exact hs.trans (List.infix_append' [] s (b :: t))
    · exact ht.trans ((List.suffix_cons b t).trans (List.suffix_append s (b :: t))).isInfix

/-! ## Blanks -/

/-- A text without blanks. -/
def Unblank (s : Bytes) : Prop := ∀ b ∈ s, isBlank b = false

instance : DecidablePred Unblank := fun s => List.decidableBAll (isBlank · = false) s

theorem Unblank.append (hs : Unblank s) (ht : Unblank t) : Unblank (s ++ t) :=
  fun b hb => (List.mem_append.1 hb).elim (hs b) (ht b)

theorem Unblank.notMem (hs : Unblank s) (hb : isBlank b = true) : b ∉ s := by
  intro hmem
  cases (hs b hmem).symm.trans hb

/-- A text between bytes that are not blank has no blanks around it. -/
theorem trim_of_ends {first last : UInt8} (hfirst : isBlank first = false)
    (hlast : isBlank last = false) (middle : Bytes) :
    trim (first :: middle ++ [last]) = first :: middle ++ [last] := by
  have hend : trimEnd (first :: middle ++ [last]) = first :: middle ++ [last] := by
    have hreverse : (first :: middle ++ [last]).reverse = last :: (first :: middle).reverse :=
      List.reverse_append
    rw [trimEnd, hreverse, List.dropWhile_cons_of_neg (by simp [hlast]), ← hreverse,
      List.reverse_reverse]
  unfold trim
  rw [hend]
  exact List.dropWhile_cons_of_neg (by simp [hfirst])

end Bytes

/-! ## Hexadecimal text -/

theorem Hex.unblank_of_decode {text bytes : Bytes} (h : decode text = .ok bytes) :
    Bytes.Unblank text := by
  intro b hb
  have hdigit := (spells_of_decode h).1.2 b hb
  unfold IsDigit at hdigit
  unfold Bytes.isBlank
  grind

/-! ## The request line -/

theorem MessageType.ofName?_name (m : MessageType) : ofName? m.name = some m := by
  cases m <;> decide

theorem MessageType.unblank_name (m : MessageType) : Bytes.Unblank m.name := by
  cases m <;> decide

theorem Cipher.ofName?_name (cipher : Cipher) : ofName? cipher.name = some cipher := by
  cases cipher <;> decide

theorem Cipher.unblank_name (cipher : Cipher) : Bytes.Unblank cipher.name := by
  cases cipher <;> decide

theorem HashAlgorithm.unblank_of_ofName? {name : Bytes} {algorithm : HashAlgorithm}
    (h : ofName? name = some algorithm) : Bytes.Unblank name := by
  have hname : algorithm.name = name := of_decide_eq_true
    (List.find?_some (p := fun algorithm : HashAlgorithm => decide (algorithm.name = name)) h)
  rw [← hname]
  cases algorithm <;> decide

namespace RequestLine

open Bytes

variable {field cipherField typeName iv ivHex : Bytes} {keyHash : KeyHash} {cipher : Cipher}

/-- A key hash that is read stands in its field, and both of its parts are hexadecimal. -/
theorem fields_of_parseKeyHash (h : parseKeyHash field = .ok keyHash) :
    ∃ name, splitOn 0x3a field = [name, keyHash.hash ++ 0x2e :: keyHash.salt] ∧
      HashAlgorithm.ofName? name = some keyHash.algorithm ∧
      (∃ hash, Hex.decode keyHash.hash = .ok hash) ∧
      ∃ salt, Hex.decode keyHash.salt = .ok salt := by
  unfold parseKeyHash at h
  split at h
  · next name hashAndSalt hfields =>
    split at h
    · cases h
    · next hname =>
      split at h
      · cases h
      · cases h
      · cases h
      · next hash salt _ _ hcut =>
        split at h
        · next hhash hsalt =>
          cases h
          rw [eq_of_cutAt hcut] at hfields
          exact ⟨name, hfields, hname, ⟨_, hhash⟩, ⟨_, hsalt⟩⟩
        · cases h
  · cases h

/-- Neither the name of the hash function nor hexadecimal text has blanks in it. -/
theorem unblank_of_parseKeyHash (h : parseKeyHash field = .ok keyHash) :
    field ≠ [] ∧ Unblank field := by
  obtain ⟨name, hfields, hname, ⟨_, hhash⟩, _, hsalt⟩ := fields_of_parseKeyHash h
  have hboth : Unblank (keyHash.hash ++ 0x2e :: keyHash.salt) :=
    (Hex.unblank_of_decode hhash).append (List.forall_mem_cons.2 ⟨rfl, Hex.unblank_of_decode hsalt⟩)
  refine ⟨?_, fun b hb => ?_⟩
  · rintro rfl
    cases hfields
  · have hwhere : b = 0x3a ∨ ∃ part ∈ splitOn 0x3a field, b ∈ part := mem_splitOn hb
    rcases hwhere with rfl | ⟨part, hpart, hin⟩
    · rfl
    · rw [hfields] at hpart
      rcases List.mem_cons.1 hpart with rfl | hpart
      · exact HashAlgorithm.unblank_of_ofName? hname b hin
      · rw [List.mem_singleton.1 hpart] at hin
        exact hboth b hin

/-- The field for a cipher and an initialization vector. -/
def cipherText (cipher : Cipher) (ivHex : Bytes) : Bytes := cipher.name ++ 0x3a :: ivHex

theorem parseCipher_cipherText (hiv : Hex.decode ivHex = .ok iv) :
    parseCipher (cipherText cipher ivHex) = .ok (cipher, iv) := by
  have hcolon : 0x3a ∉ cipher.name := by cases cipher <;> decide
  unfold parseCipher cipherText
  rw [cutAt_append hcolon]
  simp only [Option.getD_some, Cipher.ofName?_name, hiv]
  rfl

theorem unblank_cipherText (hiv : Hex.decode ivHex = .ok iv) : Unblank (cipherText cipher ivHex) :=
  cipher.unblank_name.append (List.forall_mem_cons.2 ⟨rfl, Hex.unblank_of_decode hiv⟩)

/-- A request line with these fields. -/
def text (messageType : MessageType) (cipherField keyHashField : Bytes) : Bytes :=
  ascii "GNTP/1.0" ++ 0x20 :: (messageType.name ++ 0x20 :: (cipherField ++ 0x20 :: keyHashField))

variable {messageType : MessageType}

theorem trim_text (hne : field ≠ []) (hfield : Unblank field) :
    trim (text messageType cipherField field) = text messageType cipherField field := by
  obtain ⟨front, last, rfl⟩ := List.eq_nil_or_concat field |>.resolve_left hne
  have hlast : isBlank last = false := hfield last (by simp)
  have hends : text messageType cipherField (front ++ [last]) =
      0x47 :: (ascii "NTP/1.0" ++ 0x20 :: (messageType.name ++ 0x20 :: (cipherField ++
        0x20 :: front))) ++ [last] := by
    unfold text
    simp
    rfl
  rw [List.concat_eq_append, hends]
  exact trim_of_ends rfl hlast _

theorem lf_notMem_text (hcipher : Unblank cipherField) (hfield : Unblank field) :
    lf ∉ text messageType cipherField field := by
  have hname : lf ∉ messageType.name := messageType.unblank_name.notMem rfl
  simp only [text, List.mem_append, List.mem_cons, not_or]
  exact ⟨by decide, by decide, hname, by decide, hcipher.notMem rfl, by decide, hfield.notMem rfl⟩

/-- A request line is read for what its fields are read for. -/
theorem parse_text (hcipher : parseCipher cipherField = .ok (cipher, iv))
    (hblank : Unblank cipherField) (hkey : parseKeyHash field = .ok keyHash) :
    parse (text messageType cipherField field) = .ok ⟨messageType, cipher, iv, some keyHash⟩ := by
  obtain ⟨hne, hfield⟩ := unblank_of_parseKeyHash hkey
  have hfields : splitOn 0x20 (text messageType cipherField field) =
      [ascii "GNTP/1.0", messageType.name, cipherField, field] := by
    have hspace {s : Bytes} (hs : Unblank s) : 0x20 ∉ s := hs.notMem rfl
    unfold text
    rw [splitOn_append (by decide), splitOn_append (hspace messageType.unblank_name),
      splitOn_append (hspace hblank), splitOn_of_notMem (hspace hfield)]
  have hprotocol : checkProtocol (ascii "GNTP/1.0") = .ok () := by rfl
  unfold parse
  rw [trim_text hne hfield, hfields]
  simp only [List.headD_cons, hprotocol, parseFields, MessageType.ofName?_name, hcipher, hkey]
  rfl

end RequestLine

end Gntp
