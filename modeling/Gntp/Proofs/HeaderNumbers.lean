import Gntp.Proofs.Numerals
import Gntp.Proofs.Payloads

/-!
# Numbers in headers

The length of a payload and the number of notification types stand in headers as decimal digits,
and are accepted just if these are not too many and the number is not too large
(`Payload.parseLength_eq_ok`, `Reading.parseTypeCount_eq_numeral`). The limit on the digits keeps
the conversion to a word of 64 bits (`Decimal.word64`) from every text that it fails on: read with
any conversion that is right where it has to be, the headers say the same
(`Payload.lengthWith_eq`, `Reading.typeCountWith_eq`).
-/

namespace Gntp

/-! ## Conversion to a word -/

namespace Decimal

/-- Why a text is not converted to a number of 64 bits. -/
inductive ConversionFault where
  | noDigits
  | outOfRange
  deriving DecidableEq

/-- A text without the sign in front, and whether that is a minus sign. -/
def signOf : Bytes → Bool × Bytes
  | 0x2b :: rest => (false, rest)
  | 0x2d :: rest => (true, rest)
  | rest => (false, rest)

/-- Converts the number that a text starts with, behind blanks and a sign, to a word of 64 bits.
What follows its digits is passed over. A minus sign takes the number off `2 ^ 64`. -/
def word64 (text : Bytes) : Except ConversionFault Nat :=
  let (negative, rest) := signOf (Bytes.trimStart text)
  let digits := rest.takeWhile isDigit
  if digits = [] then .error .noDigits
  else if 2 ^ 64 ≤ value digits then .error .outOfRange
  else .ok (if negative then (2 ^ 64 - value digits) % 2 ^ 64 else value digits)

/-- The conversion is right for every numeral of a number of 64 bits. What it does with any other
text, one with a sign or one that it fails on, is left open. -/
def Converts (convert : Bytes → Except ConversionFault Nat) : Prop :=
  ∀ {text : Bytes} {n : Nat}, Numeral text n → n < 2 ^ 64 → convert text = .ok n

variable {text : Bytes} {n : Nat}

theorem Numeral.trimStart_eq (h : Numeral text n) : Bytes.trimStart text = text :=
  Bytes.trimStart_of_first fun _ hb => isBlank_of_digit (h.digits _ (List.mem_of_head? hb))

/-- A digit is no sign. -/
theorem Numeral.signOf_eq (h : Numeral text n) : signOf text = (false, text) := by
  unfold signOf
  split
  · exact absurd (h.digits _ List.mem_cons_self) (by decide)
  · exact absurd (h.digits _ List.mem_cons_self) (by decide)
  · rfl

theorem Numeral.takeWhile_eq (h : Numeral text n) : text.takeWhile isDigit = text :=
  List.takeWhile_eq_self_iff.2 fun b hb => isDigit_iff.2 (h.digits b hb)

theorem converts_word64 : Converts word64 := by
  intro text n h hn
  rw [word64, h.trimStart_eq, h.signOf_eq]
  dsimp only
  rw [h.takeWhile_eq, if_neg h.ne_nil, (numeral_iff.1 h).2, if_neg (Nat.not_le.2 hn)]
  rfl

/-- A sign, a number that is too large and a text without a number. -/
example : word64 (ascii " -1 byte") = .ok (2 ^ 64 - 1) ∧
    word64 (ascii "18446744073709551616") = .error .outOfRange ∧
    word64 (ascii "byte") = .error .noDigits := by decide

end Decimal

/-- Why no number comes of a header: its value is refused, or cannot be converted. -/
inductive NumberFault where
  | refused (reason : Rejection)
  | conversion (fault : Decimal.ConversionFault)
  deriving DecidableEq

open Gntp.Action
open Decimal (Numeral Converts)

variable {text : Bytes} {n : Nat} {convert : Bytes → Except Decimal.ConversionFault Nat}

/-- Converts a text of so many digits at most, and refuses any other. -/
def numberWith (convert : Bytes → Except Decimal.ConversionFault Nat) (most : Nat)
    (refusal : Bytes → Rejection) (text : Bytes) : Except NumberFault Nat :=
  if Decimal.isNumeral text ∧ text.length ≤ most then (convert text).mapError .conversion
  else .error (.refused (refusal text))

/-- Up to nineteen digits are converted without fail. -/
theorem numberWith_eq (hconvert : Converts convert) {most : Nat} (hmost : most ≤ 19)
    (refusal : Bytes → Rejection) (text : Bytes) : numberWith convert most refusal text =
      if Decimal.isNumeral text ∧ text.length ≤ most then .ok (Decimal.value text)
      else .error (.refused (refusal text)) := by
  unfold numberWith
  split
  · next h =>
    have hnumeral : Numeral text (Decimal.value text) := Decimal.numeral_iff.2 ⟨h.1, rfl⟩
    have hfits : Decimal.value text < 2 ^ 64 := calc
      Decimal.value text < 10 ^ text.length := hnumeral.lt_pow
      _ ≤ 10 ^ 19 := Nat.pow_le_pow_right (by decide) (h.2.trans hmost)
      _ < 2 ^ 64 := by decide
    rw [hconvert hnumeral hfits]
    rfl
  · rfl

/-! ## The length of a payload -/

namespace Payload

/-- Reads a length with a conversion that may fail. -/
def lengthWith (convert : Bytes → Except Decimal.ConversionFault Nat) (text : Bytes) :
    Except NumberFault Nat :=
  match numberWith convert 19 .badLength text with
  | .error fault => .error fault
  | .ok n => if maxLength < n then .error (.refused (.resourceTooLarge text)) else .ok n

theorem lengthWith_eq (hconvert : Converts convert) (text : Bytes) :
    lengthWith convert text = (parseLength text).mapError .refused := by
  rw [lengthWith, numberWith_eq hconvert (Nat.le_refl 19), parseLength]
  by_cases h : Decimal.isNumeral text = true ∧ text.length ≤ 19
  · have hnot : ¬ (¬ Decimal.isNumeral text = true ∨ 19 < text.length) := by
      rw [not_or, not_not, Nat.not_lt]
      exact h
    rw [if_pos h, if_neg hnot]
    dsimp only
    split <;> rfl
  · have hor : ¬ Decimal.isNumeral text = true ∨ 19 < text.length := by
      rw [← Nat.not_le]
      exact not_and_or.1 h
    rw [if_neg h, if_pos hor]
    rfl

/-- A length is accepted if it is a numeral of at most nineteen digits and not too large. -/
theorem parseLength_eq_ok : parseLength text = .ok n ↔
    Numeral text n ∧ text.length ≤ 19 ∧ n ≤ maxLength := by
  rw [Decimal.numeral_iff, parseLength]
  split
  · next h =>
    refine ⟨nofun, ?_⟩
    rintro ⟨⟨hnumeral, _⟩, hshort, _⟩
    exact absurd hshort (Nat.not_le.2 (h.resolve_left (not_not.2 hnumeral)))
  · next h =>
    rw [not_or, not_not, Nat.not_lt] at h
    split
    · next hlarge =>
      refine ⟨nofun, ?_⟩
      rintro ⟨⟨_, rfl⟩, _, hsmall⟩
      exact absurd hsmall (Nat.not_le.2 hlarge)
    · next hsmall =>
      rw [Except.ok.injEq]
      constructor
      · rintro rfl
        exact ⟨⟨h.1, rfl⟩, h.2, Nat.not_lt.1 hsmall⟩
      · rintro ⟨⟨_, hvalue⟩, _⟩
        exact hvalue

theorem code_of_parseLength {reason : Rejection} (h : parseLength text = .error reason) :
    reason.code = .invalidRequest := by
  unfold parseLength at h
  split at h
  · cases h
    rfl
  · split at h
    · cases h
      rfl
    · cases h

/-- The length that headers announce is the one in their text. -/
theorem announced_of_length {headers : Headers} {identifier : Bytes}
    (hidentifier : headers.get? identifierKey = some identifier) (hne : identifier ≠ [])
    (htext : headers.get? lengthKey = some text) :
    announced headers = (parseLength text).map fun n => (identifier, n) := by
  cases identifier with
  | nil => exact absurd rfl hne
  | cons b more =>
    rw [announced, hidentifier, htext]
    dsimp only
    cases parseLength text with
    | error reason => rfl
    | ok n => rfl

/-- A length that is refused leaves the input and the store alone. -/
theorem receive_of_refused {suite : Suite} {sealing : Sealing} {headers : Headers}
    {reason : Rejection} (h : announced headers = .error reason) (r : Receiving) :
    receive suite sealing headers r = .error (.rejected reason) r :=
  bind_of_error (check_eq_error.2 ⟨reason, h, rfl, rfl⟩)

end Payload

/-! ## The number of notification types -/

namespace Reading

/-- Reads a count with a conversion that may fail. -/
def typeCountWith (convert : Bytes → Except Decimal.ConversionFault Nat) (text : Bytes) :
    Except NumberFault Nat :=
  numberWith convert 9 .badTypeCount text

theorem typeCountWith_eq (hconvert : Converts convert) (text : Bytes) :
    typeCountWith convert text = (parseTypeCount text).mapError .refused := by
  rw [typeCountWith, numberWith_eq hconvert (by decide), parseTypeCount]
  simp only [Nat.lt_succ_iff]
  split <;> rfl

/-- A count is accepted if it is a numeral of at most nine digits. -/
theorem parseTypeCount_eq_numeral : parseTypeCount text = .ok n ↔
    Numeral text n ∧ text.length ≤ 9 := by
  rw [Decimal.numeral_iff, parseTypeCount]
  split
  · next h =>
    rw [Except.ok.injEq]
    constructor
    · rintro rfl
      exact ⟨⟨h.1, rfl⟩, Nat.le_of_lt_succ h.2⟩
    · rintro ⟨⟨_, hvalue⟩, _⟩
      exact hvalue
  · next h =>
    refine ⟨nofun, ?_⟩
    rintro ⟨⟨hnumeral, _⟩, hshort⟩
    exact absurd ⟨hnumeral, Nat.lt_succ_of_le hshort⟩ h

theorem code_of_parseTypeCount {reason : Rejection} (h : parseTypeCount text = .error reason) :
    reason.code = .invalidRequest := by
  unfold parseTypeCount at h
  split at h
  · cases h
  · cases h
    rfl

variable {r : Reading}

/-- As many types are read as the header says. A count that is refused leaves the reading as it
was. -/
theorem closeRequestHeaders_of_register (hm : r.request.messageType = .register)
    (htext : r.request.headers.getD Key.notificationsCount [] = text) :
    closeRequestHeaders r = match parseTypeCount text with
      | .error reason => .error (.rejected reason) r
      | .ok n =>
        if n = 0 then .ok r.afterTypes { r with typeCount := n }
        else .ok .typeHeaders { r with typeCount := n, block := {} } := by
  subst htext
  refine (bind_of_ok (x := get) rfl).trans ?_
  rw [if_neg (not_not.2 hm)]
  refine (bind_of_ok (x := get) rfl).trans ?_
  cases hcount : parseTypeCount (r.request.headers.getD Key.notificationsCount []) with
  | error reason => exact bind_of_error (check_eq_error.2 ⟨reason, rfl, rfl, rfl⟩)
  | ok n =>
    refine (bind_of_ok (check_eq_ok.2 ⟨rfl, rfl⟩)).trans ?_
    refine (bind_of_ok (x := modify fun r : Reading => { r with typeCount := n }) rfl).trans ?_
    dsimp only
    split <;> rfl

end Reading

/-! ## Both headers -/

/-- What there is to say of a header value that has to be a number: as the length of a payload, and
as the number of notification types. -/
structure ReadsNumber (text : Bytes) : Prop where
  length_iff : ∀ n, Payload.parseLength text = .ok n ↔
    Numeral text n ∧ text.length ≤ 19 ∧ n ≤ Payload.maxLength
  length_refused : (¬ ∃ n, Numeral text n ∧ text.length ≤ 19 ∧ n ≤ Payload.maxLength) →
    ∃ reason, Payload.parseLength text = .error reason ∧ reason.code = .invalidRequest
  announced_eq : ∀ headers identifier, headers.get? Payload.identifierKey = some identifier →
    identifier ≠ [] → headers.get? Payload.lengthKey = some text →
      Payload.announced headers = (Payload.parseLength text).map fun n => (identifier, n)
  receive_eq : ∀ suite sealing headers reason, Payload.announced headers = .error reason →
    ∀ r, Payload.receive suite sealing headers r = .error (.rejected reason) r
  count_iff : ∀ n, Reading.parseTypeCount text = .ok n ↔ Numeral text n ∧ text.length ≤ 9
  count_refused : (¬ ∃ n, Numeral text n ∧ text.length ≤ 9) →
    ∃ reason, Reading.parseTypeCount text = .error reason ∧ reason.code = .invalidRequest
  closes_eq : ∀ r : Reading, r.request.messageType = .register →
    r.request.headers.getD Key.notificationsCount [] = text →
      Reading.closeRequestHeaders r = match Reading.parseTypeCount text with
        | .error reason => .error (.rejected reason) r
        | .ok n =>
          if n = 0 then .ok r.afterTypes { r with typeCount := n }
          else .ok .typeHeaders { r with typeCount := n, block := {} }
  /-- The conversion never fails, and is never asked for a text that it may be wrong about. -/
  length_with : ∀ convert, Converts convert →
    Payload.lengthWith convert text = (Payload.parseLength text).mapError .refused
  count_with : ∀ convert, Converts convert →
    Reading.typeCountWith convert text = (Reading.parseTypeCount text).mapError .refused

/-- Whatever stands in the header. -/
theorem converts_and_readsNumber :
    Converts Decimal.word64 ∧ ∀ text, ReadsNumber text := by
  refine ⟨Decimal.converts_word64, fun text => ?_⟩
  exact {
    length_iff := fun n => Payload.parseLength_eq_ok
    length_refused := by
      intro hnone
      cases hparse : Payload.parseLength text with
      | ok n => exact absurd ⟨n, Payload.parseLength_eq_ok.1 hparse⟩ hnone
      | error reason => exact ⟨reason, rfl, Payload.code_of_parseLength hparse⟩
    announced_eq := fun _ _ => Payload.announced_of_length
    receive_eq := fun _ _ _ _ => Payload.receive_of_refused
    count_iff := fun n => Reading.parseTypeCount_eq_numeral
    count_refused := by
      intro hnone
      cases hparse : Reading.parseTypeCount text with
      | ok n => exact absurd ⟨n, Reading.parseTypeCount_eq_numeral.1 hparse⟩ hnone
      | error reason => exact ⟨reason, rfl, Reading.code_of_parseTypeCount hparse⟩
    closes_eq := fun _ => Reading.closeRequestHeaders_of_register
    length_with := fun _ hconvert => Payload.lengthWith_eq hconvert text
    count_with := fun _ hconvert => Reading.typeCountWith_eq hconvert text }

end Gntp
