import Gntp.Headers
import Gntp.Proofs.Grammar
import Gntp.Proofs.Trimming

/-!
# Lines that are headers

A line is read as a header just if it says one (`Headers.parseLine_iff`): a key that is not empty,
a colon, and a value between blanks. All it takes is a colon that does not come first
(`Headers.exists_header_iff`).
-/

namespace Gntp.Headers

open Bytes

variable {line key value : Bytes}

/-- A line says a header: the key stands before the first colon, and the value after it, with any
blanks around it. -/
structure Says (line key value : Bytes) : Prop where
  key_ne_nil : key ≠ []
  key_plain : 0x3a ∉ key
  value_trimmed : Trimmed value
  split : ∃ before after, Blank before ∧ Blank after ∧
    line = key ++ 0x3a :: (before ++ value ++ after)

theorem parseLine_iff : parseLine line = .ok (key, value) ↔ Says line key value := by
  constructor
  · intro h
    unfold parseLine at h
    split at h
    · cases h
    · cases h
    · next found rest hne hcut =>
      cases h
      obtain ⟨hline, hplain⟩ := cutAt_eq_some.1 hcut
      obtain ⟨htrimmed, before, after, hbefore, hafter, hrest⟩ :=
        trim_eq_iff.1 (rfl : trim rest = _)
      exact ⟨hne, hplain, htrimmed, before, after, hbefore, hafter, by rw [hline, ← hrest]⟩
  · rintro ⟨hne, hplain, htrimmed, before, after, hbefore, hafter, rfl⟩
    unfold parseLine
    rw [cutAt_append hplain]
    split
    · next hcut => cases hcut
    · next hcut =>
      cases hcut
      exact absurd rfl hne
    · next hcut =>
      cases hcut
      rw [trim_of_split htrimmed hbefore hafter]

/-- A line says a header if there is a colon in it, but not at its start. -/
theorem exists_header_iff : (∃ key value, Says line key value) ↔
    0x3a ∈ line ∧ line.head? ≠ some 0x3a := by
  constructor
  · rintro ⟨key, value, hne, hplain, _, before, after, _, _, rfl⟩
    refine ⟨by simp, ?_⟩
    cases key with
    | nil => exact absurd rfl hne
    | cons b key =>
      rintro hfirst
      exact hplain (Option.some.inj hfirst ▸ List.mem_cons_self)
  · rintro ⟨hmem, hfirst⟩
    obtain ⟨key, rest, rfl, hplain⟩ := List.eq_append_cons_of_mem hmem
    obtain ⟨htrimmed, before, after, hbefore, hafter, hrest⟩ := trim_eq_iff.1 (rfl : trim rest = _)
    refine ⟨key, trim rest, ?_, hplain, htrimmed, before, after, hbefore, hafter, by rw [← hrest]⟩
    rintro rfl
    exact hfirst rfl

/-- What is wrong with a line that says no header. -/
def fault (line : Bytes) : Rejection :=
  if 0x3a ∈ line then .emptyHeaderName line else .headerWithoutColon line

theorem parseLine_of_no_header (h : ¬ ∃ key value, Says line key value) :
    parseLine line = .error (fault line) := by
  unfold fault
  cases hparse : parseLine line with
  | ok header => exact absurd ⟨_, _, parseLine_iff.1 hparse⟩ h
  | error reason =>
    unfold parseLine at hparse
    split at hparse
    · next hcut =>
      cases hparse
      rw [if_neg (cutAt_eq_none.1 hcut)]
    · next hcut =>
      cases hparse
      rw [if_pos]
      rw [(cutAt_eq_some.1 hcut).1]
      exact List.mem_cons_self
    · cases hparse

end Gntp.Headers
