import Mathlib.Data.List.TakeWhile
import Gntp.Proofs.Fields

/-!
# What trimming leaves

A text comes apart into blanks, a text that neither starts nor ends with a blank, and blanks again,
in one way only (`Bytes.trim_eq_iff`).
-/

namespace Gntp.Bytes

variable {s before after : Bytes}

/-- A text of blanks. -/
def Blank (s : Bytes) : Prop := ∀ b ∈ s, isBlank b = true

/-- A text that neither starts nor ends with a blank. -/
structure Trimmed (s : Bytes) : Prop where
  first : ∀ b, s.head? = some b → isBlank b = false
  last : ∀ b, s.getLast? = some b → isBlank b = false

theorem Trimmed.nil : Trimmed [] := ⟨nofun, nofun⟩

/-- What is left of a text of blanks and some text is left of that text. -/
theorem trimStart_blank_append (h : Blank before) (s : Bytes) :
    trimStart (before ++ s) = trimStart s := List.dropWhile_append_of_pos h

theorem trimStart_of_first (h : ∀ b, s.head? = some b → isBlank b = false) : trimStart s = s := by
  cases s with
  | nil => rfl
  | cons b rest => exact List.dropWhile_cons_of_neg (by simp [h b rfl])

theorem first_of_trimStart (s : Bytes) (b : UInt8) (h : (trimStart s).head? = some b) :
    isBlank b = false := by
  have hfirst := List.head?_dropWhile_not isBlank s
  rw [← trimStart, h] at hfirst
  exact hfirst

theorem trimEnd_eq (s : Bytes) : trimEnd s = (trimStart s.reverse).reverse := rfl

theorem exists_trimStart (s : Bytes) : ∃ before, Blank before ∧ s = before ++ trimStart s :=
  ⟨s.takeWhile isBlank, fun _ h => List.mem_takeWhile_imp h,
    List.takeWhile_append_dropWhile.symm⟩

theorem exists_trimEnd (s : Bytes) : ∃ after, Blank after ∧ s = trimEnd s ++ after := by
  obtain ⟨after, hblank, hsplit⟩ := exists_trimStart s.reverse
  refine ⟨after.reverse, fun b hb => hblank b (List.mem_reverse.1 hb), ?_⟩
  rw [trimEnd_eq, ← List.reverse_append, ← hsplit, List.reverse_reverse]

/-- Blanks behind a text make no difference to what stands before them. -/
theorem trimEnd_append_blank (h : Blank after)
    (hlast : ∀ b, s.getLast? = some b → isBlank b = false) : trimEnd (s ++ after) = s := by
  have hreverse : Blank after.reverse := fun b hb => h b (List.mem_reverse.1 hb)
  rw [trimEnd_eq, List.reverse_append, trimStart_blank_append hreverse, trimStart_of_first,
    List.reverse_reverse]
  rwa [List.head?_reverse]

theorem trimmed_trim (s : Bytes) : Trimmed (trim s) where
  first := first_of_trimStart (trimEnd s)
  last b h := by
    -- The last byte that is left is the last one that the trimming of the end has left.
    obtain ⟨before, _, hsplit⟩ := exists_trimStart (trimEnd s)
    rw [← trim] at hsplit
    have hne : trim s ≠ [] := by
      rintro hnil
      rw [hnil] at h
      cases h
    have hlast : (trimEnd s).getLast? = some b := by
      rw [hsplit, List.getLast?_append_of_ne_nil before hne]
      exact h
    rw [trimEnd_eq, List.getLast?_reverse] at hlast
    exact first_of_trimStart s.reverse b hlast

theorem trim_of_split (h : Trimmed s) (hbefore : Blank before) (hafter : Blank after) :
    trim (before ++ s ++ after) = s := by
  cases s with
  | nil =>
    rw [List.append_nil]
    have hblank : Blank (before ++ after) := List.forall_mem_append.2 ⟨hbefore, hafter⟩
    have hend : trimEnd (before ++ after) = [] := trimEnd_append_blank (s := []) hblank nofun
    rw [trim, hend]
    rfl
  | cons b rest =>
    have hlast : ∀ c, (before ++ b :: rest).getLast? = some c → isBlank c = false := by
      rw [List.getLast?_append_of_ne_nil _ (List.cons_ne_nil b rest)]
      exact h.last
    rw [trim, trimEnd_append_blank hafter hlast, trimStart_blank_append hbefore,
      trimStart_of_first h.first]

/-- What trimming leaves of a text is what stands between the blanks at both ends. -/
theorem trim_eq_iff {t : Bytes} : trim s = t ↔
    Trimmed t ∧ ∃ before after, Blank before ∧ Blank after ∧ s = before ++ t ++ after := by
  constructor
  · rintro rfl
    obtain ⟨after, hafter, hend⟩ := exists_trimEnd s
    obtain ⟨before, hbefore, hstart⟩ := exists_trimStart (trimEnd s)
    refine ⟨trimmed_trim s, before, after, hbefore, hafter, ?_⟩
    calc s = trimEnd s ++ after := hend
      _ = before ++ trim s ++ after := by rw [trim, ← hstart]
  · rintro ⟨ht, before, after, hbefore, hafter, rfl⟩
    exact trim_of_split ht hbefore hafter

theorem trim_of_trimmed (h : Trimmed s) : trim s = s :=
  trim_eq_iff.2 ⟨h, [], [], nofun, nofun, (List.append_nil s).symm⟩

@[simp] theorem trim_trim (s : Bytes) : trim (trim s) = trim s := trim_of_trimmed (trimmed_trim s)

theorem trim_blank_append (h : Blank before) (s : Bytes) : trim (before ++ s) = trim s := by
  obtain ⟨ht, first, after, hfirst, hafter, hsplit⟩ := trim_eq_iff.1 (rfl : trim s = trim s)
  have hblank : Blank (before ++ first) := List.forall_mem_append.2 ⟨h, hfirst⟩
  refine trim_eq_iff.2 ⟨ht, before ++ first, after, hblank, hafter, ?_⟩
  rw [List.append_assoc before, List.append_assoc before, ← hsplit]

theorem trim_eq_nil : trim s = [] ↔ ∀ b ∈ s, isBlank b = true := by
  rw [trim_eq_iff]
  constructor
  · rintro ⟨_, before, after, hbefore, hafter, rfl⟩
    rw [List.append_nil]
    exact List.forall_mem_append.2 ⟨hbefore, hafter⟩
  · intro h
    exact ⟨.nil, s, [], h, nofun, by simp⟩

end Gntp.Bytes
