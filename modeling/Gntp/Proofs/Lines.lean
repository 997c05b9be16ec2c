import Gntp.Bytes
import Mathlib.Data.List.Basic

/-!
# Texts of lines

What can be said of a text that is made of lines with their line ends and a blank line behind them
(`block`), whatever the lines are, as long as none of them is empty or broken: its carriage returns
and line feeds stand in pairs only (`Paired.block`), and there is no blank line but at its end
(`eq_nil_of_block`).
-/

namespace Gntp.Bytes

/-- A text without line breaks. -/
structure Unbroken (s : Bytes) : Prop where
  noCr : cr ∉ s
  noLf : lf ∉ s

/-- Carriage returns and line feeds stand in pairs only. -/
structure Paired (text : Bytes) : Prop where
  lf_of_cr : ∀ before after, text = before ++ cr :: after → ∃ rest, after = lf :: rest
  cr_of_lf : ∀ before after, text = before ++ lf :: after → ∃ start, before = start ++ [cr]

/-- Lines with their line ends, and a blank line behind them. -/
def block (lines : List Bytes) : Bytes := lines.flatMap (· ++ crlf) ++ crlf

variable {s t : Bytes} {lines : List Bytes}

theorem block_cons : block (s :: lines) = s ++ crlf ++ block lines := by
  rw [block, block, List.flatMap_cons, List.append_assoc]

theorem Unbroken.append (hs : Unbroken s) (ht : Unbroken t) : Unbroken (s ++ t) where
  noCr h := (List.mem_append.1 h).elim hs.noCr ht.noCr
  noLf h := (List.mem_append.1 h).elim hs.noLf ht.noLf

theorem Unbroken.head_ne_cr (hs : Unbroken s) (hne : s ≠ []) {rest : Bytes} :
    s ++ t ≠ cr :: rest := by
  cases s with
  | nil => exact absurd rfl hne
  | cons b s =>
    intro h
    cases h
    exact hs.noCr List.mem_cons_self

namespace Paired

theorem of_unbroken (hs : Unbroken s) : Paired s where
  lf_of_cr before after h := by
    subst h
    exact absurd (List.mem_append_right before List.mem_cons_self) hs.noCr
  cr_of_lf before after h := by
    subst h
    exact absurd (List.mem_append_right before List.mem_cons_self) hs.noLf

theorem crlf : Paired crlf where
  lf_of_cr before after h := by
    rcases before with _ | ⟨b, _ | ⟨c, _ | _⟩⟩ <;> cases h
    exact ⟨[], rfl⟩
  cr_of_lf before after h := by
    rcases before with _ | ⟨b, _ | ⟨c, _ | _⟩⟩ <;> cases h
    exact ⟨[], rfl⟩

theorem append (hs : Paired s) (ht : Paired t) : Paired (s ++ t) where
  lf_of_cr before after h := by
    rcases List.append_eq_append_iff.1 h with ⟨middle, _, h⟩ | ⟨middle, hbefore, h⟩
    · exact ht.lf_of_cr middle after h
    · cases middle with
      | nil => exact ht.lf_of_cr [] after h.symm
      | cons b middle =>
        obtain ⟨rfl, rfl⟩ := List.cons.inj h
        obtain ⟨rest, rfl⟩ := hs.lf_of_cr before middle hbefore
        exact ⟨rest ++ t, rfl⟩
  cr_of_lf before after h := by
    rcases List.append_eq_append_iff.1 h with ⟨middle, hbefore, h⟩ | ⟨middle, hbefore, h⟩
    · obtain ⟨start, rfl⟩ := ht.cr_of_lf middle after h
      exact ⟨s ++ start, by rw [hbefore, List.append_assoc]⟩
    · cases middle with
      | nil =>
        -- The line feed would stand first in what follows.
        obtain ⟨start, hstart⟩ := ht.cr_of_lf [] after h.symm
        cases start <;> cases hstart
      | cons b middle =>
        obtain ⟨rfl, rfl⟩ := List.cons.inj h
        exact hs.cr_of_lf before middle hbefore

theorem block (h : ∀ line ∈ lines, Unbroken line) : Paired (block lines) := by
  induction lines with
  | nil => exact crlf
  | cons line lines ih =>
    have hrest : Paired (Bytes.block lines) :=
      ih fun line hmem => h line (List.mem_cons_of_mem _ hmem)
    have hline : Paired (line ++ Bytes.crlf) :=
      (of_unbroken (h line List.mem_cons_self)).append crlf
    rw [block_cons]
    exact hline.append hrest

end Paired

/-- A line ends at its first carriage return. -/
theorem Unbroken.eq_of_append (hs : Unbroken s) {before after : Bytes}
    (h : s ++ crlf = before ++ cr :: after) : before = s ∧ after = [lf] := by
  have hlf : cr ∉ [lf] := by decide
  obtain ⟨rfl, _, rfl⟩ := (List.append_cons_inj_of_notMem hs.noCr hlf).1 h
  exact ⟨rfl, rfl⟩

/-- There is no blank line but at the end. -/
theorem eq_nil_of_block (h : ∀ line ∈ lines, Unbroken line ∧ line ≠ []) {before after : Bytes}
    (heq : block lines = before ++ (crlf ++ crlf) ++ after) : after = [] := by
  induction lines generalizing before with
  | nil =>
    have hlength := congrArg List.length heq
    simp only [block, crlf, List.flatMap_nil, List.nil_append, List.length_append,
      List.length_cons, List.length_nil] at hlength
    omega
  | cons line lines ih =>
    have hlines : ∀ line ∈ lines, Unbroken line ∧ line ≠ [] := fun line hmem =>
      h line (List.mem_cons_of_mem _ hmem)
    have hsplit : (line ++ crlf) ++ block lines = before ++ (crlf ++ crlf ++ after) := by
      rw [← List.append_assoc, ← heq, block_cons]
    rcases List.append_eq_append_iff.1 hsplit with ⟨middle, _, hrest⟩ | ⟨middle, hline, hrest⟩
    · have hin : block lines = middle ++ (crlf ++ crlf) ++ after := by
        rw [hrest, List.append_assoc middle]
      exact ih hlines hin
    · cases middle with
      | nil =>
        have hin : block lines = [] ++ (crlf ++ crlf) ++ after := hrest.symm
        exact ih hlines hin
      | cons b middle =>
        -- The blank line would begin with the end of this line.
        obtain ⟨rfl, htail⟩ := List.cons.inj hrest
        obtain ⟨_, rfl⟩ := (h line List.mem_cons_self).1.eq_of_append hline
        have hnext : block lines = cr :: lf :: after := (List.cons.inj htail).2.symm
        cases lines with
        | nil => exact (List.cons.inj (List.cons.inj hnext).2).2.symm
        | cons next lines =>
          obtain ⟨hunbroken, hne⟩ := hlines next List.mem_cons_self
          rw [block_cons, List.append_assoc] at hnext
          exact absurd hnext (hunbroken.head_ne_cr hne)

end Gntp.Bytes
