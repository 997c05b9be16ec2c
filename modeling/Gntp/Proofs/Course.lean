import Mathlib.Data.List.Basic
import Mathlib.Logic.Relation
import Gntp.Proofs.Leads

/-!
# The course of a reading

The readings that a reading comes through (`Reaches`) and the header lines that it takes on its way
(`HeaderRead`). Where one reading reaches another, both end alike (`proceed_of_reaches`).
-/

namespace Gntp

open Gntp.Action

namespace Headers

/-- A header line whose value refers to the resource with this identifier. -/
def Names (line identifier : Bytes) : Prop :=
  identifier ≠ [] ∧ ∃ key, parseLine line = .ok (key, referenceLead ++ identifier)

variable {h headers : Headers} {line identifier key value : Bytes}

theorem not_names_nil : ¬ Names [] identifier := by
  rintro ⟨_, key, h⟩
  cases h

theorem record_eq_ok : h.record line = .ok ((key, value), headers) ↔
    parseLine line = .ok (key, value) ∧ headers = h.set key value := by
  unfold record
  cases parseLine line with
  | error reason => exact ⟨nofun, nofun⟩
  | ok entry =>
    constructor
    · intro h
      cases h
      exact ⟨rfl, rfl⟩
    · rintro ⟨h, rfl⟩
      cases h
      rfl

theorem reference?_eq_some :
    reference? value = .ok (some identifier) ↔
      identifier ≠ [] ∧ value = referenceLead ++ identifier := by
  unfold reference?
  split
  · next hnone =>
    refine ⟨nofun, ?_⟩
    rintro ⟨_, rfl⟩
    cases hnone.symm.trans (List.isPrefixOf?_eq_some_iff_append_eq.2 rfl)
  · next hnil =>
    refine ⟨nofun, ?_⟩
    rintro ⟨hne, rfl⟩
    have hsome := List.isPrefixOf?_eq_some_iff_append_eq.1 hnil
    exact absurd (List.append_cancel_left hsome).symm hne
  · next found hne hsome =>
    rw [← List.isPrefixOf?_eq_some_iff_append_eq.1 hsome]
    constructor
    · intro h
      cases h
      exact ⟨hne, rfl⟩
    · rintro ⟨_, heq⟩
      rw [List.append_cancel_left heq]

end Headers

/-- Taking a line fails for its length only. -/
theorem Inbound.takeLine_leads {E : Failure → Prop} {i : Inbound}
    (hlong : E (.rejected .lineTooLong)) :
    takeLine.Leads i (fun line? i' => takeLine i = .ok line? i') E := by
  refine .intro (fun _ _ h => h) fun failure i' h => ?_
  unfold takeLine at h
  split at h
  · cases h
  · cases h
  · dsimp only at h
    split at h
    · cases h
      exact hlong
    · cases h

namespace Reading

variable {gate : Gate} {r r' r₁ : Reading} {line : Bytes}

/-- The readings that come after a reading, one step after the other. -/
def Reaches (gate : Gate) : Reading → Reading → Prop :=
  Relation.ReflTransGen fun r r' => advance gate r = .ok () r'

/-- The next line is a header of the request or of a notification type. -/
def Offers (r : Reading) (line : Bytes) : Prop :=
  (r.phase = .requestHeaders ∨ r.phase = .typeHeaders) ∧
    ∃ inbound, Inbound.takeLine r.inbound = .ok (some line) inbound

/-- A header line of the request or of a notification type that is read on the way. -/
def HeaderRead (gate : Gate) (r : Reading) (line : Bytes) : Prop :=
  ∃ r', Reaches gate r r' ∧ r'.Offers line

theorem Offers.isUnderWay (h : r.Offers line) : r.phase.isUnderWay := by
  obtain ⟨hp | hp, _⟩ := h <;> rw [hp] <;> rfl

/-- A step is taken at the request line or under way. -/
theorem begun_of_advance (h : advance gate r = .ok () r') :
    r.phase = .requestLine ∨ r.phase.isUnderWay := by
  obtain ⟨phase, r₁, h₁, _⟩ := bind_eq_ok.1 h
  rw [step_eq] at h₁
  generalize r.phase = p at h₁ ⊢
  cases p with
  | requestLine => exact .inl rfl
  | requestHeaders | typeHeaders | resourceHeaders | resourceData => exact .inr rfl
  | complete | answered => cases h₁

/-- Taking the next line leaves the rest of the reading alone. -/
theorem nextLine_leads {E : Failure → Prop} (hlong : E (.rejected .lineTooLong))
    (htruncated : ∀ place, E (.truncated place)) :
    nextLine.Leads r (fun line r' => Inbound.takeLine r.inbound = .ok (some line) r'.inbound ∧
      r' = { r with inbound := r'.inbound }) E := by
  refine .bind (onInbound_leads (Q := fun line? r' =>
    Inbound.takeLine r.inbound = .ok line? r'.inbound ∧ r' = { r with inbound := r'.inbound })
    ((Inbound.takeLine_leads hlong).mono fun _ _ h => ⟨h, rfl⟩)) fun line? r' h => ?_
  cases line? with
  | none => exact .get_bind (.throw (htruncated _))
  | some line => exact .pure h

end Reading

end Gntp
