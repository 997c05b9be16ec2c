import Gntp.Proofs.Leads

/-!
# Which phase comes next

A step goes on to one of the phases that `Phase.next` lists for the phase it begins in
(`Reading.mem_next_of_advance`), whatever it reads.
-/

namespace Gntp

open Gntp.Action

namespace Phase

/-- The phases that may come after a phase. -/
def next : Phase → List Phase
  | requestLine => [requestHeaders]
  | requestHeaders => [requestHeaders, typeHeaders, resourceHeaders, complete]
  | typeHeaders => [typeHeaders, resourceHeaders, complete]
  | resourceHeaders => [resourceHeaders, resourceData]
  | resourceData => [resourceHeaders, complete]
  | complete | answered => []

theorem begun_of_mem_next {phase after : Phase} (h : after ∈ phase.next) :
    after.isUnderWay ∨ after = .complete := by
  cases phase <;> cases after <;> simp_all [next, isUnderWay]

/-- There is no way back from the resources to the headers before them. -/
theorem behind_of_mem_next {phase after : Phase} (h : after ∈ phase.next)
    (hphase : phase = .resourceHeaders ∨ phase = .resourceData) :
    after ≠ .requestHeaders ∧ after ≠ .typeHeaders := by
  rcases hphase with rfl | rfl <;> constructor <;> rintro rfl <;> exact absurd h (by decide)

end Phase

namespace Reading

variable {gate : Gate} {r r' : Reading} {phase : Phase}

theorem afterTypes_eq (r : Reading) :
    r.afterTypes = .resourceHeaders ∨ r.afterTypes = .complete := by
  unfold afterTypes
  split
  · exact .inl rfl
  · exact .inr rfl

/-- Whatever an action gives, it is a phase that may come after this one. -/
def LeadsOn (phase : Phase) (x : Action Reading Phase) : Prop :=
  ∀ r, x.Leads r (fun after _ => after ∈ phase.next) fun _ => True

theorem LeadsOn.bind {α : Type} {x : Action Reading α} {f : α → Action Reading Phase}
    (h : ∀ a, LeadsOn phase (f a)) : LeadsOn phase (x >>= f) := fun _ =>
  .bind (Q := fun _ _ => True) (.intro (fun _ _ _ => trivial) fun _ _ _ => trivial)
    fun a s' _ => h a s'

theorem LeadsOn.pure {after : Phase} (h : after ∈ phase.next) :
    LeadsOn phase (pure after) := fun _ => .pure h

theorem LeadsOn.throw (failure : Failure) : LeadsOn phase (throw failure) := fun _ =>
  .throw trivial

theorem LeadsOn.afterTypes (h : .resourceHeaders ∈ phase.next) (h' : .complete ∈ phase.next)
    (r : Reading) : LeadsOn phase (Pure.pure r.afterTypes) := by
  refine .pure ?_
  obtain heq | heq := afterTypes_eq r <;> rw [heq]
  · exact h
  · exact h'

theorem readRequestLine_leadsOn : LeadsOn .requestLine (readRequestLine gate) :=
  .bind fun text? => by
    cases text? with
    | none => exact .throw _
    | some text =>
      exact .bind fun _ => .bind fun _ => .bind fun _ => .bind fun _ => .pure (by decide)

theorem requestHeader_leadsOn (line : Bytes) : LeadsOn .requestHeaders (requestHeader line) := by
  unfold requestHeader
  split
  · exact .bind fun _ => .bind fun _ => .bind fun _ => .bind fun _ => .pure (by decide)
  · refine .bind fun _ => ?_
    split
    · exact .pure (by decide)
    · refine .bind fun _ => ?_
      split
      · exact .bind fun _ => .afterTypes (by decide) (by decide) _
      · refine .bind fun _ => .bind fun _ => .bind fun _ => ?_
        split
        · exact .bind fun _ => .afterTypes (by decide) (by decide) _
        · exact .bind fun _ => .pure (by decide)

theorem typeHeader_leadsOn (line : Bytes) : LeadsOn .typeHeaders (typeHeader line) := by
  unfold typeHeader
  split
  · exact .bind fun _ => .bind fun _ => .bind fun _ => .bind fun _ => .pure (by decide)
  · refine .bind fun _ => .bind fun _ => .bind fun _ => .bind fun r => ?_
    split
    · exact .pure (by decide)
    · exact .afterTypes (by decide) (by decide) r

theorem resourceHeader_leadsOn (line : Bytes) : LeadsOn .resourceHeaders (resourceHeader line) := by
  unfold resourceHeader
  split
  · exact .bind fun _ => .bind fun _ => .bind fun _ => .pure (by decide)
  · refine .bind fun _ => .pure ?_
    split <;> decide

theorem readResourceData_leadsOn {suite : Suite} :
    LeadsOn .resourceData (readResourceData suite) :=
  .bind fun _ => .bind fun _ => .bind fun _ => .bind fun _ => .bind fun _ => .bind fun _ =>
    .bind fun _ => .afterTypes (by decide) (by decide) _

theorem read_leadsOn (gate : Gate) (phase : Phase) : LeadsOn phase (read gate phase) := by
  cases phase with
  | requestLine => exact readRequestLine_leadsOn
  | requestHeaders => exact .bind requestHeader_leadsOn
  | typeHeaders => exact .bind typeHeader_leadsOn
  | resourceHeaders => exact .bind resourceHeader_leadsOn
  | resourceData => exact readResourceData_leadsOn
  | complete | answered => exact .throw _

/-- A step goes on to one of the phases that may come next. -/
theorem mem_next_of_advance (h : advance gate r = .ok () r') : r'.phase ∈ r.phase.next := by
  obtain ⟨after, r₁, hstep, h⟩ := bind_eq_ok.1 h
  cases h
  exact (read_leadsOn gate r.phase r).of_ok hstep

end Reading

end Gntp
