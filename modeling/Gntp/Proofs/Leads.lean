import Gntp.Proofs.Run

/-!
# Where actions lead

`Leads x s Q E` says of an action begun in a state that it ends in a result and a state of `Q`, or
with a failure of `E`. There is one rule for each way to build an action, so a proof follows the
text of the action; `proceed_leads` and `finish_leads` are the rules for the loop of a reading and
for a whole reading.
-/

namespace Gntp

namespace Action

variable {σ α β : Type}

/-- Begun in `s`, the action ends in a result and a state of `Q`, or with a failure of `E`. -/
def Leads (x : Action σ α) (s : σ) (Q : α → σ → Prop) (E : Failure → Prop) : Prop :=
  match x s with
  | .ok a s' => Q a s'
  | .error failure _ => E failure

namespace Leads

variable {x : Action σ α} {f : α → Action σ β} {s s' : σ} {a : α} {Q Q' : α → σ → Prop}
  {R : β → σ → Prop} {E : Failure → Prop} {failure : Failure}

theorem of_ok (h : x.Leads s Q E) (hx : x s = .ok a s') : Q a s' := by
  unfold Leads at h
  rw [hx] at h
  exact h

theorem of_error (h : x.Leads s Q E) (hx : x s = .error failure s') : E failure := by
  unfold Leads at h
  rw [hx] at h
  exact h

/-- An action leads where its outcome says that it does. -/
theorem intro (hok : ∀ a s', x s = .ok a s' → Q a s')
    (herror : ∀ failure s', x s = .error failure s' → E failure) : x.Leads s Q E := by
  unfold Leads
  cases hx : x s with
  | ok a s' => exact hok a s' hx
  | error failure s' => exact herror failure s' hx

theorem mono (h : x.Leads s Q E) (hQ : ∀ a s', Q a s' → Q' a s') : x.Leads s Q' E :=
  .intro (fun a s' hx => hQ a s' (h.of_ok hx)) fun _ _ hx => h.of_error hx

/-- What an action keeps in view, it keeps wherever it leads. -/
theorem keeping {τ : Type} {view : σ → τ} (h : x.Leads s Q E) (hx : Keeps view x) :
    x.Leads s (fun a s' => Q a s' ∧ view s' = view s) E :=
  .intro (fun _ _ heq => ⟨h.of_ok heq, hx.of_ok heq⟩) fun _ _ heq => h.of_error heq

theorem pure (h : Q a s) : Leads (pure a) s Q E := h

theorem throw (h : E failure) : Leads (throw failure : Action σ α) s Q E := h

theorem get_bind {f : σ → Action σ β} (h : (f s).Leads s R E) : Leads (get >>= f) s R E := h

theorem modify_bind {g : σ → σ} {f : Unit → Action σ β} (h : (f ()).Leads (g s) R E) :
    Leads (modify g >>= f) s R E := h

theorem modify {g : σ → σ} {Q : Unit → σ → Prop} (h : Q () (g s)) :
    Leads (modify g) s Q E := h

theorem bind (hx : x.Leads s Q E) (hf : ∀ a s', Q a s' → (f a).Leads s' R E) :
    (x >>= f).Leads s R E := by
  cases h : x s with
  | ok a s₁ =>
    unfold Leads
    rw [bind_of_ok h]
    exact hf a s₁ (hx.of_ok h)
  | error failure s₁ =>
    unfold Leads
    rw [bind_of_error h]
    exact hx.of_error h

theorem check_bind {outcome : Except Rejection α}
    (hok : ∀ a, outcome = .ok a → (f a).Leads s R E)
    (herror : ∀ reason, outcome = .error reason → E (.rejected reason)) :
    Leads (Action.check outcome >>= f) s R E := by
  cases outcome with
  | ok a => exact hok a rfl
  | error reason => exact herror reason rfl

end Leads

end Action

namespace Reading

open Gntp.Action

variable {gate : Gate} {E : Failure → Prop} {r : Reading}

theorem onInbound_leads {α : Type} {action : Action Inbound α} {Q : α → Reading → Prop}
    (h : action.Leads r.inbound (fun a inbound => Q a { r with inbound }) E) :
    (onInbound action).Leads r Q E := by
  unfold Leads onInbound
  unfold Leads at h
  cases hx : action r.inbound with
  | ok a inbound => rw [hx] at h; exact h
  | error failure inbound => rw [hx] at h; exact h

/-- What every step leads back to, the loop ends in. -/
theorem proceed_leads {P : Reading → Prop}
    (hstep : ∀ r : Reading, P r → r.phase.isUnderWay → (advance gate).Leads r (fun _ => P) E)
    (hr : P r) : (proceed gate).Leads r (fun _ r' => P r' ∧ ¬ r'.phase.isUnderWay) E := by
  induction r using proceed.induct gate with
  | case1 r hp _ r₁ h₁ ih =>
    unfold Leads
    rw [proceed_of_advance hp h₁]
    exact ih ((hstep r hr hp).of_ok h₁)
  | case2 r hp failure r₁ h₁ =>
    unfold Leads
    rw [proceed_of_failure hp h₁]
    exact (hstep r hr hp).of_error h₁
  | case3 r hp =>
    unfold Leads
    rw [proceed_of_over hp]
    exact ⟨hr, hp⟩

/-- A whole reading takes the request line and then the loop. -/
theorem finish_leads {P : Reading → Prop} (hp : r.phase = .requestLine)
    (hline : (readRequestLine gate).Leads r (fun phase r' => P { r' with phase }) E)
    (hstep : ∀ r : Reading, P r → r.phase.isUnderWay → (advance gate).Leads r (fun _ => P) E) :
    (finish gate).Leads r
      (fun request r' => P r' ∧ ¬ r'.phase.isUnderWay ∧ request = r'.request) E := by
  unfold Leads
  rw [finish_eq hp]
  cases h : readRequestLine gate r with
  | error failure r₁ => exact hline.of_error h
  | ok phase r₁ =>
    dsimp only
    have hloop := proceed_leads hstep (hline.of_ok h)
    cases h' : proceed gate { r₁ with phase } with
    | error failure r₂ => exact hloop.of_error h'
    | ok _ r₂ => exact ⟨(hloop.of_ok h').1, (hloop.of_ok h').2, rfl⟩

end Reading

end Gntp
