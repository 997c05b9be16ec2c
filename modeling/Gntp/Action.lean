import Gntp.Failure

/-! Actions on a state that may fail. An action that fails leaves behind it the state that it had
reached, and nothing is taken back. -/

namespace Gntp

/-- An action on a state of type `σ` that gives an `α` or fails. -/
abbrev Action (σ α : Type) := EStateM Failure σ α

namespace Action

variable {σ α β : Type}

/-- Something that may be refused. -/
def check (outcome : Except Rejection α) : Action σ α :=
  match outcome with
  | .ok a => pure a
  | .error reason => throw (.rejected reason)

/-- The state that an action reaches, whether it fails or not. -/
def final (x : Action σ α) (s : σ) : σ :=
  match x s with
  | .ok _ s' => s'
  | .error _ s' => s'

theorem final_of_ok {x : Action σ α} {s s' : σ} {a : α} (h : x s = .ok a s') : x.final s = s' := by
  simp [final, h]

theorem final_of_error {x : Action σ α} {s s' : σ} {e : Failure} (h : x s = .error e s') :
    x.final s = s' := by
  simp [final, h]

theorem bind_of_ok {ε : Type} {x : EStateM ε σ α} {f : α → EStateM ε σ β} {s s' : σ} {a : α}
    (h : x s = .ok a s') : (x >>= f) s = f a s' := by
  simp only [bind, EStateM.bind, h]

theorem bind_of_error {ε : Type} {x : EStateM ε σ α} {f : α → EStateM ε σ β} {s s' : σ} {e : ε}
    (h : x s = .error e s') : (x >>= f) s = .error e s' := by
  simp only [bind, EStateM.bind, h]

theorem bind_eq_ok {x : Action σ α} {f : α → Action σ β} {s s' : σ} {b : β} :
    (x >>= f) s = .ok b s' ↔ ∃ a s₁, x s = .ok a s₁ ∧ f a s₁ = .ok b s' := by
  simp only [bind, EStateM.bind]
  cases x s with
  | ok a s₁ => simp [and_assoc]
  | error e s₁ => simp

theorem bind_eq_error {x : Action σ α} {f : α → Action σ β} {s s' : σ} {e : Failure} :
    (x >>= f) s = .error e s' ↔
      x s = .error e s' ∨ ∃ a s₁, x s = .ok a s₁ ∧ f a s₁ = .error e s' := by
  simp only [bind, EStateM.bind]
  cases x s with
  | ok a s₁ => simp [and_assoc]
  | error e s₁ => simp

theorem check_eq_error {outcome : Except Rejection α} {s s' : σ} {e : Failure} :
    check outcome s = .error e s' ↔ ∃ reason, outcome = .error reason ∧ e = .rejected reason ∧
      s' = s := by
  cases outcome with
  | ok a => exact ⟨nofun, nofun⟩
  | error reason =>
    constructor
    · intro h
      cases h
      exact ⟨reason, rfl, rfl, rfl⟩
    · rintro ⟨_, h, rfl, rfl⟩
      cases h
      rfl

theorem check_eq_ok {outcome : Except Rejection α} {s s' : σ} {a : α} :
    check outcome s = .ok a s' ↔ outcome = .ok a ∧ s' = s := by
  cases outcome with
  | ok a' =>
    constructor
    · intro h
      cases h
      exact ⟨rfl, rfl⟩
    · rintro ⟨h, rfl⟩
      cases h
      rfl
  | error reason => exact ⟨nofun, nofun⟩

theorem final_congr {x y : Action σ α} {s t : σ} (h : x s = y t) : x.final s = y.final t := by
  rw [final, final, h]

theorem final_bind {x : Action σ α} {f : α → Action σ β} {s : σ} :
    (x >>= f).final s = match x s with
      | .ok a s' => (f a).final s'
      | .error _ s' => s' := by
  simp only [final, bind, EStateM.bind]
  cases x s <;> rfl

/-- An action that leaves a view of the state as it is. -/
def Keeps {τ : Type} (view : σ → τ) (x : Action σ α) : Prop := ∀ s, view (x.final s) = view s

namespace Keeps

variable {τ : Type} {view : σ → τ}

theorem of_ok {x : Action σ α} {s s' : σ} {a : α} (hx : Keeps view x) (h : x s = .ok a s') :
    view s' = view s := by
  rw [← final_of_ok h, hx]

theorem pure (a : α) : Keeps view (pure a : Action σ α) := fun _ => rfl

theorem get : Keeps view (get : Action σ σ) := fun _ => rfl

theorem throw (failure : Failure) : Keeps view (throw failure : Action σ α) := fun _ => rfl

theorem check (outcome : Except Rejection α) : Keeps view (check outcome : Action σ α) := by
  cases outcome <;> exact fun _ => rfl

theorem modify {f : σ → σ} (hf : ∀ s, view (f s) = view s) :
    Keeps view (modify f : Action σ Unit) := hf

theorem bind {x : Action σ α} {f : α → Action σ β} (hx : Keeps view x)
    (hf : ∀ a, Keeps view (f a)) : Keeps view (x >>= f) := by
  intro s
  simp only [final, Bind.bind, EStateM.bind]
  have hs := hx s
  cases h : x s with
  | ok a s₁ =>
    rw [final_of_ok h] at hs
    exact (hf a s₁).trans hs
  | error e s₁ =>
    rw [final_of_error h] at hs
    exact hs

end Keeps

end Action

end Gntp
