import Gntp.Proofs.Locality

/-!
# How much was taken

The number of bytes that were taken off the input is kept for the log. An action is `Uncounted` if it
does not look at it, so that it does the same if the number is off.
-/

namespace Gntp

open Gntp.Action

/-- A state that says how much was taken. -/
class Counted (σ : Type) where
  /-- The state with a number that is off by `n`. -/
  recount : Nat → σ → σ

namespace Counted

instance : Counted Inbound where
  recount n i := { i with consumed := n + i.consumed }

instance : Counted Receiving where
  recount n r := { r with inbound := recount n r.inbound }

instance : Counted Reading where
  recount n r := { r with inbound := recount n r.inbound }

end Counted

open Counted

/-- An action that does not look at how much was taken. -/
def Uncounted {σ α : Type} [Counted σ] (x : Action σ α) : Prop := ∀ n, Mirrors (recount n) x x

namespace Uncounted

variable {σ α β : Type} [Counted σ]

theorem pure (a : α) : Uncounted (pure a : Action σ α) := fun _ => .pure a

theorem throw (failure : Failure) : Uncounted (throw failure : Action σ α) := fun _ => .throw failure

theorem check (outcome : Except Rejection α) : Uncounted (check outcome : Action σ α) :=
  fun _ => .check outcome

theorem modify {f : σ → σ} (hf : ∀ n s, f (recount n s) = recount n (f s)) :
    Uncounted (modify f) := fun n => .modify (hf n)

theorem bind {x : Action σ α} {f : α → Action σ β} (hx : Uncounted x)
    (hf : ∀ a, Uncounted (f a)) : Uncounted (x >>= f) := fun n => .bind (hx n) fun a => hf a n

theorem get_bind {f : σ → Action σ β} (hf : ∀ n s, f (recount n s) = f s)
    (h : ∀ s, Uncounted (f s)) : Uncounted (get >>= f) :=
  fun n => .get_bind fun s => by
    rw [hf]
    exact h s n

end Uncounted

/-! ## The input -/

namespace Inbound

theorem takeLine_uncounted : Uncounted takeLine := by
  intro n i
  obtain ⟨unread, queued, consumed⟩ := i
  match queued, unread with
  | next :: others, _ => rfl
  | [], [] => rfl
  | [], b :: rest =>
    simp only [takeLine, recount]
    split <;> simp [seen, Nat.add_assoc]

theorem lineOr_uncounted (place : Truncation) : Uncounted (lineOr place) :=
  .bind takeLine_uncounted fun line? => by
    cases line? with
    | none => exact .throw _
    | some line => exact .pure line

theorem takeBytes_uncounted (count : Nat) : Uncounted (takeBytes count) := by
  intro n i
  simp only [takeBytes, recount]
  split
  · rfl
  · split <;> simp [seen, Nat.add_assoc]

theorem takeSealedBlock_uncounted (suite : Suite) (sealing : Sealing) :
    Uncounted (takeSealedBlock suite sealing) := by
  intro n i
  simp only [takeSealedBlock, recount]
  split
  · rfl
  · split
    · next block _ => cases sealing.decrypt suite block <;> simp [seen, Nat.add_assoc]
    · simp [seen, Nat.add_assoc]

end Inbound

/-! ## Payloads -/

namespace Payload

theorem onInbound_uncounted {α : Type} {action : Action Inbound α} (h : Uncounted action) :
    Uncounted (Receiving.onInbound action) := by
  intro n r
  have hsame := h n r.inbound
  simp only [Receiving.onInbound, recount] at hsame ⊢
  rw [hsame]
  cases action r.inbound <;> rfl

theorem onStore_uncounted {α : Type} (action : Action Store α) :
    Uncounted (Receiving.onStore action) := by
  intro n r
  simp only [Receiving.onStore, recount]
  cases action r.store <;> rfl

theorem write_uncounted (suite : Suite) (sealing : Sealing) (slot : Slot) (data : Bytes) :
    Uncounted (write suite sealing slot data) := by
  intro n r
  unfold write
  cases sealing.decrypt suite data <;> rfl

end Payload

/-! ## The reading -/

namespace Reading

theorem onInbound_uncounted {α : Type} {action : Action Inbound α} (h : Uncounted action) :
    Uncounted (onInbound action) := by
  intro n r
  have hsame := h n r.inbound
  simp only [onInbound, recount] at hsame ⊢
  rw [hsame]
  cases action r.inbound <;> rfl

theorem Secluded.uncounted {α : Type} {x : Action Reading α} (hx : Secluded x) : Uncounted x :=
  fun n => hx.mirrors (fun c => { c with inbound := recount n c.inbound }) fun _ => rfl

end Reading

end Gntp
