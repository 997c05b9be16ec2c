import Gntp.Inbound
import Gntp.Resource
import Gntp.Store

/-! Receiving the payload that follows the headers of a resource: as many bytes as the headers
say, then one line with nothing but blanks. The payload is taken off the input even if the store
has no use for it. -/

namespace Gntp

/-- What a payload is received from and into. -/
structure Receiving where
  inbound : Inbound
  store : Store
  deriving DecidableEq

namespace Receiving

def onInbound {α : Type} (action : Action Inbound α) : Action Receiving α :=
  fun r => match action r.inbound with
    | .ok a inbound => .ok a { r with inbound }
    | .error failure inbound => .error failure { r with inbound }

def onStore {α : Type} (action : Action Store α) : Action Receiving α :=
  fun r => match action r.store with
    | .ok a store => .ok a { r with store }
    | .error failure store => .error failure { r with store }

end Receiving

namespace Payload

/-- The header that names a resource. -/
def identifierKey : Bytes := ascii "Identifier"

/-- The header that gives the length of a payload. -/
def lengthKey : Bytes := ascii "Length"

/-- The longest payload that is accepted: 64 MiB. -/
def maxLength : Nat := 64 * 1024 * 1024

/-- Reads a length of at most nineteen digits. -/
def parseLength (text : Bytes) : Except Rejection Nat :=
  if ¬ Decimal.isNumeral text ∨ 19 < text.length then .error (.badLength text)
  else if maxLength < Decimal.value text then .error (.resourceTooLarge text)
  else .ok (Decimal.value text)

/-- The identifier and the length that the headers of a resource give. -/
def announced (headers : Headers) : Except Rejection (Bytes × Nat) :=
  match headers.get? identifierKey with
  | none | some [] => .error .missingIdentifier
  | some identifier =>
    match headers.get? lengthKey with
    | none => .error .missingLength
    | some text => do return (identifier, ← parseLength text)

/-- Takes a payload off the input, opens it, and writes it to a slot. -/
def fill (suite : Suite) (sealing : Sealing) (length : Nat) (slot : Slot) :
    Action Receiving Slot := fun r =>
  match Receiving.onInbound (Inbound.takeBytes length) r with
  | .error failure r => .error failure r
  | .ok data r =>
    match sealing.decrypt suite data with
    | .error fault => .error (.cipher fault) r
    | .ok payload =>
      let (slot, store) := r.store.write slot payload
      .ok slot { r with store }

/-- Takes a payload into the slot that the store gave for it. If that fails the slot is given
back. -/
def keep (suite : Suite) (sealing : Sealing) (length : Nat) (slot : Slot) :
    Action Receiving Unit := fun r =>
  if slot.cached then
    match Receiving.onInbound (Inbound.takeBytes length) r with
    | .ok _ r => .ok () r
    | .error failure r => .error failure r
  else match fill suite sealing length slot r with
    | .ok slot r => Receiving.onStore (Store.commit slot) r
    | .error failure r => .error failure { r with store := r.store.abandon slot }

/-- Takes the blank line behind a payload. -/
def takeBlankLine (identifier : Bytes) : Action Inbound Unit := fun i =>
  match Inbound.takeLine i with
  | .error failure i => .error failure i
  | .ok none i => .error (.truncated (.afterResource identifier)) i
  | .ok (some line) i =>
    if Bytes.trim line ≠ [] then .error (.rejected (.noBlankLine (Bytes.trim line))) i
    else .ok () i

/-- Receives the payload of the resource that these headers announce. -/
def receive (suite : Suite) (sealing : Sealing) (headers : Headers) :
    Action Receiving Resource := do
  let (identifier, length) ← Action.check (announced headers)
  let slot ← Receiving.onStore (Store.acquire suite identifier)
  keep suite sealing length slot
  Receiving.onInbound (takeBlankLine identifier)
  pure { identifier, length, cached := slot.cached, location := slot.location, headers }

theorem remaining_le_of_fill {suite : Suite} {sealing : Sealing} {length : Nat} {slot slot' : Slot}
    {r r' : Receiving} (h : fill suite sealing length slot r = .ok slot' r') :
    r'.inbound.remaining ≤ r.inbound.remaining := by
  simp only [fill, Receiving.onInbound] at h
  split at h
  · cases h
  · next data r₁ hb =>
    split at hb
    · next hb =>
      cases hb
      split at h <;> cases h
      exact Inbound.remaining_le_of_takeBytes (by assumption)
    · cases hb

theorem remaining_le_of_keep {suite : Suite} {sealing : Sealing} {length : Nat} {slot : Slot}
    {r r' : Receiving} (h : keep suite sealing length slot r = .ok () r') :
    r'.inbound.remaining ≤ r.inbound.remaining := by
  simp only [keep] at h
  split at h
  · split at h
    · next hb =>
      cases h
      simp only [Receiving.onInbound] at hb
      split at hb <;> cases hb
      exact Inbound.remaining_le_of_takeBytes (by assumption)
    · cases h
  · split at h
    · next hf =>
      have hf := remaining_le_of_fill hf
      simp only [Receiving.onStore] at h
      split at h <;> cases h
      exact hf
    · cases h

theorem remaining_lt_of_takeBlankLine {identifier : Bytes} {i i' : Inbound}
    (h : takeBlankLine identifier i = .ok () i') : i'.remaining < i.remaining := by
  simp only [takeBlankLine] at h
  split at h
  · cases h
  · cases h
  · next hl =>
    split at h <;> cases h
    exact Inbound.remaining_lt_of_takeLine hl

theorem remaining_lt_of_receive {suite : Suite} {sealing : Sealing} {headers : Headers}
    {resource : Resource} {r r' : Receiving}
    (h : receive suite sealing headers r = .ok resource r') :
    r'.inbound.remaining < r.inbound.remaining := by
  obtain ⟨_, r₀, h₀, h⟩ := Action.bind_eq_ok.1 h
  obtain ⟨slot, r₁, h₁, h⟩ := Action.bind_eq_ok.1 h
  obtain ⟨_, r₂, h₂, h⟩ := Action.bind_eq_ok.1 h
  obtain ⟨_, r₃, h₃, h⟩ := Action.bind_eq_ok.1 h
  cases h
  have h₀ := (Action.Keeps.check _ : Action.Keeps Receiving.inbound _).of_ok h₀
  have h₂ := remaining_le_of_keep h₂
  simp only [Receiving.onStore] at h₁
  split at h₁ <;> cases h₁
  simp only [Receiving.onInbound] at h₃
  split at h₃ <;> cases h₃
  rw [← h₀]
  exact Nat.lt_of_lt_of_le (remaining_lt_of_takeBlankLine (by assumption)) h₂

end Payload

end Gntp
