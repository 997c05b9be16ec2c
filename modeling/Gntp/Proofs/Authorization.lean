import Gntp.Proofs.Acting
import Gntp.Proofs.Settled

/-!
# Nothing happens for a stranger

Where passwords are configured, an exchange registers, displays and stores for a sender only whose
request line proves that it knows one of them (`handle_proven_of_effect`). The gate is passed once,
at the request line; the payloads that are read and the answer that is given after it depend on it
through what the request line has settled.
-/

namespace Gntp.Service

open Gntp.Action

variable {service : Service} {world : World} {input : Bytes}

/-- An exchange without authorization has no effect. -/
theorem handle_of_unauthorized (h : Unauthorized service.gate input) :
    (service.handle world input).world = world ∧ (service.handle world input).shown = [] := by
  have hstore : ((Reading.parse service.gate).final (.start input world.store)).store =
      world.store := Reading.store_of_parse h
  cases hp : Reading.parse service.gate (.start input world.store) with
  | error failure r =>
    rw [final_of_error hp] at hstore
    rw [handle_of_unread hp, hstore]
    exact ⟨rfl, rfl⟩
  | ok request? r =>
    rw [final_of_ok hp] at hstore
    cases request? with
    | none =>
      rw [handle_of_truncated hp, hstore]
      exact ⟨rfl, rfl⟩
    | some request =>
      have hignored : request.ignored = true := Reading.ignored_of_parse h hp
      rw [handle_of_accepted hp (Request.act_of_ignored hignored _), hstore]
      exact ⟨rfl, rfl⟩

/-- Whoever changes the registry or the store, or has something displayed, has sent a key hash that
one of the passwords proves. -/
theorem handle_proven_of_effect (hk : service.gate.keyring.passwords ≠ [])
    (h : (service.handle world input).world ≠ world ∨ (service.handle world input).shown ≠ []) :
    ∃ line keyHash, Opens input line ∧ line.keyHash = some keyHash ∧
      ∃ password ∈ service.gate.keyring.passwords,
        keyHash.ProvenBy service.gate.suite password := by
  have hgranted : ∃ line key, Granted service.gate input line (.authorized key) := by
    refine Classical.byContradiction fun hno => ?_
    have hunauthorized : Unauthorized service.gate input := fun line key hg => hno ⟨line, key, hg⟩
    obtain ⟨hworld, hshown⟩ : (service.handle world input).world = world ∧
      (service.handle world input).shown = [] := handle_of_unauthorized hunauthorized
    exact h.elim (· hworld) (· hshown)
  obtain ⟨line, key, hg⟩ := hgranted
  obtain ⟨keyHash, heq, hproven⟩ := hg.authentic.proven hk
  exact ⟨line, keyHash, hg.opens, heq, hproven⟩

/-- A service that knows one password. -/
def knowingSecret : Service where
  gate := { suite := .full, keyring := { passwords := [ascii "secret"] } }

/-- A registration whose key hash is that of the password. -/
def registration : Bytes :=
  [ascii "GNTP/1.0 REGISTER NONE MD5:5062b9292628bc5b48cf58ef3d1770c7.ab",
    ascii "Application-Name: A", ascii "Notifications-Count: 1", [],
    ascii "Notification-Name: T", []].flatMap (· ++ Bytes.crlf)

theorem handle_proven_of_registration :
    (knowingSecret.handle { store := .discard } registration).world ≠ { store := .discard } ∧
    ∃ line keyHash, Opens registration line ∧ line.keyHash = some keyHash ∧
      ∃ password ∈ [ascii "secret"], keyHash.ProvenBy .full password :=
  have heffect :
      (knowingSecret.handle { store := .discard } registration).world ≠ { store := .discard } := by
    decide +kernel
  have hknown : knowingSecret.gate.keyring.passwords ≠ [] := by decide
  ⟨heffect, handle_proven_of_effect hknown (.inl heffect)⟩

end Gntp.Service
