import Gntp.Proofs.Permanence
import Gntp.Proofs.Skimming

/-!
# Registering again

A registration that is sent again is nothing new, whatever is answered to it: the registry is left
exactly as it is (`Service.handle_again`). The second exchange may find another store, so that other
payloads are kept or known already, but if it reads a request then it is the same one
(`unplaced_of_parse`), whose calls have all been performed (`Registry.performAll_again`).
-/

namespace Gntp.Service

variable {service : Service} {world world' : World} {input : Bytes} {request : Request}

/-- After a registration that is accepted, at any time and with any store, the same input leaves the
registry as it is. -/
theorem handle_again (h : world.registry.Reachable) (ha : service.Accepts world input request)
    (hsame : world'.registry = (service.handle world input).world.registry) (now : Int) :
    ((service.atTime now).handle world' input).world.registry = world'.registry := by
  have hreachable : world'.registry.Reachable := hsame ▸ reachable_of_handle h
  obtain ⟨g, hg, hperform⟩ := performs_of_accepts h ha
  rw [← hsame] at hperform
  have hagain := Registry.performAll_again hreachable.orderly hperform
  have halters : Alters (service.atTime now) world' input _ := alters_of_handle hreachable
  generalize ((service.atTime now).handle world' input).world.registry = registry at halters
  cases halters with
  | nothing => rfl
  | @registers request' g' _ ha' hg' hperform' =>
    obtain ⟨⟨r, hp⟩, _⟩ := ha
    obtain ⟨⟨r', hp'⟩, _⟩ := ha'
    have hgates : (service.atTime now).gate.timeless = service.gate.timeless := rfl
    have hrequest : request'.undated.unplaced = request.undated.unplaced :=
      Reading.unplaced_of_parse hgates hp hp'
    -- Neither the time nor the place of a resource is registered.
    have hregistration : request'.registration = request.registration :=
      calc request'.registration
        _ = request'.undated.unplaced.registration := rfl
        _ = request.undated.unplaced.registration := by rw [hrequest]
        _ = request.registration := rfl
    rw [hregistration, hg] at hg'
    cases hg'
    rw [hagain] at hperform'
    cases hperform'
    rfl

/-- A registration that declares a type twice and brings its icon along. -/
def repetitive : Bytes :=
  [ascii "GNTP/1.0 REGISTER NONE", ascii "Application-Name: A",
    ascii "Application-Icon: x-growl-resource://i", ascii "Notifications-Count: 3", [],
    ascii "Notification-Name: T", ascii "Notification-Enabled: True", [],
    ascii "Notification-Name: U", [],
    ascii "Notification-Name: T", ascii "Notification-Display-Name: V", [],
    ascii "Identifier: i", ascii "Length: 1", [], ascii "x", []].flatMap (· ++ Bytes.crlf)

theorem handle_again_repetitive :
    ∃ request, unguarded.Accepts { store := .memory { limit := 1 } } repetitive request ∧
      let after := (unguarded.handle { store := .memory { limit := 1 } } repetitive).world
      after.registry ≠ {} ∧
      ((unguarded.atTime 1).handle after repetitive).world.registry = after.registry := by
  have hregisters : Reading.Completes (fun request _ => request.messageType = .register)
      (Reading.parse unguarded.gate (.start repetitive (.memory { limit := 1 }))) := by
    decide +kernel
  obtain ⟨request, r, hp, hm⟩ := Reading.eq_some_of_completes hregisters
  have hstatus : (unguarded.handle { store := .memory { limit := 1 } } repetitive).response.map
      (·.status) = some .ok := by
    decide +kernel
  have haccepts : unguarded.Accepts { store := .memory { limit := 1 } } repetitive request :=
    ⟨⟨r, hp⟩, of_decide_eq_true hm, Option.map_eq_some_iff.1 hstatus⟩
  have hregistered :
      (unguarded.handle { store := .memory { limit := 1 } } repetitive).world.registry ≠ {} := by
    decide +kernel
  exact ⟨request, haccepts, hregistered, handle_again .empty haccepts rfl 1⟩

end Gntp.Service
