import Gntp.Proofs.InternalErrors
import Gntp.Proofs.RegistryCalls

/-!
# What an exchange does to the registry

A registration is a list of calls of the registry: one for its application, then one for each type
that it declares (`Registration.calls`, `Request.register_calls`). An exchange performs the calls of
its request, or leaves the registry as it is (`Service.alters_of_handle`).
-/

namespace Gntp

open Gntp.Action

/-! ## The calls of a registration -/

/-- What a request asks to register. -/
structure Registration where
  name : Bytes
  icon : Bytes
  types : List TypeDeclaration
  deriving DecidableEq

/-- The application comes first, then its types in the order in which they were declared. -/
def Registration.calls (g : Registration) : List Registry.Call :=
  .application g.name g.icon :: g.types.map (.type g.name)

@[simp] theorem Registration.application_mem_calls {g : Registration} {name : Bytes} :
    .application name ∈ g.calls.map Registry.Call.entry ↔ g.name = name := by
  simp [calls, Registry.Call.entry, eq_comm]

@[simp] theorem Registration.type_mem_calls {g : Registration} {owner name : Bytes} :
    .type owner name ∈ g.calls.map Registry.Call.entry ↔
      g.name = owner ∧ ∃ type ∈ g.types, type.name = name := by
  simp only [calls, Registry.Call.entry, List.map_cons, List.map_map, List.mem_cons, reduceCtorEq,
    false_or, List.mem_map, Function.comp_apply, Registry.Entry.type.injEq]
  constructor
  · rintro ⟨type, htype, rfl, rfl⟩
    exact ⟨rfl, type, htype, rfl⟩
  · rintro ⟨rfl, type, htype, rfl⟩
    exact ⟨type, htype, rfl, rfl⟩

/-- Nothing refuses a registration. -/
theorem Registration.performs (g : Registration) (r : Registry) :
    ∃ r', Registry.performAll g.calls r = .ok () r' := by
  obtain ⟨r', h⟩ : ∃ r', Registry.performAll (g.types.map (.type g.name))
      (r.registerApplication g.name g.icon).2 = .ok () r' := by
    refine Registry.performAll_of_owned fun call hcall => ?_
    obtain ⟨declared, _, rfl⟩ := List.mem_map.1 hcall
    rw [Registry.Call.Owned, Registry.application?_registerApplication_self]
    rfl
  exact ⟨r', Registry.performAll_cons.2 ⟨_, rfl, h⟩⟩

namespace Effects

/-- Each declared type is one call. -/
theorem registerTypes_of_performAll {owner : Bytes} {types : List TypeDeclaration} {e : Effects}
    {registry : Registry}
    (h : Registry.performAll (types.map (.type owner)) e.registry = .ok () registry) :
    registerTypes owner types e = .ok () { e with registry } := by
  induction types generalizing e with
  | nil =>
    cases h
    rfl
  | cons first types ih =>
    obtain ⟨registry₁, h₁, h⟩ := Registry.performAll_cons.1 h
    simp only [Registry.perform] at h₁
    refine Action.bind_eq_ok.2 ⟨(), { e with registry := registry₁ }, ?_, ih h⟩
    split at h₁
    · next h₂ =>
      cases h₁
      simp only [registerType, h₂]
    · cases h₁

end Effects

namespace Request

variable {request : Request} {e : Effects}

/-- What a request registers if it is a registration. An application needs a name. -/
def registration (request : Request) : Except Rejection Registration := do
  let name ← request.required Key.applicationName
  return { name, icon := request.headers.getD Key.applicationIcon [], types := request.types }

theorem registration_eq_ok {g : Registration} :
    request.registration = .ok g ↔
      request.required Key.applicationName = .ok g.name ∧
        g.icon = request.headers.getD Key.applicationIcon [] ∧ g.types = request.types := by
  unfold registration
  cases request.required Key.applicationName with
  | error reason => exact ⟨nofun, nofun⟩
  | ok name =>
    constructor
    · intro h
      cases h
      exact ⟨rfl, rfl, rfl⟩
    · obtain ⟨name', icon, types⟩ := g
      rintro ⟨h, rfl, rfl⟩
      cases h
      rfl

/-- A registration is refused, or acted on by its calls, one after the other. -/
theorem register_calls (request : Request) (h : e.registry.Orderly) :
    match request.registration with
    | .error reason => request.register e = .error (.rejected reason) e
    | .ok g => ∃ registry, Registry.performAll g.calls e.registry = .ok () registry ∧
      request.register e = .ok (.ok .register) { e with registry } := by
  unfold registration register
  cases hn : request.required Key.applicationName with
  | error reason => rfl
  | ok name =>
    let g : Registration :=
      { name, icon := request.headers.getD Key.applicationIcon [], types := request.types }
    let registered := e.registry.registerApplication name g.icon
    obtain ⟨registry, hcalls⟩ := g.performs e.registry
    refine ⟨registry, hcalls, ?_⟩
    obtain ⟨_, h₁, htypes⟩ := Registry.performAll_cons.1 hcalls
    cases h₁
    have hname : registered.1.name = name :=
      Registry.name_registerApplication fun _ => h.applicationNames
    refine Action.bind_eq_ok.2 ⟨name, e, rfl, Action.bind_eq_ok.2 ⟨registered.1, _, rfl, ?_⟩⟩
    rw [hname]
    exact Action.bind_eq_ok.2 ⟨(), _, Effects.registerTypes_of_performAll htypes, rfl⟩

/-- A complete registration is acted on. -/
theorem act_of_register {gate : Gate} {input : Bytes} {store : Store} {r : Reading}
    (hp : Reading.parse gate (.start input store) = .ok (some request) r)
    (hm : request.messageType = .register) (e : Effects) : request.act e = request.register e := by
  have hi : request.ignored = false := by
    refine Bool.eq_false_iff.2 fun hi => ?_
    cases hm.symm.trans (Reading.unproven_of_parse hp hi).1
  have hnone : request.attachments.hasPending = false := (Reading.formed_of_parse hp).arrived rfl
  unfold act
  rw [hi, hnone, hm]
  rfl

/-- Only a registration changes the registry. -/
theorem registry_of_act (hr : e.registry.Reachable) (hm : request.messageType ≠ .register) :
    (request.act.final e).registry = e.registry := by
  have hacted : request.Acted e (request.act e) := acted hr
  generalize hres : request.act e = result at hacted
  cases hacted with
  | registered hregister => exact absurd hregister hm
  | refused => rw [final_of_error hres]
  | ignored | displayed | withheld => rw [final_of_ok hres]

end Request

/-! ## Exchanges -/

namespace Service

variable {service : Service} {world : World} {input : Bytes}

/-- The input is a registration that is accepted. -/
def Accepts (service : Service) (world : World) (input : Bytes) (request : Request) : Prop :=
  (∃ r, Reading.parse service.gate (.start input world.store) = .ok (some request) r) ∧
    request.messageType = .register ∧ (service.handle world input).Accepted

/-- What an exchange can make of the registry. -/
inductive Alters (service : Service) (world : World) (input : Bytes) : Registry → Prop
  | nothing : (∀ request, ¬ service.Accepts world input request) →
    Alters service world input world.registry
  | registers {request : Request} {g : Registration} {registry : Registry} :
    service.Accepts world input request → request.registration = .ok g →
    Registry.performAll g.calls world.registry = .ok () registry →
    Alters service world input registry

variable {request : Request} {r : Reading}

theorem not_accepted_of_refuse {o : Outcome} {failure : Failure}
    (h : o.response = some (service.refuse failure)) : ¬ o.Accepted := by
  rintro ⟨response, hresponse, hok⟩
  cases h.symm.trans hresponse
  rw [refuse, Response.status_addOrigin, Response.status_ofReport] at hok
  cases hok

theorem accepted_of_act {r : Reading} {response : Response} {after : Effects}
    (hp : Reading.parse service.gate (.start input world.store) = .ok (some request) r)
    (ha : request.act { registry := world.registry } = .ok response after) :
    (service.handle world input).Accepted := by
  rw [handle_of_accepted hp ha]
  refine ⟨_, rfl, (Response.status_addOrigin ..).trans ?_⟩
  rw [Request.answerIgnored_of_act ha, Request.status_answerIgnored]

theorem registry_of_parse
    (hp : Reading.parse service.gate (.start input world.store) = .ok (some request) r) :
    (service.handle world input).world.registry =
      (request.act.final { registry := world.registry }).registry := by
  cases ha : request.act { registry := world.registry } with
  | ok response after => rw [handle_of_accepted hp ha, final_of_ok ha]
  | error failure after => rw [handle_of_refused hp ha, final_of_error ha]

/-- A registration without a name is refused; any other one performs its calls. -/
theorem alters_of_register (h : world.registry.Reachable)
    (hp : Reading.parse service.gate (.start input world.store) = .ok (some request) r)
    (hm : request.messageType = .register) :
    Alters service world input (service.handle world input).world.registry := by
  have hact := Request.act_of_register hp hm { registry := world.registry }
  have hcalls := request.register_calls (e := { registry := world.registry }) h.orderly
  cases hg : request.registration with
  | error reason =>
    rw [hg] at hcalls
    have hrefused := hact.trans hcalls
    rw [registry_of_parse hp, final_of_error hrefused]
    refine .nothing fun _ ⟨_, _, haccepted⟩ => ?_
    rw [handle_of_refused hp hrefused] at haccepted
    exact not_accepted_of_refuse rfl haccepted
  | ok g =>
    rw [hg] at hcalls
    obtain ⟨registry, hperform, hregister⟩ := hcalls
    have hdone := hact.trans hregister
    rw [registry_of_parse hp, final_of_ok hdone]
    exact .registers ⟨⟨r, hp⟩, hm, accepted_of_act hp hdone⟩ hg hperform

/-- A registration that is accepted has performed its calls, and no other exchange changes the
registry. -/
theorem alters_of_handle (h : world.registry.Reachable) :
    Alters service world input (service.handle world input).world.registry := by
  cases hp : Reading.parse service.gate (.start input world.store) with
  | error failure r =>
    rw [handle_of_unread hp]
    refine .nothing fun _ ⟨⟨_, hp'⟩, _⟩ => ?_
    cases hp.symm.trans hp'
  | ok request? r =>
    cases request? with
    | none =>
      rw [handle_of_truncated hp]
      refine .nothing fun _ ⟨⟨_, hp'⟩, _⟩ => ?_
      cases hp.symm.trans hp'
    | some request =>
      by_cases hm : request.messageType = .register
      · exact alters_of_register h hp hm
      · rw [registry_of_parse hp, Request.registry_of_act h hm]
        refine .nothing fun _ ⟨⟨_, hp'⟩, hregister, _⟩ => hm ?_
        cases hp.symm.trans hp'
        exact hregister

/-- Whatever an exchange is, what is registered stays. -/
theorem within_of_handle (h : world.registry.Reachable) :
    world.registry.Within (service.handle world input).world.registry := by
  have halters : Alters service world input _ := alters_of_handle h
  generalize (service.handle world input).world.registry = registry at halters
  cases halters with
  | nothing => exact .refl
  | registers _ _ hperform => exact (Registry.registered_of_performAll hperform).within

/-- A registration that is accepted has performed its calls. -/
theorem performs_of_accepts (h : world.registry.Reachable)
    (ha : service.Accepts world input request) :
    ∃ g, request.registration = .ok g ∧ Registry.performAll g.calls world.registry =
      .ok () (service.handle world input).world.registry := by
  have halters : Alters service world input _ := alters_of_handle h
  generalize (service.handle world input).world.registry = registry at halters
  cases halters with
  | nothing hno => exact absurd ha (hno request)
  | registers ha' hg hperform =>
    obtain ⟨⟨r, hp⟩, _⟩ := ha
    obtain ⟨⟨r', hp'⟩, _⟩ := ha'
    cases hp.symm.trans hp'
    exact ⟨_, hg, hperform⟩

end Service

end Gntp
