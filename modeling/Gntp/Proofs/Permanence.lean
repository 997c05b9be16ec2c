import Gntp.Proofs.Atomicity
import Gntp.Proofs.Registering

/-!
# Registrations are permanent

Nothing takes a registration back: whatever traffic comes after it, every notification about one of
its types is accepted, and the application and the type that it is about still have the numbers that
they had (`Service.handle_permanent`). Each exchange keeps what is registered (`within_of_handle`),
so a run does.
-/

namespace Gntp

open Gntp.Action

/-! ## What a notification is about -/

namespace Request

variable {request : Request} {registry : Registry} {name typeName : Bytes}

theorem subject_of_registered {application : Application} {type : NotificationType}
    (hname : request.required Key.applicationName = .ok name)
    (htypeName : request.required Key.notificationName = .ok typeName)
    (happlication : registry.application? name = some application)
    (htype : registry.type? application.name typeName = some type) :
    request.subject registry = .ok (application, type) := by
  simp only [subject, hname, htypeName, bind, Except.bind, happlication, htype]
  rfl

/-- A notification of a registered type is accepted. -/
theorem act_of_subject {e : Effects} {application : Application} {type : NotificationType}
    (hi : request.ignored = false) (hnone : request.attachments.hasPending = false)
    (hm : request.messageType = .notify)
    (hs : request.subject e.registry = .ok (application, type)) :
    ∃ response e', request.act e = .ok response e' := by
  have hact : request.act e = request.notify e := by
    unfold act
    rw [hi, hnone, hm]
    rfl
  have hnotify : request.notify e = (check (request.subject e.registry) >>= fun subject =>
      if subject.2.enabled then
        Effects.display (request.notification subject.1 subject.2) >>= fun _ =>
          pure request.acceptNotify
      else pure request.acceptNotify : Action Effects Response) e := rfl
  rw [hact, hnotify, hs]
  change ∃ response e', (if type.enabled then
      Effects.display (request.notification application type) >>= fun _ =>
        pure request.acceptNotify
    else pure request.acceptNotify : Action Effects Response) e = .ok response e'
  split <;> exact ⟨_, _, rfl⟩

end Request

namespace Service

variable {service : Service} {world : World} {input : Bytes} {request : Request}
  {name typeName : Bytes}

/-! ## Runs -/

def atTime (service : Service) (now : Int) : Service :=
  { service with gate := { service.gate with now } }

/-- One exchange after the other, each at its own time. -/
def run (service : Service) (world : World) (inputs : List (Int × Bytes)) : World :=
  inputs.foldl (fun world (now, input) => ((service.atTime now).handle world input).world) world

/-- What is registered stays through any traffic. -/
theorem within_of_run (service : Service) (h : world.registry.Reachable)
    (inputs : List (Int × Bytes)) :
    (service.run world inputs).registry.Reachable ∧
      world.registry.Within (service.run world inputs).registry := by
  induction inputs generalizing world with
  | nil => exact ⟨h, .refl⟩
  | cons exchange inputs ih =>
    obtain ⟨hreachable, hwithin⟩ := ih (reachable_of_handle h)
    exact ⟨hreachable, (within_of_handle h).trans hwithin⟩

/-- The input is a notification about a type, and one that is not ignored. -/
structure Notifies (service : Service) (world : World) (input : Bytes) (name typeName : Bytes)
    (request : Request) : Prop where
  complete : ∃ r, Reading.parse service.gate (.start input world.store) = .ok (some request) r
  notify : request.messageType = .notify
  heeded : request.ignored = false
  application : request.headers.get? Key.applicationName = some name
  type : request.headers.get? Key.notificationName = some typeName

theorem not_coded_of_accepted {o : Outcome} (h : o.Accepted) (code : Nat) : ¬ o.Coded code := by
  obtain ⟨response, hresponse, hok⟩ := h
  rintro ⟨_, hrefused, herror, _⟩
  cases hresponse.symm.trans hrefused
  cases hok.symm.trans herror

/-- A notification of what is registered is accepted. -/
theorem accepted_of_notifies {application : Application} {type : NotificationType}
    (h : world.registry.Reachable) (hn : service.Notifies world input name typeName request)
    (hname : name ≠ []) (htypeName : typeName ≠ [])
    (happlication : world.registry.application? name = some application)
    (htype : world.registry.type? name typeName = some type) :
    (service.handle world input).Accepted ∧
      request.subject world.registry = .ok (application, type) := by
  have hown : application.name = name := h.name_of_application? happlication
  have hs : request.subject world.registry = .ok (application, type) :=
    Request.subject_of_registered (Request.required_eq_ok.2 ⟨hn.application, hname⟩)
      (Request.required_eq_ok.2 ⟨hn.type, htypeName⟩) happlication (hown.symm ▸ htype)
  obtain ⟨r, hp⟩ := hn.complete
  obtain ⟨response, after, ha⟩ := Request.act_of_subject (e := { registry := world.registry })
    hn.heeded ((Reading.formed_of_parse hp).arrived rfl) hn.notify hs
  exact ⟨accepted_of_act hp ha, hs⟩

/-- A registration that is accepted has registered what it names, and nothing it names is empty. -/
theorem names_of_accepts (h : world.registry.Reachable)
    (ha : service.Accepts world input request)
    (hname : request.headers.get? Key.applicationName = some name)
    (htypeName : typeName ∈ request.types.map (·.name)) :
    name ≠ [] ∧ typeName ≠ [] ∧
      (service.handle world input).world.registry.has (.application name) ∧
      (service.handle world input).world.registry.has (.type name typeName) := by
  obtain ⟨g, hg, hperform⟩ := performs_of_accepts h ha
  obtain ⟨hrequired, _, htypes⟩ := Request.registration_eq_ok.1 hg
  obtain ⟨hget, hne⟩ := Request.required_eq_ok.1 hrequired
  have hown : g.name = name := Option.some.inj (hget.symm.trans hname)
  have hregistered := Registry.registered_of_performAll hperform
  have happlication := Registration.application_mem_calls.2 hown
  have htype := Registration.type_mem_calls.2 ⟨hown, List.mem_map.1 (htypes ▸ htypeName)⟩
  have hnamed : typeName ≠ [] := by
    obtain ⟨⟨r, hp⟩, _⟩ := ha
    obtain ⟨declared, hmem, rfl⟩ := List.mem_map.1 htypeName
    exact ((Reading.formed_of_parse hp).types declared hmem).1
  exact ⟨hown ▸ hne, hnamed, (hregistered.has_iff _).2 (.inr happlication),
    (hregistered.has_iff _).2 (.inr htype)⟩

/-- Once a registration of a type is accepted, every notification of it is, and is about the
application and the type that stand in the registry after the registration. -/
theorem handle_permanent (h : world.registry.Reachable)
    (ha : service.Accepts world input request)
    (hname : request.headers.get? Key.applicationName = some name)
    (htypeName : typeName ∈ request.types.map (·.name)) :
    ∃ application type,
      (service.handle world input).world.registry.application? name = some application ∧
      (service.handle world input).world.registry.type? name typeName = some type ∧
      ∀ (later : List (Int × Bytes)) (now : Int) (input' : Bytes) (request' : Request),
        let world' := service.run (service.handle world input).world later
        (service.atTime now).Notifies world' input' name typeName request' →
          ((service.atTime now).handle world' input').Accepted ∧
          ¬ ((service.atTime now).handle world' input').Coded 401 ∧
          ¬ ((service.atTime now).handle world' input').Coded 402 ∧
          ∃ application' type', request'.subject world'.registry = .ok (application', type') ∧
            application'.id = application.id ∧ type'.id = type.id := by
  have hafter : (service.handle world input).world.registry.Reachable := reachable_of_handle h
  obtain ⟨hne, hnamed, hhas, hhasType⟩ := names_of_accepts h ha hname htypeName
  obtain ⟨application, happlication⟩ := Option.isSome_iff_exists.1 hhas
  obtain ⟨type, htype⟩ := Option.isSome_iff_exists.1 hhasType
  refine ⟨application, type, happlication, htype, fun later now input' request' hn => ?_⟩
  obtain ⟨hreachable, hwithin⟩ := within_of_run service hafter later
  obtain ⟨icon, happlication'⟩ := hwithin.application happlication
  obtain ⟨displayName, enabled, icon', htype'⟩ := hwithin.type htype
  obtain ⟨haccepted, hs⟩ := accepted_of_notifies hreachable hn hne hnamed happlication' htype'
  exact ⟨haccepted, not_coded_of_accepted haccepted 401, not_coded_of_accepted haccepted 402,
    _, _, hs, rfl, rfl⟩

/-- A service without passwords. -/
def unguarded : Service where
  gate := { suite := .full }

/-- A registration of an application with a type. -/
def announcement : Bytes :=
  [ascii "GNTP/1.0 REGISTER NONE", ascii "Application-Name: A", ascii "Notifications-Count: 1", [],
    ascii "Notification-Name: T", []].flatMap (· ++ Bytes.crlf)

/-- The application registers again without the type, another one has a type of the same name, and
something is cut off. -/
def bustle : List (Int × Bytes) :=
  [(1, [ascii "GNTP/1.0 REGISTER NONE", ascii "Application-Name: A",
      ascii "Application-Icon: i", ascii "Notifications-Count: 1", [],
      ascii "Notification-Name: U", []].flatMap (· ++ Bytes.crlf)),
    (2, [ascii "GNTP/1.0 REGISTER NONE", ascii "Application-Name: B",
      ascii "Notifications-Count: 1", [], ascii "Notification-Name: T", []].flatMap
        (· ++ Bytes.crlf)),
    (3, ascii "GNTP/1.0 REGISTER NONE")]

def greeting : Bytes :=
  [ascii "GNTP/1.0 NOTIFY NONE", ascii "Application-Name:  A", ascii "Notification-Name: T ",
    []].flatMap (· ++ Bytes.crlf)

theorem handle_permanent_through_bustle :
    ∃ request request',
      unguarded.Accepts { store := .discard } announcement request ∧
      (unguarded.atTime 4).Notifies
        (unguarded.run (unguarded.handle { store := .discard } announcement).world bustle)
        greeting (ascii "A") (ascii "T") request' ∧
      ((unguarded.atTime 4).handle
        (unguarded.run (unguarded.handle { store := .discard } announcement).world bustle)
        greeting).Accepted := by
  have hregisters : Reading.Completes (fun request _ => request.messageType = .register ∧
        request.headers.get? Key.applicationName = some (ascii "A") ∧
        ascii "T" ∈ request.types.map (·.name))
      (Reading.parse unguarded.gate (.start announcement .discard)) := by
    decide +kernel
  have hnotifies : Reading.Completes (fun request _ => request.messageType = .notify ∧
        request.ignored = false ∧
        request.headers.get? Key.applicationName = some (ascii "A") ∧
        request.headers.get? Key.notificationName = some (ascii "T"))
      (Reading.parse (unguarded.atTime 4).gate (.start greeting
        (unguarded.run (unguarded.handle { store := .discard } announcement).world
          bustle).store)) := by
    decide +kernel
  obtain ⟨request, r, hp, htest⟩ := Reading.eq_some_of_completes hregisters
  obtain ⟨hm, hname, htypeName⟩ := of_decide_eq_true htest
  obtain ⟨request', r', hp', htest'⟩ := Reading.eq_some_of_completes hnotifies
  obtain ⟨hm', hi, happlication, htype⟩ := of_decide_eq_true htest'
  have haccepted : (unguarded.handle { store := .discard } announcement).Accepted := by
    have hstatus : (unguarded.handle { store := .discard } announcement).response.map (·.status) =
        some .ok := by decide +kernel
    exact Option.map_eq_some_iff.1 hstatus
  have haccepts : unguarded.Accepts { store := .discard } announcement request :=
    ⟨⟨r, hp⟩, hm, haccepted⟩
  obtain ⟨_, _, _, _, hlater⟩ := handle_permanent .empty haccepts hname htypeName
  have hnotified : (unguarded.atTime 4).Notifies
      (unguarded.run (unguarded.handle { store := .discard } announcement).world bustle)
      greeting (ascii "A") (ascii "T") request' := ⟨⟨r', hp'⟩, hm', hi, happlication, htype⟩
  exact ⟨request, request', haccepts, hnotified, (hlater bustle 4 greeting request' hnotified).1⟩

end Service

end Gntp
