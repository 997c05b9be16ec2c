import Gntp.Exchange
import Gntp.Proofs.Leads
import Gntp.Proofs.Registration

/-!
# What acting on a request can do

`Request.Acted` lists the ways in which acting on a complete request can end, with everything it
has an effect on, and `Request.acted` shows that there is no other way while the registry is one
that registrations lead to. The point is `refused`: whatever the refusal, it comes before anything
was registered or displayed, since no type is refused to an application that was just registered.

`Request.Refusal` lists the reasons to refuse a request of which nothing is missing, for any
registry.
-/

namespace Gntp.Request

open Gntp.Action

variable {request : Request} {e e' : Effects}

theorem required_eq_ok {key value : Bytes} :
    request.required key = .ok value ↔ request.headers.get? key = some value ∧ value ≠ [] := by
  unfold required
  cases request.headers.get? key with
  | none => exact ⟨nofun, nofun⟩
  | some found =>
    cases found with
    | nil => exact ⟨nofun, fun ⟨h, hne⟩ => absurd (Option.some.inj h).symm hne⟩
    | cons b rest =>
      constructor
      · intro h
        cases h
        exact ⟨rfl, List.cons_ne_nil _ _⟩
      · rintro ⟨h, _⟩
        cases h
        rfl

/-- Everything that a request asks to register is registered: its application under its name, and
each of the types that it declares. -/
def Registers (request : Request) (before after : Registry) : Prop :=
  ∃ name, request.headers.get? Key.applicationName = some name ∧
    Registry.EntersAll
      (before.registerApplication name (request.headers.getD Key.applicationIcon [])).2
      after name request.types

/-- The ways in which acting on a request can end. -/
inductive Acted (request : Request) (e : Effects) : EStateM.Result Failure Effects Response → Prop
  | ignored : request.ignored = true → Acted request e (.ok request.answerIgnored e)
  | refused (reason : Rejection) : Acted request e (.error (.rejected reason) e)
  | registered {registry : Registry} : request.messageType = .register →
    request.Registers e.registry registry →
    Acted request e (.ok (.ok .register) { e with registry })
  | displayed {application : Application} {type : NotificationType} :
    request.messageType = .notify → request.subject e.registry = .ok (application, type) →
    type.enabled = true →
    Acted request e (.ok request.acceptNotify { e with
      displayed := e.displayed ++ [request.notification application type] })
  | withheld {application : Application} {type : NotificationType} :
    request.messageType = .notify → request.subject e.registry = .ok (application, type) →
    ¬ type.enabled = true → Acted request e (.ok request.acceptNotify e)

/-- A registration is refused before it registers anything, or not at all. -/
theorem acted_of_register (hr : e.registry.Reachable) (hm : request.messageType = .register) :
    Acted request e (request.register e) := by
  unfold register
  cases hn : request.required Key.applicationName with
  | error reason => exact .refused reason
  | ok name =>
    let icon := request.headers.getD Key.applicationIcon []
    let registered := e.registry.registerApplication name icon
    have hname : registered.1.name = name :=
      Registry.name_registerApplication fun _ => hr.name_of_application?
    have hsome : (registered.2.application? name).isSome := by
      rw [Registry.application?_registerApplication_self]
      rfl
    obtain ⟨registry, htypes, hall⟩ := Effects.registerTypes_of_registered request.types
      (e := { e with registry := registered.2 }) hsome
    have hrun : (do
        let name ← check (.ok name)
        let application ← Effects.registerApplication name icon
        Effects.registerTypes application.name request.types
        pure (.ok .register) : Action Effects Response) e =
          .ok (.ok .register) { e with registry } := by
      refine bind_eq_ok.2 ⟨name, e, rfl, bind_eq_ok.2 ⟨registered.1, _, rfl, ?_⟩⟩
      rw [hname]
      exact bind_eq_ok.2 ⟨(), _, htypes, rfl⟩
    rw [hrun]
    exact .registered hm ⟨name, (required_eq_ok.1 hn).1, hall⟩

/-- A notification is refused, or displayed if its type is enabled. -/
theorem acted_of_notify (hm : request.messageType = .notify) :
    Acted request e (request.notify e) := by
  unfold notify
  change Acted request e ((check (request.subject e.registry) >>= fun subject =>
    if subject.2.enabled then
      Effects.display (request.notification subject.1 subject.2) >>= fun _ =>
        pure request.acceptNotify
    else pure request.acceptNotify : Action Effects Response) e)
  cases hs : request.subject e.registry with
  | error reason => exact .refused reason
  | ok subject =>
    change Acted request e ((if subject.2.enabled then
        Effects.display (request.notification subject.1 subject.2) >>= fun _ =>
          pure request.acceptNotify
      else pure request.acceptNotify : Action Effects Response) e)
    split
    · next he => exact .displayed hm hs he
    · next he => exact .withheld hm hs he

/-- There is no other way for acting on a request to end. -/
theorem acted (hr : e.registry.Reachable) : Acted request e (request.act e) := by
  unfold act
  split
  · next hi => exact .ignored hi
  · split
    · exact .refused _
    · cases hm : request.messageType with
      | register => exact acted_of_register hr hm
      | notify => exact acted_of_notify hm
      | subscribe => exact .refused _

/-- An ignored request has no effect. -/
theorem act_of_ignored (h : request.ignored = true) (e : Effects) :
    request.act e = .ok request.answerIgnored e := by
  unfold act
  rw [if_pos h]
  rfl

theorem response_of_register {response : Response} (h : request.register e = .ok response e') :
    response = .ok .register := by
  obtain ⟨name, _, _, h⟩ := bind_eq_ok.1 h
  obtain ⟨application, _, _, h⟩ := bind_eq_ok.1 h
  obtain ⟨_, _, _, h⟩ := bind_eq_ok.1 h
  cases h
  rfl

theorem response_of_notify {response : Response} (h : request.notify e = .ok response e') :
    response = request.acceptNotify := by
  obtain ⟨now, _, _, h⟩ := bind_eq_ok.1 h
  obtain ⟨⟨application, type⟩, _, _, h⟩ := bind_eq_ok.1 h
  dsimp only at h
  split at h
  · obtain ⟨_, _, _, h⟩ := bind_eq_ok.1 h
    cases h
    rfl
  · cases h
    rfl

/-- A request that is acted on is answered as if it had been ignored, whatever the registry is. -/
theorem answerIgnored_of_act {response : Response} (h : request.act e = .ok response e') :
    response = request.answerIgnored := by
  unfold act at h
  split at h
  · cases h
    rfl
  · split at h
    · cases h
    · unfold answerIgnored
      cases hm : request.messageType with
      | register =>
        rw [hm] at h
        exact response_of_register h
      | notify =>
        rw [hm] at h
        exact response_of_notify h
      | subscribe =>
        rw [hm] at h
        cases h

/-! ## Refusals -/

/-- Why a request of which nothing is missing is refused. -/
inductive Refusal (request : Request) : Failure → Prop
  | missingHeader (name : Bytes) : Refusal request (.rejected (.missingHeader name))
  | unknownApplication (name : Bytes) : Refusal request (.rejected (.unknownApplication name))
  | unknownNotification (name : Bytes) : Refusal request (.rejected (.unknownNotification name))
  | unknownOwner (application : Bytes) : Refusal request (.unknownOwner application)
  | subscribe : request.messageType = .subscribe →
    Refusal request (.rejected .subscribeUnsupported)

theorem refusal_of_required {key : Bytes} {reason : Rejection}
    (h : request.required key = .error reason) : request.Refusal (.rejected reason) := by
  unfold required at h
  split at h <;> cases h <;> exact .missingHeader key

theorem refusal_of_subject {registry : Registry} {reason : Rejection}
    (h : request.subject registry = .error reason) : request.Refusal (.rejected reason) := by
  unfold subject at h
  cases happlication : request.required Key.applicationName with
  | error reason' =>
    rw [happlication] at h
    cases h
    exact refusal_of_required happlication
  | ok application =>
    cases htype : request.required Key.notificationName with
    | error reason' =>
      rw [happlication, htype] at h
      cases h
      exact refusal_of_required htype
    | ok name =>
      rw [happlication, htype] at h
      simp only [bind, Except.bind] at h
      split at h
      · cases h
        exact .unknownApplication application
      · split at h
        · cases h
          exact .unknownNotification name
        · cases h

theorem registerType_refuses {application : Bytes} {type : TypeDeclaration} :
    (Effects.registerType application type).Leads e (fun _ _ => True) request.Refusal := by
  refine .intro (fun _ _ _ => trivial) fun failure _ h => ?_
  unfold Effects.registerType Registry.registerType at h
  split at h
  · cases h
  · next hfailure =>
    cases h
    split at hfailure
    · cases hfailure
      exact .unknownOwner application
    · dsimp only at hfailure
      split at hfailure <;> cases hfailure

theorem registerTypes_refuse {application : Bytes} {types : List TypeDeclaration} :
    (Effects.registerTypes application types).Leads e (fun _ _ => True) request.Refusal := by
  induction types generalizing e with
  | nil => exact .pure trivial
  | cons type types ih => exact .bind registerType_refuses fun _ _ _ => ih

theorem register_refuses :
    request.register.Leads e (fun _ _ => True) request.Refusal := by
  refine .check_bind (fun name _ => ?_) fun _ => refusal_of_required
  refine .bind (Q := fun _ _ => True) (.intro (fun _ _ _ => trivial) nofun) fun _ _ _ => ?_
  exact .bind registerTypes_refuse fun _ _ _ => .pure trivial

theorem notify_refuses : request.notify.Leads e (fun _ _ => True) request.Refusal := by
  refine .get_bind (.check_bind (fun subject _ => ?_) fun _ => refusal_of_subject)
  split
  split
  · exact .modify_bind (.pure trivial)
  · exact .pure trivial

/-- There is no other reason to refuse a request of which nothing is missing. -/
theorem act_refuses (hp : request.attachments.hasPending = false) :
    request.act.Leads e (fun _ _ => True) request.Refusal := by
  unfold act
  split
  · exact .pure trivial
  · rw [hp]
    cases hm : request.messageType with
    | register => exact register_refuses
    | notify => exact notify_refuses
    | subscribe => exact .throw (.subscribe hm)

end Gntp.Request

namespace Gntp.Service

variable {service : Service} {world : World} {response : Response}

/-- A request that is accepted was read to its end. -/
theorem parse_of_accepted {input : Bytes}
    (hresponse : (service.handle world input).response = some response)
    (hok : response.status = .ok) : ∃ request r,
      Reading.parse service.gate (.start input world.store) = .ok (some request) r ∧
        (service.handle world input).rest = r.inbound.unread := by
  cases hp : Reading.parse service.gate (.start input world.store) with
  | error failure r =>
    rw [handle_of_unread hp] at hresponse
    cases hresponse
    rw [refuse, Response.status_addOrigin, Response.status_ofReport] at hok
    cases hok
  | ok request? r =>
    cases request? with
    | none =>
      rw [handle_of_truncated hp] at hresponse
      cases hresponse
    | some request =>
      refine ⟨request, r, rfl, ?_⟩
      cases ha : request.act { registry := world.registry } with
      | ok accepted after => rw [handle_of_accepted hp ha]
      | error failure after => rw [handle_of_refused hp ha]

/-- A request that is accepted is answered as if it had been ignored. -/
theorem response_of_accepted {input : Bytes}
    (hresponse : (service.handle world input).response = some response)
    (hok : response.status = .ok) : ∃ request r,
      Reading.parse service.gate (.start input world.store) = .ok (some request) r ∧
        response = request.answerIgnored.addOrigin service.origin := by
  obtain ⟨request, r, hp, _⟩ := parse_of_accepted hresponse hok
  refine ⟨request, r, hp, ?_⟩
  cases ha : request.act { registry := world.registry } with
  | ok accepted after =>
    rw [handle_of_accepted hp ha] at hresponse
    cases hresponse
    rw [Request.answerIgnored_of_act ha]
  | error failure after =>
    rw [handle_of_refused hp ha] at hresponse
    cases hresponse
    rw [refuse, Response.status_addOrigin, Response.status_ofReport] at hok
    cases hok

end Gntp.Service
