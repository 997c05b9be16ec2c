import Gntp.Exchange
import Gntp.Proofs.Mirroring

/-!
# What is displayed decides nothing

Acting on a request makes nothing of the notification that is displayed: requests that differ in
what their notifications look like only are answered the same and have the same effect on the
registry (`Request.act_mirrors_viewed`), and so have the exchanges in which they are read
(`Service.agrees_of_parse`).
-/

namespace Gntp

open Gntp.Action

/-- Effects with another view of what was displayed. -/
def Effects.viewed (f : Notification → Notification) (e : Effects) : Effects :=
  { e with displayed := e.displayed.map f }

namespace Effects

variable {f : Notification → Notification}

theorem display_mirrors_viewed (n : Notification) :
    Mirrors (viewed f) (display n) (display (f n)) :=
  .modify fun e => by
    unfold viewed
    rw [List.map_append, List.map_singleton]

theorem registerApplication_mirrors_viewed (name icon : Bytes) :
    Mirrors (viewed f) (registerApplication name icon) (registerApplication name icon) :=
  fun _ => rfl

theorem registerType_mirrors_viewed (owner : Bytes) (type : TypeDeclaration) :
    Mirrors (viewed f) (registerType owner type) (registerType owner type) := by
  intro e
  have hregistry : (e.viewed f).registry = e.registry := rfl
  unfold registerType
  rw [hregistry]
  cases e.registry.registerType owner type.name type.displayName type.enabled type.icon with
  | ok registered => rfl
  | error failure => rfl

theorem registerTypes_mirrors_viewed (owner : Bytes) (types : List TypeDeclaration) :
    Mirrors (viewed f) (registerTypes owner types) (registerTypes owner types) := by
  induction types with
  | nil => exact .pure ()
  | cons type types ih => exact .bind (registerType_mirrors_viewed owner type) fun _ => ih

end Effects

namespace Request

/-- Two requests that differ at most in how their notifications look. -/
structure Resembles (f : Notification → Notification) (request request' : Request) : Prop where
  messageType : request'.messageType = request.messageType
  ignored : request'.ignored = request.ignored
  headers : request'.headers = request.headers
  types : request'.types = request.types
  hasPending : request'.attachments.hasPending = request.attachments.hasPending
  pendingCount : request'.attachments.pendingCount = request.attachments.pendingCount
  notification : ∀ application type,
    request'.notification application type = f (request.notification application type)

variable {f : Notification → Notification} {request request' : Request}

namespace Resembles

theorem required (h : Resembles f request request') (key : Bytes) :
    request'.required key = request.required key := by
  unfold Request.required
  rw [h.headers]

theorem subject (h : Resembles f request request') (registry : Registry) :
    request'.subject registry = request.subject registry := by
  unfold Request.subject
  rw [h.required, h.required]

theorem acceptNotify (h : Resembles f request request') :
    request'.acceptNotify = request.acceptNotify := by
  unfold Request.acceptNotify
  rw [h.headers]

theorem answerIgnored (h : Resembles f request request') :
    request'.answerIgnored = request.answerIgnored := by
  unfold Request.answerIgnored
  rw [h.messageType, h.acceptNotify]

theorem register_mirrors (h : Resembles f request request') :
    Mirrors (Effects.viewed f) request.register request'.register := by
  unfold Request.register
  rw [h.required, h.headers, h.types]
  exact .bind (.check _) fun name =>
    .bind (Effects.registerApplication_mirrors_viewed name _) fun application =>
      .bind (Effects.registerTypes_mirrors_viewed application.name request.types) fun _ => .pure _

theorem notify_mirrors (h : Resembles f request request') :
    Mirrors (Effects.viewed f) request.notify request'.notify := by
  refine .get_bind fun e => ?_
  have hsubject : request'.subject (e.viewed f).registry = request.subject e.registry :=
    h.subject e.registry
  rw [hsubject]
  refine .bind (.check _) fun subject => ?_
  obtain ⟨application, type⟩ := subject
  rw [h.acceptNotify]
  dsimp only
  refine .ite Iff.rfl (.bind ?_ fun _ => .pure _) (.pure _)
  rw [h.notification]
  exact Effects.display_mirrors_viewed _

end Resembles

/-- What a notification looks like is displayed and has no other effect. -/
theorem act_mirrors_viewed (h : Resembles f request request') :
    Mirrors (Effects.viewed f) request.act request'.act := by
  unfold act
  rw [h.ignored, h.answerIgnored, h.hasPending, h.pendingCount, h.messageType]
  refine .ite Iff.rfl (.pure _) (.ite Iff.rfl (.throw _) ?_)
  cases request.messageType with
  | register => exact h.register_mirrors
  | notify => exact h.notify_mirrors
  | subscribe => exact .throw _

/-- Without the time it is the same request, and its notifications are the same without theirs. -/
theorem resembles_undated (request : Request) :
    Resembles (fun n => { n with timestamp := 0 }) request request.undated where
  messageType := rfl
  ignored := rfl
  headers := rfl
  types := rfl
  hasPending := rfl
  pendingCount := rfl
  notification _ _ := rfl

end Request

/-! ## Exchanges -/

/-- Two exchanges that agree but for how notifications look. -/
structure Outcome.Agrees (f : Notification → Notification) (o o' : Outcome) : Prop where
  response : o'.response = o.response
  registry : o'.world.registry = o.world.registry
  shown : o'.shown.map f = o.shown.map f

namespace Service

variable {service service' : Service} {world world' : World} {input input' : Bytes}
  {request request' common : Request} {r r' : Reading} {f : Notification → Notification}

theorem rest_of_parse
    (hp : Reading.parse service.gate (.start input world.store) = .ok (some request) r) :
    (service.handle world input).rest = r.inbound.unread ∧
      (service.handle world input).world.store = r.store := by
  cases ha : request.act { registry := world.registry } with
  | ok response after =>
    rw [handle_of_accepted hp ha]
    exact ⟨rfl, rfl⟩
  | error failure after =>
    rw [handle_of_refused hp ha]
    exact ⟨rfl, rfl⟩

/-- Two requests that come to the same one in another view have the same outcome in that view. -/
theorem agrees_of_parse
    (hp : Reading.parse service.gate (.start input world.store) = .ok (some request) r)
    (hp' : Reading.parse service'.gate (.start input' world'.store) = .ok (some request') r')
    (h : request.Resembles f common) (h' : request'.Resembles f common)
    (horigin : service'.origin = service.origin) (hregistry : world'.registry = world.registry) :
    Outcome.Agrees f (service.handle world input) (service'.handle world' input') := by
  have hact := Request.act_mirrors_viewed h { registry := world.registry }
  have hact' := Request.act_mirrors_viewed h' { registry := world.registry }
  rw [hact] at hact'
  cases ha : request.act { registry := world.registry } with
  | ok response after =>
    rw [ha] at hact'
    cases ha' : request'.act { registry := world.registry } with
    | error failure after' =>
      rw [ha'] at hact'
      cases hact'
    | ok response' after' =>
      rw [ha'] at hact'
      obtain ⟨hresponse, hafter⟩ := EStateM.Result.ok.inj hact'
      rw [handle_of_accepted hp ha, handle_of_accepted hp' (hregistry ▸ ha'), hresponse, horigin]
      exact ⟨rfl, (congrArg Effects.registry hafter.symm :),
        (congrArg Effects.displayed hafter.symm :)⟩
  | error failure after =>
    rw [ha] at hact'
    cases ha' : request'.act { registry := world.registry } with
    | ok response' after' =>
      rw [ha'] at hact'
      cases hact'
    | error failure' after' =>
      rw [ha'] at hact'
      obtain ⟨hfailure, hafter⟩ := EStateM.Result.error.inj hact'
      rw [handle_of_refused hp ha, handle_of_refused hp' (hregistry ▸ ha'), hfailure]
      unfold refuse
      rw [horigin]
      exact ⟨rfl, (congrArg Effects.registry hafter.symm :),
        (congrArg Effects.displayed hafter.symm :)⟩

end Service

end Gntp
