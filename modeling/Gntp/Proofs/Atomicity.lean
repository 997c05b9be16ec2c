import Gntp.Proofs.Acting
import Gntp.Proofs.Declarations

/-!
# All or nothing

An exchange that is cut off or refused leaves the registry as it was and displays nothing, however
far it has come, and a registration is applied with every type that it announces or not at all
(`handle_all_or_nothing`). The registry does not get out of what registrations lead to
(`reachable_of_handle`).
-/

namespace Gntp

open Gntp.Action

/-- The request was cut off or refused. -/
def Outcome.Failed (o : Outcome) : Prop :=
  o.handled = false ∨ ∃ response, o.response = some response ∧ response.status = .error

namespace Service

variable {service : Service} {world : World} {input : Bytes}

/-- The input is a whole registration, and all that it announces was registered. -/
def RegistersAll (service : Service) (world : World) (input : Bytes) (after : Registry) : Prop :=
  ∃ request r, Reading.parse service.gate (.start input world.store) = .ok (some request) r ∧
    request.messageType = .register ∧
    Reading.parseTypeCount (request.headers.getD Key.notificationsCount []) =
      .ok request.types.length ∧
    request.Registers world.registry after

/-- What an exchange can make of the registry and of the display. -/
inductive Affects (service : Service) (world : World) (input : Bytes) : Outcome → Prop
  | nothing {o : Outcome} : o.world.registry = world.registry → o.shown = [] →
    Affects service world input o
  | registers {o : Outcome} : ¬ o.Failed → o.shown = [] →
    service.RegistersAll world input o.world.registry → Affects service world input o
  | displays {o : Outcome} (notification : Notification) : ¬ o.Failed →
    o.world.registry = world.registry → o.shown = [notification] → Affects service world input o

theorem not_failed_of_accepted {response : Response} {o : Outcome}
    (hr : o.response = some response) (hs : response.status = .ok) : ¬ o.Failed := by
  rintro (h | ⟨_, h, he⟩)
  · rw [Outcome.handled, hr] at h
    cases h
  · cases hr.symm.trans h
    cases hs.symm.trans he

theorem affects_of_handle (h : world.registry.Reachable) :
    service.Affects world input (service.handle world input) := by
  cases hp : Reading.parse service.gate (.start input world.store) with
  | error failure r =>
    rw [handle_of_unread hp]
    exact .nothing rfl rfl
  | ok request? r =>
    cases request? with
    | none =>
      rw [handle_of_truncated hp]
      exact .nothing rfl rfl
    | some request =>
      have hacted : request.Acted { registry := world.registry } _ := Request.acted h
      generalize hres : request.act { registry := world.registry } = result at hacted
      -- Whatever was accepted is answered with the same status.
      have haccepted {after : Effects} {response : Response}
          (ha : request.act { registry := world.registry } = .ok response after) :
          ¬ (service.handle world input).Failed := by
        have hstatus : (response.addOrigin service.origin).status = .ok := by
          rw [Response.status_addOrigin, Request.answerIgnored_of_act ha,
            Request.status_answerIgnored]
        refine not_failed_of_accepted ?_ hstatus
        rw [handle_of_accepted hp ha]
      cases hacted with
      | refused reason =>
        rw [handle_of_refused hp hres]
        exact .nothing rfl rfl
      | ignored _ =>
        rw [handle_of_accepted hp hres]
        exact .nothing rfl rfl
      | registered hm hregisters =>
        refine .registers (haccepted hres) ?_ ⟨request, r, hp, hm, ?_, ?_⟩
        · rw [handle_of_accepted hp hres]
        · exact Reading.announced_of_parse hp hm
        · rw [handle_of_accepted hp hres]
          exact hregisters
      | @displayed application type _ _ _ =>
        refine .displays (request.notification application type) (haccepted hres) ?_ ?_
        · rw [handle_of_accepted hp hres]
        · rw [handle_of_accepted hp hres]
          rfl
      | withheld _ _ _ =>
        rw [handle_of_accepted hp hres]
        exact .nothing rfl rfl

/-- An exchange whose request is not accepted has no effect on the registry or the display, and a
registration is applied as a whole. -/
theorem handle_all_or_nothing (h : world.registry.Reachable) :
    ((service.handle world input).Failed →
      (service.handle world input).world.registry = world.registry ∧
      (service.handle world input).shown = []) ∧
    ((service.handle world input).world.registry = world.registry ∨
      service.RegistersAll world input (service.handle world input).world.registry) := by
  have ha : service.Affects world input (service.handle world input) := affects_of_handle h
  cases ha with
  | nothing hregistry hshown => exact ⟨fun _ => ⟨hregistry, hshown⟩, .inl hregistry⟩
  | registers hf _ hall => exact ⟨fun hfailed => absurd hfailed hf, .inr hall⟩
  | displays _ hf hregistry _ => exact ⟨fun hfailed => absurd hfailed hf, .inl hregistry⟩

/-- A registration of which the last line is missing. -/
def cutRegistration : Bytes :=
  [ascii "GNTP/1.0 REGISTER NONE", ascii "Application-Name: A", ascii "Notifications-Count: 1", [],
    ascii "Notification-Name: T"].flatMap (· ++ Bytes.crlf)

theorem handle_all_or_nothing_cut :
    Registry.Reachable {} ∧
    ((Service.mk { suite := .full } {}).handle { store := .discard } cutRegistration).Failed ∧
    ((Service.mk { suite := .full } {}).handle { store := .discard } cutRegistration).world.registry
      = {} :=
  have hfailed :
      ((Service.mk { suite := .full } {}).handle { store := .discard } cutRegistration).Failed :=
    .inl (by decide +kernel)
  ⟨.empty, hfailed, ((handle_all_or_nothing .empty).1 hfailed).1⟩

theorem reachable_of_handle (h : world.registry.Reachable) :
    (service.handle world input).world.registry.Reachable := by
  have ha : service.Affects world input (service.handle world input) := affects_of_handle h
  cases ha with
  | nothing hregistry _ => exact hregistry ▸ h
  | registers _ _ hall =>
    obtain ⟨request, r, _, _, _, name, _, henters⟩ := hall
    exact henters.reachable h.application
  | displays _ _ hregistry _ => exact hregistry ▸ h

end Service

end Gntp
