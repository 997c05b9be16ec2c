import Gntp.Action
import Gntp.Notification
import Gntp.Request
import Gntp.Response

/-! Acting on a complete request: what it changes in the registry, what it displays, and how it is
answered. The actions work on the registry itself, so that one that fails half-way would leave
behind what it has registered. -/

namespace Gntp

/-- What acting on requests has an effect on. -/
structure Effects where
  registry : Registry
  /-- Every notification that was displayed, in order. -/
  displayed : List Notification := []
  deriving DecidableEq

namespace Effects

def display (notification : Notification) : Action Effects Unit :=
  modify fun e => { e with displayed := e.displayed ++ [notification] }

def registerApplication (name icon : Bytes) : Action Effects Application := fun e =>
  let (application, registry) := e.registry.registerApplication name icon
  .ok application { e with registry }

/-- Registers a type that a registration declares. -/
def registerType (application : Bytes) (type : TypeDeclaration) : Action Effects Unit := fun e =>
  match e.registry.registerType application type.name type.displayName type.enabled type.icon with
  | .ok (_, registry) => .ok () { e with registry }
  | .error failure => .error failure e

/-- Registers the types that a registration declares, one after the other. -/
def registerTypes (application : Bytes) : List TypeDeclaration → Action Effects Unit
  | [] => pure ()
  | type :: types => do
    registerType application type
    registerTypes application types

end Effects

/-- What comes of a request that is accepted. -/
structure Answer where
  response : Response
  registry : Registry
  displayed : Option Notification := none
  deriving DecidableEq

namespace Request

open Gntp.Action

/-- The value of a header that has to be there. -/
def required (request : Request) (key : Bytes) : Except Rejection Bytes :=
  match request.headers.get? key with
  | none | some [] => .error (.missingHeader key)
  | some value => .ok value

/-- Accepts a notification, and repeats the identifier that its sender gave it. -/
def acceptNotify (request : Request) : Response :=
  (Response.ok .notify).addHeader Key.notificationId (request.headers.getD Key.notificationId [])

/-- Accepts a request without acting on it. -/
def answerIgnored (request : Request) : Response :=
  if request.messageType = .notify then request.acceptNotify else .ok request.messageType

@[simp] theorem status_answerIgnored (request : Request) :
    request.answerIgnored.status = .ok := by
  unfold answerIgnored
  split
  · rfl
  · exact Response.status_ok _

/-- Registers the application and the types that it declares. -/
def register (request : Request) : Action Effects Response := do
  let name ← check (request.required Key.applicationName)
  let application ←
    Effects.registerApplication name (request.headers.getD Key.applicationIcon [])
  Effects.registerTypes application.name request.types
  pure (.ok .register)

/-- The priority that a notification asks for; anything but a 32-bit number counts as 0. -/
def priority (request : Request) : Int :=
  (Decimal.int32? (request.headers.getD Key.notificationPriority (ascii "0"))).getD 0

/-- The notification that a request asks to display. -/
def notification (request : Request) (application : Application) (type : NotificationType) :
    Notification where
  application
  type
  id := request.headers.getD Key.notificationId []
  title := request.headers.getD Key.notificationTitle []
  text := request.headers.getD Key.notificationText []
  icon := request.headers.getD Key.notificationIcon type.icon
  sticky := Headers.isTrue (request.headers.getD Key.notificationSticky [])
  priority := request.priority
  coalescingId := request.headers.getD Key.notificationCoalescingId []
  resources := request.attachments.attached
  timestamp := request.receivedAt

/-- The registered application and type that a notification is about. -/
def subject (request : Request) (registry : Registry) :
    Except Rejection (Application × NotificationType) := do
  let applicationName ← request.required Key.applicationName
  let typeName ← request.required Key.notificationName
  match registry.application? applicationName with
  | none => throw (.unknownApplication applicationName)
  | some application =>
    match registry.type? application.name typeName with
    | none => throw (.unknownNotification typeName)
    | some type => return (application, type)

/-- Displays a notification of a registered type, if the type is enabled. -/
def notify (request : Request) : Action Effects Response := do
  let (application, type) ← check (request.subject (← get).registry)
  if type.enabled then
    Effects.display (request.notification application type)
  pure request.acceptNotify

/-- Acts on a complete request. -/
def act (request : Request) : Action Effects Response :=
  if request.ignored then pure request.answerIgnored
  else if request.attachments.hasPending then
    throw (.rejected (.missingResources request.attachments.pendingCount))
  else match request.messageType with
    | .register => request.register
    | .notify => request.notify
    | .subscribe => throw (.rejected .subscribeUnsupported)

/-- What comes of a complete request if it is accepted. -/
def answer (request : Request) (registry : Registry) : Except Failure Answer :=
  match request.act { registry } with
  | .ok response after =>
    .ok { response, registry := after.registry, displayed := after.displayed.head? }
  | .error failure _ => .error failure

end Request

end Gntp
