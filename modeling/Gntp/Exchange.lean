import Gntp.Answer
import Gntp.Request.Completion

/-! One exchange: a request is read from the input and answered. Whatever goes wrong, there is
exactly one response, unless the input ends before the request does. -/

namespace Gntp

structure Service where
  gate : Gate
  origin : Origin := {}

/-- What exchanges have an effect on. -/
structure World where
  registry : Registry := {}
  store : Store
  deriving DecidableEq

structure Outcome where
  /-- The response, if the request was complete. -/
  response : Option Response
  /-- Every notification that was displayed, in order. -/
  shown : List Notification
  world : World
  /-- What was not read. -/
  rest : Bytes
  deriving DecidableEq

namespace Service

/-- The response to a request that failed. -/
def refuse (service : Service) (failure : Failure) : Response :=
  (Response.ofReport failure.report).addOrigin service.origin

/-- Reads a request and answers it. -/
def handle (service : Service) (world : World) (input : Bytes) : Outcome :=
  match Reading.parse service.gate (.start input world.store) with
  | .ok none r =>
    ⟨none, [], { world with store := r.store }, r.inbound.unread⟩
  | .ok (some request) r =>
    match request.act { registry := world.registry } with
    | .ok response after =>
      ⟨some (response.addOrigin service.origin), after.displayed, ⟨after.registry, r.store⟩,
        r.inbound.unread⟩
    | .error failure after =>
      ⟨some (service.refuse failure), after.displayed, ⟨after.registry, r.store⟩,
        r.inbound.unread⟩
  | .error failure r =>
    ⟨some (service.refuse failure), [], { world with store := r.store }, r.inbound.unread⟩

section

variable {service : Service} {world : World} {input : Bytes} {r : Reading} {request : Request}
  {after : Effects} {failure : Failure}

theorem handle_of_truncated
    (hp : Reading.parse service.gate (.start input world.store) = .ok none r) :
    service.handle world input =
      ⟨none, [], { world with store := r.store }, r.inbound.unread⟩ := by
  simp only [handle, hp]

theorem handle_of_unread
    (hp : Reading.parse service.gate (.start input world.store) = .error failure r) :
    service.handle world input =
      ⟨some (service.refuse failure), [], { world with store := r.store }, r.inbound.unread⟩ := by
  simp only [handle, hp]

theorem handle_of_accepted {response : Response}
    (hp : Reading.parse service.gate (.start input world.store) = .ok (some request) r)
    (ha : request.act { registry := world.registry } = .ok response after) :
    service.handle world input =
      ⟨some (response.addOrigin service.origin), after.displayed, ⟨after.registry, r.store⟩,
        r.inbound.unread⟩ := by
  simp only [handle, hp, ha]

theorem handle_of_refused
    (hp : Reading.parse service.gate (.start input world.store) = .ok (some request) r)
    (ha : request.act { registry := world.registry } = .error failure after) :
    service.handle world input =
      ⟨some (service.refuse failure), after.displayed, ⟨after.registry, r.store⟩,
        r.inbound.unread⟩ := by
  simp only [handle, hp, ha]

end

end Service

namespace Outcome

/-- Whether a request was read to its end or refused. -/
def handled (o : Outcome) : Bool := o.response.isSome

/-- The notification that was displayed, if there was one. -/
def displayed (o : Outcome) : Option Notification := o.shown.head?

/-- The bytes that are written. -/
def output (o : Outcome) : Bytes := (o.response.map Response.render).getD []

end Outcome

end Gntp
