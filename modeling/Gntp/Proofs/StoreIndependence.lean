import Gntp.Proofs.Displaying
import Gntp.Proofs.Skimming

/-!
# The store decides nothing

While nothing is sealed, services that differ in their volatile store only are told apart by what
the store says of a resource and by nothing else: they answer the same, leave the same behind, and
display the same notifications (`Service.handle_store_independent`). Neither a payload that is known
already nor one that is dropped, by itself or to make room, has a bearing on an exchange.
-/

namespace Gntp

open Gntp.Action

/-- A notification without what a store says of its resources. -/
def Notification.unplaced (n : Notification) : Notification :=
  { n with resources := n.resources.map Resource.unplaced }

/-! ## Acting on a request -/

namespace Request

variable {request request' : Request}

theorem unplaced_of_undated (h : request'.undated.unplaced = request.undated.unplaced)
    (htime : request'.receivedAt = request.receivedAt) : request'.unplaced = request.unplaced := by
  have hdated (q : Request) :
      q.unplaced = { q.undated.unplaced with receivedAt := q.receivedAt } := rfl
  rw [hdated request', hdated request, h, htime]

theorem resembles_unplaced (request : Request) :
    Resembles Notification.unplaced request request.unplaced where
  messageType := rfl
  ignored := rfl
  headers := rfl
  types := rfl
  hasPending := Attachments.hasPending_unplaced
  pendingCount := Attachments.pendingCount_unplaced
  notification application type := by
    have hattached : request.unplaced.attachments.attached =
        request.attachments.attached.map Resource.unplaced := Attachments.attached_unplaced
    unfold notification Notification.unplaced
    rw [hattached]
    rfl

end Request

/-! ## Two readings -/

namespace Reading

variable {gate : Gate} {input : Bytes} {s s' : Store}

/-- Two readings agree but for what stores say of resources. -/
inductive Agree : EStateM.Result Failure Reading (Option Request) →
    EStateM.Result Failure Reading (Option Request) → Prop
  | complete {request request' : Request} {r r' : Reading} :
    request'.unplaced = request.unplaced → r'.inbound = r.inbound →
    Agree (.ok (some request) r) (.ok (some request') r')
  | cut {r r' : Reading} : r'.inbound = r.inbound → Agree (.ok none r) (.ok none r')
  | refused {failure : Failure} {r r' : Reading} : r'.inbound = r.inbound →
    Agree (.error failure r) (.error failure r')

theorem parse_agree (gate : Gate) (hs : SmoothInput input s) (hs' : SmoothInput input s') :
    Agree (parse gate (start input s)) (parse gate (start input s')) := by
  have hskim := (finish_traces gate input s).eq_trace hs
  have hskim' := (finish_traces gate input s').eq_trace hs'
  unfold parse
  rcases of_trace_eq (hskim'.symm.trans hskim) with
    ⟨request', request, r', r, h', h, hrequest, hr⟩ | ⟨failure, r', r, h', h, hr⟩
  · obtain ⟨_, _, _, _, _, htime⟩ := granted_of_parse (parse_eq_some.2 h)
    obtain ⟨_, _, _, _, _, htime'⟩ := granted_of_parse (parse_eq_some.2 h')
    rw [h, h']
    exact .complete (Request.unplaced_of_undated hrequest (htime'.trans htime.symm))
      (congrArg inbound hr :)
  · have hinbound : r'.inbound = r.inbound := (congrArg inbound hr :)
    rw [h, h']
    cases failure with
    | truncated => exact .cut hinbound
    | _ => exact .refused hinbound

end Reading

/-! ## Exchanges -/

namespace Service

variable {service : Service} {world world' : World} {input : Bytes}

/-- Two exchanges agree but for what stores say of the resources that are displayed. -/
structure Agree (o o' : Outcome) : Prop where
  response : o'.response = o.response
  rest : o'.rest = o.rest
  registry : o'.world.registry = o.world.registry
  shown : o'.shown.map Notification.unplaced = o.shown.map Notification.unplaced

theorem agree_of_parse {request request' : Request} {r r' : Reading}
    (hp : Reading.parse service.gate (.start input world.store) = .ok (some request) r)
    (hp' : Reading.parse service.gate (.start input world'.store) = .ok (some request') r')
    (hrequest : request'.unplaced = request.unplaced) (hinbound : r'.inbound = r.inbound)
    (hregistry : world'.registry = world.registry) :
    Agree (service.handle world input) (service.handle world' input) := by
  have hagrees := agrees_of_parse hp hp' request.resembles_unplaced
    (hrequest ▸ request'.resembles_unplaced) rfl hregistry
  refine ⟨hagrees.response, ?_, hagrees.registry, hagrees.shown⟩
  rw [(rest_of_parse hp).1, (rest_of_parse hp').1, hinbound]

theorem agree_of_handle (hs : Reading.SmoothInput input world.store)
    (hs' : Reading.SmoothInput input world'.store) (hregistry : world'.registry = world.registry) :
    Agree (service.handle world input) (service.handle world' input) := by
  have hagree := Reading.parse_agree service.gate hs hs'
  generalize hp : Reading.parse service.gate (.start input world.store) = outcome at hagree
  generalize hp' : Reading.parse service.gate (.start input world'.store) = outcome' at hagree
  cases hagree with
  | complete hrequest hinbound => exact agree_of_parse hp hp' hrequest hinbound hregistry
  | cut hinbound =>
    rw [handle_of_truncated hp, handle_of_truncated hp']
    exact ⟨rfl, congrArg Inbound.unread hinbound, hregistry, rfl⟩
  | refused hinbound =>
    rw [handle_of_unread hp, handle_of_unread hp']
    exact ⟨rfl, congrArg Inbound.unread hinbound, hregistry, rfl⟩

/-- While nothing is sealed, it makes no difference which payloads a store holds, and whether it
keeps any. -/
theorem handle_store_independent (hclear : ∀ line, Opens input line → line.cipher = .none)
    (hstore : world.store.Volatile) (hstore' : world'.store.Volatile)
    (hregistry : world'.registry = world.registry) :
    (service.handle world' input).handled = (service.handle world input).handled ∧
    (service.handle world' input).rest = (service.handle world input).rest ∧
    (service.handle world' input).output = (service.handle world input).output ∧
    (service.handle world' input).world.registry = (service.handle world input).world.registry ∧
    (service.handle world' input).shown.map Notification.unplaced =
      (service.handle world input).shown.map Notification.unplaced := by
  have hagree : Agree (service.handle world input) (service.handle world' input) :=
    agree_of_handle ⟨hclear, hstore⟩ ⟨hclear, hstore'⟩ hregistry
  refine ⟨?_, hagree.rest, ?_, hagree.registry, hagree.shown⟩
  · rw [Outcome.handled, hagree.response, Outcome.handled]
  · rw [Outcome.output, hagree.response, Outcome.output]

/-- A notification with an icon of its own. -/
def illustrated : Bytes :=
  [ascii "GNTP/1.0 NOTIFY NONE", ascii "Application-Name: A", ascii "Notification-Name: T",
    ascii "Notification-Icon: x-growl-resource://i", [],
    ascii "Identifier: i", ascii "Length: 1", [], ascii "x", []].flatMap (· ++ Bytes.crlf)

/-- A registry with the type that the notification is about. -/
def acquainted : Registry where
  applications := [(ascii "A", { id := 1, name := ascii "A", icon := [] })]
  types := [((ascii "A", ascii "T"), {
    id := 2
    application := ascii "A"
    name := ascii "T"
    displayName := ascii "T"
    enabled := true
    icon := [] })]
  nextId := 3

/-- A world whose store has the icon already. -/
def stocked : World where
  registry := acquainted
  store := .memory {
    limit := 1
    payloads := [(ascii "i", ascii "x")]
    order := [ascii "i"]
    total := 1 }

/-- The same world without a store. -/
def unstocked : World where
  registry := acquainted
  store := .discard

/-- A service to which anyone can send. -/
def obliging : Service where
  gate := { suite := .full }

theorem handle_store_independent_illustrated :
    (∀ line, Opens illustrated line → line.cipher = .none) ∧
    stocked.store.Volatile ∧ unstocked.store.Volatile ∧
    (obliging.handle unstocked illustrated).shown ≠ (obliging.handle stocked illustrated).shown ∧
    (obliging.handle unstocked illustrated).shown.map Notification.unplaced =
      (obliging.handle stocked illustrated).shown.map Notification.unplaced := by
  have hopens : Opens illustrated ⟨.notify, .none, [], none⟩ := ⟨by decide +kernel, by rfl⟩
  have hclear : ∀ line, Opens illustrated line → line.cipher = .none := fun line hline => by
    rw [hline.unique hopens]
  have hstocked : stocked.store.Volatile := trivial
  have hunstocked : unstocked.store.Volatile := trivial
  have hdiffer : (obliging.handle unstocked illustrated).shown ≠
      (obliging.handle stocked illustrated).shown := by
    decide +kernel
  exact ⟨hclear, hstocked, hunstocked, hdiffer,
    (handle_store_independent hclear hstocked hunstocked rfl).2.2.2.2⟩

end Service

end Gntp
