import Gntp.Proofs.Attaching
import Gntp.Proofs.Numerals
import Gntp.Proofs.RegistryHistory
import Gntp.Proofs.ResponseFormat

/-!
# What comes of a notification

A complete notification is refused for want of a name, of a registered application, or of a type
that is registered under it, in this order, and accepted otherwise (`Request.Comes`). It is
displayed if it is accepted and its type is enabled, and then with everything that the request and
the registry say of it (`Request.Presents`).
-/

namespace Gntp

/-- What means yes, in letters of either case. -/
theorem Headers.isTrue_iff {value : Bytes} : isTrue value = true ↔
    (value.map fun b => if 0x41 ≤ b ∧ b ≤ 0x5a then b + 0x20 else b) ∈
      [ascii "true", ascii "yes"] := by
  rw [isTrue, Bool.or_eq_true, Bytes.equalsIgnoringCase, Bytes.equalsIgnoringCase, beq_iff_eq,
    beq_iff_eq, List.mem_pair]
  rfl

namespace Request

open Gntp.Action

variable {request : Request} {e : Effects} {gate : Gate} {input : Bytes} {store : Store}
  {r : Reading} {application : Application} {type : NotificationType}

/-- The value of a header, and nothing if the header is missing. -/
def text (request : Request) (key : Bytes) : Bytes := (request.headers.get? key).getD []

/-- A notification as the registry and the request have it. -/
structure Presents (request : Request) (registry : Registry) (n : Notification) : Prop where
  application :
    registry.application? (request.text (ascii "Application-Name")) = some n.application
  type : registry.type? (request.text (ascii "Application-Name"))
    (request.text (ascii "Notification-Name")) = some n.type
  id : n.id = request.text (ascii "Notification-ID")
  title : n.title = request.text (ascii "Notification-Title")
  text : n.text = request.text (ascii "Notification-Text")
  coalescingId : n.coalescingId = request.text (ascii "Notification-Coalescing-ID")
  icon_sent : ∀ icon, request.headers.get? (ascii "Notification-Icon") = some icon → n.icon = icon
  icon_registered : request.headers.get? (ascii "Notification-Icon") = none → n.icon = n.type.icon
  /-- Yes and true are said in letters of either case. -/
  sticky_iff : n.sticky = true ↔
    ((request.text (ascii "Notification-Sticky")).map fun b =>
      if 0x41 ≤ b ∧ b ≤ 0x5a then b + 0x20 else b) ∈ [ascii "true", ascii "yes"]
  priority_read : ∀ z, Decimal.Literal (request.text (ascii "Notification-Priority")) z →
    -2 ^ 31 ≤ z → z < 2 ^ 31 → n.priority = z
  priority_unread : (∀ z, Decimal.Literal (request.text (ascii "Notification-Priority")) z →
    ¬ (-2 ^ 31 ≤ z ∧ z < 2 ^ 31)) → n.priority = 0
  resources_mem : ∀ resource, resource ∈ n.resources ↔
    request.attachments.find? resource.identifier = some resource
  /-- The order is strict, so that no resource is there twice. -/
  resources_sorted :
    n.resources.Pairwise fun former latter => former.identifier < latter.identifier
  timestamp : n.timestamp = request.receivedAt

/-- What comes of a notification, whatever is registered. -/
structure Comes (request : Request) (e : Effects) : Prop where
  unnamed : request.text (ascii "Application-Name") = [] ∨
    request.text (ascii "Notification-Name") = [] →
    ∃ key ∈ [ascii "Application-Name", ascii "Notification-Name"], request.text key = [] ∧
      request.act e = .error (.rejected (.missingHeader key)) e ∧
      (Rejection.missingHeader key).code = .invalidRequest
  unknownApplication : request.text (ascii "Application-Name") ≠ [] →
    request.text (ascii "Notification-Name") ≠ [] →
    e.registry.application? (request.text (ascii "Application-Name")) = none →
    ∃ reason, request.act e = .error (.rejected reason) e ∧ reason.code = .unknownApplication
  unknownNotification : request.text (ascii "Application-Name") ≠ [] →
    request.text (ascii "Notification-Name") ≠ [] →
    (e.registry.application? (request.text (ascii "Application-Name"))).isSome →
    e.registry.type? (request.text (ascii "Application-Name"))
      (request.text (ascii "Notification-Name")) = none →
    ∃ reason, request.act e = .error (.rejected reason) e ∧ reason.code = .unknownNotification
  /-- The identifier is repeated, and blanks stand in it for line breaks. -/
  accepted : request.text (ascii "Application-Name") ≠ [] →
    request.text (ascii "Notification-Name") ≠ [] →
    (e.registry.application? (request.text (ascii "Application-Name"))).isSome →
    ∀ {type}, e.registry.type? (request.text (ascii "Application-Name"))
      (request.text (ascii "Notification-Name")) = some type →
    ∃ n response, request.Presents e.registry n ∧
      request.act e = .ok response { e with
        displayed := e.displayed ++ if type.enabled then [n] else [] } ∧
      response.status = .ok ∧
      response.headers.get? (ascii "Notification-ID") =
        some ((request.text (ascii "Notification-ID")).map fun b =>
          if b = 0x0d ∨ b = 0x0a then 0x20 else b)

/-! ## The subject of a notification -/

theorem required_eq (request : Request) (key : Bytes) :
    request.required key =
      if request.text key = [] then .error (.missingHeader key) else .ok (request.text key) := by
  unfold required text
  cases request.headers.get? key with
  | none => rfl
  | some value => cases value <;> rfl

/-- Both names have to be there before the registry is asked. -/
theorem subject_of_named {registry : Registry}
    (happlication : request.text (ascii "Application-Name") ≠ [])
    (htype : request.text (ascii "Notification-Name") ≠ []) :
    request.subject registry =
      match registry.application? (request.text (ascii "Application-Name")) with
      | none => .error (.unknownApplication (request.text (ascii "Application-Name")))
      | some application => match registry.type? application.name
          (request.text (ascii "Notification-Name")) with
        | none => .error (.unknownNotification (request.text (ascii "Notification-Name")))
        | some type => .ok (application, type) := by
  unfold subject Key.applicationName Key.notificationName
  rw [required_eq, if_neg happlication, required_eq, if_neg htype]
  rfl

theorem subject_of_unnamed (registry : Registry) (h : request.text (ascii "Application-Name") = [] ∨
    request.text (ascii "Notification-Name") = []) :
    ∃ key ∈ [ascii "Application-Name", ascii "Notification-Name"], request.text key = [] ∧
      request.subject registry = .error (.missingHeader key) := by
  unfold subject Key.applicationName Key.notificationName
  by_cases happlication : request.text (ascii "Application-Name") = []
  · refine ⟨_, List.mem_cons_self, happlication, ?_⟩
    rw [required_eq, if_pos happlication]
    rfl
  · have htype := h.resolve_left happlication
    refine ⟨_, List.mem_cons_of_mem _ List.mem_cons_self, htype, ?_⟩
    rw [required_eq, if_neg happlication, required_eq, if_pos htype]
    rfl

/-! ## What is displayed -/

/-- A priority that is missing counts like one that cannot be read. -/
theorem priority_eq (request : Request) :
    request.priority = (Decimal.int32? (request.text (ascii "Notification-Priority"))).getD 0 := by
  unfold priority text Headers.getD Key.notificationPriority
  cases request.headers.get? (ascii "Notification-Priority") with
  | none => rfl
  | some value => rfl

theorem presents_notification (hr : request.attachments.Gathered)
    (happlication :
      e.registry.application? (request.text (ascii "Application-Name")) = some application)
    (htype : e.registry.type? (request.text (ascii "Application-Name"))
      (request.text (ascii "Notification-Name")) = some type) :
    request.Presents e.registry (request.notification application type) where
  application := happlication
  type := htype
  id := rfl
  title := rfl
  text := rfl
  coalescingId := rfl
  icon_sent _ hicon := congrArg (Option.getD · type.icon) hicon
  icon_registered hnone := congrArg (Option.getD · type.icon) hnone
  sticky_iff := Headers.isTrue_iff
  priority_read z hz hlow hhigh := by
    have hread := Decimal.int32?_eq_some.2 ⟨hz, hlow, hhigh⟩
    rw [notification, priority_eq, hread, Option.getD_some]
  priority_unread hno := by
    have hnone : Decimal.int32? (request.text (ascii "Notification-Priority")) = none := by
      refine Option.eq_none_iff_forall_ne_some.2 fun z hz => ?_
      obtain ⟨hliteral, hrange⟩ := Decimal.int32?_eq_some.1 hz
      exact hno z hliteral hrange
    rw [notification, priority_eq, hnone, Option.getD_none]
  resources_mem _ := hr.mem_attached
  resources_sorted := hr.attached_sorted
  timestamp := rfl

theorem get?_acceptNotify (request : Request) :
    request.acceptNotify.headers.get? (ascii "Notification-ID") =
      some (Response.oneLine (request.text (ascii "Notification-ID"))) :=
  Response.get?_addHeader_self ..

/-! ## Acting on a notification -/

/-- Nothing but its subject decides what a notification that is acted on comes to. -/
theorem act_of_notify (hm : request.messageType = .notify) (hi : request.ignored = false)
    (hp : request.attachments.hasPending = false) :
    request.act e = match request.subject e.registry with
      | .error reason => .error (.rejected reason) e
      | .ok (application, type) => .ok request.acceptNotify { e with
          displayed := e.displayed ++
            if type.enabled then [request.notification application type] else [] } := by
  have hact : request.act e = request.notify e := by
    unfold act
    rw [hi, hp, hm]
    rfl
  rw [hact]
  have hbind : request.notify e = (check (request.subject e.registry) >>= fun subject =>
      if subject.2.enabled then
        Effects.display (request.notification subject.1 subject.2) >>= fun _ =>
          pure request.acceptNotify
      else pure request.acceptNotify : Action Effects Response) e := rfl
  rw [hbind]
  cases request.subject e.registry with
  | error reason => rfl
  | ok subject =>
    obtain ⟨application, type⟩ := subject
    rw [bind_of_ok (check_eq_ok.2 ⟨rfl, rfl⟩)]
    dsimp only
    cases type.enabled with
    | true => rfl
    | false =>
      rw [if_neg Bool.false_ne_true, if_neg Bool.false_ne_true, List.append_nil]
      rfl

/-- Whatever is registered, and whatever a complete notification that is not ignored says. -/
theorem comes_of_parse (hr : e.registry.Reachable)
    (hparsed : Reading.parse gate (.start input store) = .ok (some request) r)
    (hm : request.messageType = .notify) (hi : request.ignored = false) : request.Comes e := by
  have hact := act_of_notify (e := e) hm hi ((Reading.formed_of_parse hparsed).arrived rfl)
  have hgathered := Reading.gathered_of_parse hparsed
  refine {
    unnamed := fun hempty => ?_
    unknownApplication := fun happlication htype hnone => ?_
    unknownNotification := fun happlication htype hsome hnone => ?_
    accepted := fun happlication htype hsome type hfound => ?_ }
  · obtain ⟨key, hkey, hmissing, hsubject⟩ := subject_of_unnamed e.registry hempty
    rw [hsubject] at hact
    exact ⟨key, hkey, hmissing, hact, rfl⟩
  · rw [subject_of_named happlication htype, hnone] at hact
    exact ⟨_, hact, rfl⟩
  · obtain ⟨application, happ⟩ := Option.isSome_iff_exists.1 hsome
    rw [subject_of_named happlication htype, happ] at hact
    dsimp only at hact
    rw [hr.name_of_application? happ, hnone] at hact
    exact ⟨_, hact, rfl⟩
  · obtain ⟨application, happ⟩ := Option.isSome_iff_exists.1 hsome
    rw [subject_of_named happlication htype, happ] at hact
    dsimp only at hact
    rw [hr.name_of_application? happ, hfound] at hact
    exact ⟨_, _, presents_notification hgathered happ hfound, hact, rfl, get?_acceptNotify request⟩

/-- A notification with a resource for its icon and one for its text, which come the other way
round, and with a priority below zero. -/
def elaborate : Bytes :=
  [ascii "GNTP/1.0 NOTIFY NONE", ascii "Application-Name: A", ascii "Notification-Name: T",
    ascii "Notification-ID: 7", ascii "Notification-Priority: -02",
    ascii "Notification-Icon: x-growl-resource://i",
    ascii "Notification-Text: x-growl-resource://h", [],
    ascii "Identifier: i", ascii "Length: 1", [], ascii "x", [],
    ascii "Identifier: h", ascii "Length: 2", [], ascii "yz", []].flatMap (· ++ Bytes.crlf)

/-- The application A with the enabled type T. -/
def alerted : Registry :=
  Registry.performEach {} [.application (ascii "A") [],
    .type (ascii "A") ⟨ascii "T", [], true, ascii "u"⟩]

theorem comes_of_parse_elaborate :
    ∃ request r, Reading.parse { suite := .full } (.start elaborate (.memory { limit := 9 })) =
        .ok (some request) r ∧
      (request.attachments.attached.map (·.identifier) = [ascii "h", ascii "i"] ∧
        alerted.application? (request.text Key.applicationName) ≠ none) ∧
      request.Comes { registry := alerted } := by
  have hcompletes : Reading.Completes (fun request _ => request.messageType = .notify ∧
      request.ignored = false ∧
      request.attachments.attached.map (·.identifier) = [ascii "h", ascii "i"] ∧
      alerted.application? (request.text Key.applicationName) ≠ none)
      (Reading.parse { suite := .full } (.start elaborate (.memory { limit := 9 }))) := by
    decide +kernel
  obtain ⟨request, r, hparsed, htest⟩ := Reading.eq_some_of_completes hcompletes
  obtain ⟨hm, hi, hshown⟩ := of_decide_eq_true htest
  exact ⟨request, r, hparsed, hshown,
    comes_of_parse (e := { registry := alerted }) (Registry.reachable_performEach _) hparsed hm hi⟩

end Request

end Gntp
