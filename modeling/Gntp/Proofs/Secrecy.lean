import Gntp.Proofs.Acting
import Gntp.Proofs.Clock
import Gntp.Proofs.Settled

/-!
# Nothing is told to a stranger

A sender whose request line is not authentic gets the same answer from every service with the same
passwords, policy and origin, after the same number of bytes, whatever is registered and whatever is
stored there (`handle_indistinguishable`). Every such exchange is compared with the one that a
timeless service without any store has (`told_of_unauthorized`): the request line is read
without a look at the store, and once the request is ignored the rest mirrors itself along
`Reading.visible`.
-/

namespace Gntp

open Gntp.Action

namespace Reading

variable {gate : Gate} {input : Bytes} {s : Store} {r r' : Reading}

/-- A reading without the time and the store. -/
def outside (r : Reading) : Reading := { r with
  store := .discard
  request := r.request.undated }

theorem visible_of_ignored (h : r.request.ignored = true) : r.visible = r.outside := by
  unfold visible outside
  rw [h]
  rfl

/-! ## The whole reading -/

theorem ignored_of_proceed (hi : r.request.ignored = true) :
    ((proceed gate).final r).request.ignored = true :=
  (congrArg Settled.ignored (proceed_keeps_settled r)).trans hi

/-- Seen from outside, a stranger has the request read as if there were no store and no clock. -/
theorem finish_of_unauthorized (h : Unauthorized gate input) :
    finish gate.timeless (start input .discard) = match finish gate (start input s) with
      | .ok request r => .ok request.undated r.outside
      | .error failure r => .error failure r.outside := by
  have hline : readRequestLine gate.timeless (start input .discard) =
      seen outside (readRequestLine gate (start input s)) :=
    readRequestLine_mirrors (fun _ => .discard) (start input s)
  rw [finish_eq rfl, finish_eq rfl, hline]
  cases hread : readRequestLine gate (start input s) with
  | error failure r₁ => rfl
  | ok phase r₁ =>
    have hi : r₁.request.ignored = true := ignored_of_readRequestLine h hread
    have hvisible : visible { r₁ with phase } = { r₁.outside with phase } :=
      visible_of_ignored (r := { r₁ with phase }) hi
    have hmirrors : Mirrors visible (proceed gate) (proceed gate.timeless) :=
      proceed_mirrors shows_visible rfl
    have hloop : proceed gate.timeless { r₁.outside with phase } =
        seen visible (proceed gate { r₁ with phase }) := by
      rw [← hvisible]
      exact hmirrors { r₁ with phase }
    have hend : ((proceed gate).final { r₁ with phase }).request.ignored = true :=
      ignored_of_proceed (r := { r₁ with phase }) hi
    simp only [seen]
    rw [hloop]
    cases hp : proceed gate { r₁ with phase } with
    | error failure r₂ =>
      rw [final_of_error hp] at hend
      simp only [seen, visible_of_ignored hend]
    | ok _ r₂ =>
      rw [final_of_ok hp] at hend
      simp only [seen, visible_of_ignored hend]
      rfl

theorem parse_of_unauthorized (h : Unauthorized gate input) :
    parse gate.timeless (start input .discard) = match parse gate (start input s) with
      | .ok request? r => .ok (request?.map Request.undated) r.outside
      | .error failure r => .error failure r.outside := by
  unfold parse
  rw [finish_of_unauthorized (s := s) h]
  cases finish gate (start input s) with
  | ok request r => rfl
  | error failure r => cases failure <;> rfl

end Reading

namespace Service

variable {service service' : Service} {world world' : World} {input : Bytes}

/-- A service without a clock. -/
def timeless (service : Service) : Service := { service with gate := service.gate.timeless }

/-- What a stranger has of an exchange is what it would have without a clock, a registry and a
store. -/
theorem told_of_unauthorized (world : World) (h : Unauthorized service.gate input) :
    (service.handle world input).response =
      (service.timeless.handle { store := .discard } input).response ∧
    (service.handle world input).rest =
      (service.timeless.handle { store := .discard } input).rest := by
  have hparse : Reading.parse service.timeless.gate (.start input .discard) = _ :=
    Reading.parse_of_unauthorized (s := world.store) h
  cases hp : Reading.parse service.gate (.start input world.store) with
  | error failure r =>
    rw [hp] at hparse
    rw [handle_of_unread hp, handle_of_unread hparse]
    exact ⟨rfl, rfl⟩
  | ok request? r =>
    rw [hp] at hparse
    cases request? with
    | none =>
      rw [handle_of_truncated hp, handle_of_truncated hparse]
      exact ⟨rfl, rfl⟩
    | some request =>
      have hignored : request.ignored = true := Reading.ignored_of_parse h hp
      have hanswer : request.act { registry := world.registry } = .ok request.answerIgnored _ :=
        Request.act_of_ignored hignored _
      have hundated : request.undated.ignored = true := hignored
      have hanswer' : request.undated.act { registry := {} } =
          .ok request.undated.answerIgnored _ := Request.act_of_ignored hundated _
      rw [handle_of_accepted hp hanswer, handle_of_accepted hparse hanswer']
      exact ⟨rfl, rfl⟩

theorem timeless_congr (hsuite : service.gate.suite = service'.gate.suite)
    (hkeyring : service.gate.keyring = service'.gate.keyring)
    (hpolicy : service.gate.policy = service'.gate.policy)
    (horigin : service.origin = service'.origin) : service.timeless = service'.timeless := by
  unfold timeless Gate.timeless
  rw [hsuite, hkeyring, hpolicy, horigin]

/-- Two services with the same passwords, policy and origin are the same to a stranger. -/
theorem handle_indistinguishable (hsuite : service.gate.suite = service'.gate.suite)
    (hkeyring : service.gate.keyring = service'.gate.keyring)
    (hpolicy : service.gate.policy = service'.gate.policy)
    (horigin : service.origin = service'.origin)
    (h : ∀ line, Opens input line →
      ¬ line.Authentic service.gate.suite service.gate.keyring) :
    (service.handle world input).handled = (service'.handle world' input).handled ∧
    (service.handle world input).rest = (service'.handle world' input).rest ∧
    (service.handle world input).output = (service'.handle world' input).output := by
  have hunauthorized : Unauthorized service.gate input := unauthorized_of_not_authentic h
  have hunauthorized' : Unauthorized service'.gate input := by
    rw [hsuite, hkeyring] at h
    exact unauthorized_of_not_authentic h
  obtain ⟨hresponse, hrest⟩ := told_of_unauthorized world hunauthorized
  obtain ⟨hresponse', hrest'⟩ := told_of_unauthorized world' hunauthorized'
  rw [timeless_congr hsuite hkeyring hpolicy horigin] at hresponse hrest
  have hsame : (service.handle world input).response = (service'.handle world' input).response :=
    hresponse.trans hresponse'.symm
  refine ⟨?_, hrest.trans hrest'.symm, ?_⟩
  · rw [Outcome.handled, Outcome.handled, hsame]
  · rw [Outcome.output, Outcome.output, hsame]

/-- A service that ignores notifications from those who do not know its password. -/
def discreet : Service where
  gate := {
    suite := .full
    keyring := { passwords := [ascii "secret"] }
    policy := .ignoreNotify }

/-- The request line of a sender that does not know the password. -/
def guess : RequestLine := ⟨.notify, .none, [], some ⟨.md5, ascii "00", ascii "ab"⟩⟩

/-- A notification with this request line. -/
def guessed : Bytes :=
  [ascii "GNTP/1.0 NOTIFY NONE MD5:00.ab", ascii "Application-Name: A",
    ascii "Notification-Name: T", []].flatMap (· ++ Bytes.crlf)

/-- A world in which an application is registered. -/
def inhabited : World where
  registry := (({} : Registry).registerApplication (ascii "A") []).2
  store := .memory { limit := 10 }

theorem handle_indistinguishable_guessed :
    (∀ line, Opens guessed line →
      ¬ line.Authentic discreet.gate.suite discreet.gate.keyring) ∧
    (discreet.handle { store := .discard } guessed).output =
      (discreet.handle inhabited guessed).output := by
  have hopens : Opens guessed guess := ⟨by decide +kernel, by rfl⟩
  have hdecided : (Access.decide discreet.gate.suite discreet.gate.keyring discreet.gate.policy
      guess).toOption = some .ignored := by decide +kernel
  have hstranger : ∀ line, Opens guessed line →
      ¬ line.Authentic discreet.gate.suite discreet.gate.keyring := by
    intro line hline hauthentic
    rw [hline.unique hopens] at hauthentic
    obtain ⟨key, hkey⟩ := (Access.authentic_iff_decide discreet.gate.policy).1 hauthentic
    rw [hkey] at hdecided
    cases hdecided
  exact ⟨hstranger, (handle_indistinguishable rfl rfl rfl rfl hstranger).2.2⟩

end Service

end Gntp
