import Gntp.Proofs.Admission
import Gntp.Proofs.Authorization
import Gntp.Proofs.Secrecy
import Gntp.Proofs.StoreIndependence

/-!
# An ignored notification looks accepted

A service that ignores a notification answers just what any service with the same origin answers
that accepts it, whatever is registered and stored here and there (`Service.handle_discreet`). The
two readings put their payloads into different stores and differ in the mark that the request is to
be ignored. `Reading.unmarked` sees neither, and the answer needs no more than it sees.
-/

namespace Gntp

open Gntp.Action

namespace Reading

variable {gate gate' : Gate} {r r' last : Reading} {input : Bytes} {s : Store}
  {line : RequestLine} {request : Request}

/-- A reading that is skimmed, as if its request were to be ignored. -/
def unmarked (r : Reading) : Reading :=
  { r.skimmed with request := { r.skimmed.request with ignored := true } }

theorem skims_unmarked : Skims unmarked where
  phase _ := rfl
  inbound _ := rfl
  withPhase _ _ := rfl
  withInbound _ _ := rfl
  messageType _ := rfl
  headers _ := rfl
  types _ := rfl
  hasPending _ := Attachments.hasPending_unplaced
  block _ := rfl
  typeCount _ := rfl
  withHeaders _ _ := rfl
  withType _ _ := rfl
  withBlock _ _ := rfl
  withTypeCount _ _ := rfl
  refer r identifier := by
    simp only [unmarked, skimmed, Request.unplaced, Request.undated, Attachments.refer_unplaced]
  sealing _ := rfl
  attachments _ := rfl
  withAttachments _ _ := rfl
  receiving _ := rfl
  resume _ _ := rfl

/-- If nothing can go wrong with a payload, a reading comes to its end like any other one that looks
the same without the mark. -/
theorem proceed_of_unmarked (hsmooth : r.Smooth) (hsame : r.unmarked = r'.unmarked)
    (h : proceed gate' r' = .ok () last) :
    ∃ r₁, proceed gate r = .ok () r₁ ∧ r₁.unmarked = last.unmarked := by
  have hone : Traces id unmarked r.Smooth (proceed gate r) (proceed gate r.unmarked) :=
    proceed_traces skims_unmarked
  have hother : Traces id unmarked r'.Smooth (proceed gate' r') (proceed gate r'.unmarked) :=
    proceed_traces skims_unmarked
  rw [h] at hother
  have hend : .ok () last.unmarked = trace id unmarked (proceed gate r) := by
    rw [← hone.eq_trace hsmooth, hsame]
    exact hother.eq_ok.symm
  cases hp : proceed gate r with
  | ok _ r₁ =>
    rw [hp] at hend
    injection hend with _ heq
    exact ⟨r₁, rfl, heq.symm⟩
  | error failure r₁ =>
    rw [hp] at hend
    cases hend

/-- What a request line in the clear settles. -/
theorem readRequestLine_of_clear {access : Access} {inbound : Inbound}
    (htake : Inbound.takeLine { unread := input } = .ok (some (firstLine input)) inbound)
    (hg : Granted gate input line access) (hcipher : line.cipher = .none) (s : Store) :
    readRequestLine gate (start input s) =
      .ok .requestHeaders (past gate line access .clear { inbound, store := s }) := by
  rw [readRequestLine_of_decided (r := start input s) htake hg.opens.parsed hg.decided]
  exact settle_of_clear rfl hcipher

/-- A notification that is read to its end anywhere is read to its end where it is ignored. -/
theorem parse_of_ignored (hg : Granted gate input line .ignored)
    (h : parse gate' (start input s) = .ok (some request) r) :
    ∃ request' r', parse gate (start input .discard) = .ok (some request') r' ∧
      request'.messageType = request.messageType ∧ request'.headers = request.headers := by
  obtain ⟨_, _, hcipher⟩ := Access.notify_of_decide hg.decided
  obtain ⟨phase, r₁, hline, hloop, rfl⟩ := (finish_eq_ok rfl).1 (parse_eq_some.1 h)
  obtain ⟨text, inbound, line', access, _, htake, hparsed, hdecided, _⟩ :=
    readRequestLine_eq_ok.1 hline
  -- Both readings take the same request line.
  obtain ⟨hshort, rfl⟩ := Inbound.firstLine_of_takeLine rfl htake
  obtain rfl : line' = line := Opens.unique ⟨hshort, hparsed⟩ hg.opens
  have hline' := readRequestLine_of_clear htake ⟨hg.opens, hdecided⟩ hcipher s
  cases hline'.symm.trans hline
  have hignored := readRequestLine_of_clear htake hg hcipher .discard
  let mine : Reading := past gate line' .ignored .clear { inbound, store := .discard }
  let theirs : Reading := past gate' line' access .clear { inbound, store := s }
  have hsame : unmarked { mine with phase := .requestHeaders } =
      unmarked { theirs with phase := .requestHeaders } := rfl
  have hsmooth : Smooth { mine with phase := .requestHeaders } := ⟨rfl, trivial⟩
  obtain ⟨r₂, hloop', hend⟩ : ∃ r₂, proceed gate { mine with phase := .requestHeaders } =
      .ok () r₂ ∧ r₂.unmarked = r.unmarked := proceed_of_unmarked hsmooth hsame hloop
  refine ⟨r₂.request, r₂, parse_eq_some.2 ((finish_eq_ok rfl).2 ⟨_, _, hignored, hloop', rfl⟩), ?_⟩
  exact ⟨(congrArg (fun r : Reading => r.request.messageType) hend :),
    (congrArg (fun r : Reading => r.request.headers) hend :)⟩

end Reading

namespace Service

variable {service service' : Service} {world world' : World} {input : Bytes} {line : RequestLine}

theorem unauthorized_of_ignored {gate : Gate} (h : Granted gate input line .ignored) :
    Unauthorized gate input := by
  intro line' key h'
  cases h'.opens.unique h.opens
  cases h'.decided.symm.trans h.decided

/-- Where a notification is ignored it gets the answer that it gets where it is accepted. -/
theorem response_of_ignored {response : Response} (hg : Granted service.gate input line .ignored)
    (horigin : service'.origin = service.origin)
    (hresponse : (service'.handle world' input).response = some response)
    (hok : response.status = .ok) : (service.handle world input).response = some response := by
  have hg' : Granted service.timeless.gate input line .ignored := ⟨hg.opens, hg.decided⟩
  obtain ⟨request, r, hp, rfl⟩ := response_of_accepted hresponse hok
  obtain ⟨request', r', hp', htype, hheaders⟩ := Reading.parse_of_ignored hg' hp
  have hignored : request'.ignored = true :=
    Reading.ignored_of_parse (unauthorized_of_ignored hg') hp'
  have hanswer : request'.answerIgnored = request.answerIgnored := by
    unfold Request.answerIgnored Request.acceptNotify
    rw [htype, hheaders]
  have htold : (service.handle world input).response =
      (service.timeless.handle { store := .discard } input).response :=
    (told_of_unauthorized world (unauthorized_of_ignored hg)).1
  have htimeless : service.timeless.handle { store := .discard } input = _ :=
    handle_of_accepted hp' (Request.act_of_ignored hignored _)
  rw [htold, htimeless, hanswer, horigin]
  rfl

/-- A notification that is ignored for a key hash that no password proves is answered as any service
with the same origin answers it that accepts it. -/
theorem handle_discreet (hopens : Opens input line)
    (hunproven : line.Unproven service.gate.suite service.gate.keyring)
    (hignorable : line.Ignorable service.gate.policy) (horigin : service'.origin = service.origin)
    (haccepted : (service'.handle world' input).Accepted) :
    (service.handle world input).handled = true ∧
      (service.handle world input).output = (service'.handle world' input).output := by
  have hwell := RequestLine.wellFormed_of_parse hopens.parsed
  have hg : Granted service.gate input line .ignored :=
    ⟨hopens, (Access.decide_of_unproven hwell hunproven _).1 hignorable⟩
  obtain ⟨response, hresponse, hok⟩ := haccepted
  have hsame : (service.handle world input).response = some response :=
    response_of_ignored hg horigin hresponse hok
  constructor
  · rw [Outcome.handled, hsame]
    rfl
  · rw [Outcome.output, Outcome.output, hsame, hresponse]

/-- The request line of a sender that knows another password. -/
def strangeLine : RequestLine :=
  ⟨.notify, .none, [], some ⟨.md5, ascii "5062b9292628bc5b48cf58ef3d1770c7", ascii "ab"⟩⟩

/-- A notification with this request line. -/
def strange : Bytes :=
  [ascii "GNTP/1.0 NOTIFY NONE MD5:5062b9292628bc5b48cf58ef3d1770c7.ab",
    ascii "Application-Name: A", ascii "Notification-Name: T", []].flatMap (· ++ Bytes.crlf)

/-- A service that ignores whoever does not know its password. -/
def reticent : Service where
  gate := {
    suite := .full
    keyring := { passwords := [ascii "other"] }
    policy := .ignoreNotify }

theorem handle_discreet_strange :
    let world : World := { registry := acquainted, store := .memory { limit := 10 } }
    Opens strange strangeLine ∧
    strangeLine.Unproven reticent.gate.suite reticent.gate.keyring ∧
    (knowingSecret.handle world strange).shown ≠ [] ∧
    (reticent.handle { store := .discard } strange).output =
      (knowingSecret.handle world strange).output := by
  intro world
  have hopens : Opens strange strangeLine := ⟨by decide +kernel, by rfl⟩
  have hdecided : Access.decide reticent.gate.suite reticent.gate.keyring reticent.gate.policy
      strangeLine = .ok .ignored := by decide +kernel
  have hunproven : strangeLine.Unproven reticent.gate.suite reticent.gate.keyring := by
    obtain ⟨keyHash, hk, hnone⟩ := Access.unproven_of_decide hdecided
    exact ⟨keyHash, hk, fun _ => rfl, hnone⟩
  have hstatus : (knowingSecret.handle world strange).response.map Response.status = some .ok := by
    decide +kernel
  have hshown : (knowingSecret.handle world strange).shown ≠ [] := by decide +kernel
  have haccepted : (knowingSecret.handle world strange).Accepted :=
    Option.map_eq_some_iff.1 hstatus
  have hignorable : strangeLine.Ignorable reticent.gate.policy := ⟨rfl, rfl, rfl⟩
  have horigin : knowingSecret.origin = reticent.origin := rfl
  exact ⟨hopens, hunproven, hshown,
    (handle_discreet hopens hunproven hignorable horigin haccepted).2⟩

end Service

end Gntp
