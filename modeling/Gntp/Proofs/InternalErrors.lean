import Gntp.Proofs.CompleteRequests
import Gntp.Proofs.Refusals
import Gntp.Proofs.ResponseFormat

/-!
# Internal errors

While every hash function is at hand and payloads are not kept on disk, nothing goes wrong inside a
service: a failure is `Failure.FromSender`, either the end of the input or one that the sender is
told with a code of its own. This is shown along the reading, one lemma for each function that can
fail. What is left is a complete subscription, and `handle_internalError_iff` says that it alone is
answered with an internal error.
-/

namespace Gntp

open Gntp.Action

/-! ## The input -/

namespace Inbound

variable {suite : Suite} {i : Inbound}

/-- Whatever goes wrong while a text is opened, the text was not sealed as it should be. -/
theorem fromSender_of_decrypt {sealing : Sealing} {text : Bytes} {fault : CipherFault}
    (h : sealing.decrypt suite text = .error fault) : Failure.FromSender (.cipher fault) := by
  unfold Sealing.decrypt Sealing.unsealParts at h
  split at h
  · cases hkeyed : sealing.keyed? suite with
    | none =>
      rw [hkeyed] at h
      cases h
      exact .decryption rfl
    | some keyed =>
      rw [hkeyed] at h
      simp only [bind, Except.bind] at h
      split at h
      · cases h
      · cases h
        exact .decryption rfl
  · cases h

theorem takeSealedBlock_blames (sealing : Sealing) :
    (takeSealedBlock suite sealing).Leads i (fun _ _ => True) Failure.FromSender := by
  refine .intro (fun _ _ _ => trivial) fun failure i' h => ?_
  unfold takeSealedBlock at h
  split at h
  · cases h
  · dsimp only at h
    split at h
    · split at h
      · cases h
      · next hdecrypt =>
        cases h
        exact fromSender_of_decrypt hdecrypt
    · cases h
      split
      · exact .truncated _
      · exact .inr nofun

theorem takeBytes_blames (count : Nat) :
    (takeBytes count).Leads i (fun _ _ => True) Failure.FromSender := by
  refine .intro (fun _ _ _ => trivial) fun failure i' h => ?_
  unfold takeBytes at h
  split at h
  · cases h
    exact .inr nofun
  · dsimp only at h
    split at h
    · cases h
      exact .truncated _
    · cases h

theorem takeBlankLine_blames (identifier : Bytes) :
    (Payload.takeBlankLine identifier).Leads i (fun _ _ => True) Failure.FromSender := by
  refine .intro (fun _ _ _ => trivial) fun failure i' h => ?_
  unfold Payload.takeBlankLine at h
  split at h
  · next hline =>
    cases h
    exact (takeLine_leads (.inr nofun)).of_error hline
  · cases h
    exact .truncated _
  · split at h
    · cases h
      exact .inr nofun
    · cases h

end Inbound

/-! ## Payloads -/

/-- A store that keeps payloads in memory or nowhere. -/
def Store.Volatile : Store → Prop
  | memory _ | discard => True
  | disk _ => False

/-- A store that does not fail to keep the payload of this slot. -/
def Store.Takes (slot : Slot) : Store → Prop
  | memory _ => ∃ content broken, slot.sink = some (.buffer content broken)
  | discard => True
  | disk _ => False

namespace Store

variable {suite : Suite} {store : Store} {slot : Slot} {identifier : Bytes} {E : Failure → Prop}

/-- A slot that is not cached has a buffer. -/
theorem acquire_leads (hv : store.Volatile) : (acquire suite identifier).Leads store
    (fun slot store' => store' = store ∧ (slot.cached = false → store.Takes slot)) E := by
  cases store with
  | memory m =>
    refine ⟨rfl, fun huncached => ⟨[], false, ?_⟩⟩
    have hnew : m.contains identifier = false := huncached
    exact if_neg (Bool.eq_false_iff.1 hnew)
  | discard => exact ⟨rfl, fun _ => trivial⟩
  | disk d => cases hv

theorem takes_write (data : Bytes) (h : store.Takes slot) :
    (store.write slot data).2 = store ∧ store.Takes (store.write slot data).1 := by
  cases store with
  | memory m =>
    obtain ⟨content, broken, hsink⟩ := h
    refine ⟨rfl, ?_⟩
    cases broken with
    | true => exact ⟨content, true, by simp [write, Slot.write, hsink]⟩
    | false => exact ⟨content ++ data, false, by simp [write, Slot.write, hsink]⟩
  | discard => exact ⟨rfl, trivial⟩
  | disk d => cases h

theorem commit_leads (h : store.Takes slot) :
    (commit slot).Leads store (fun _ store' => store'.Volatile) E := by
  cases store with
  | memory m =>
    obtain ⟨content, broken, hsink⟩ := h
    have hcommit : ∃ m', m.commit slot = .ok m' := by
      unfold Memory.commit
      rw [hsink]
      dsimp only
      split <;> exact ⟨_, rfl⟩
    obtain ⟨m', hm'⟩ := hcommit
    unfold Leads commit
    simp only [hm']
    trivial
  | discard => trivial
  | disk d => cases h

end Store

namespace Payload

variable {suite : Suite} {sealing : Sealing} {length : Nat} {slot : Slot} {r : Receiving}

theorem onInbound_leads {α : Type} {action : Action Inbound α} {E : Failure → Prop}
    (h : action.Leads r.inbound (fun _ _ => True) E) :
    (Receiving.onInbound action).Leads r (fun _ r' => r'.store = r.store) E := by
  unfold Leads Receiving.onInbound
  unfold Leads at h
  cases hx : action r.inbound with
  | ok a inbound => rfl
  | error failure inbound =>
    rw [hx] at h
    exact h

theorem onStore_leads {α : Type} {action : Action Store α} {Q : α → Store → Prop}
    {E : Failure → Prop} (h : action.Leads r.store Q E) :
    (Receiving.onStore action).Leads r (fun a r' => Q a r'.store) E := by
  unfold Leads Receiving.onStore
  unfold Leads at h
  cases hx : action r.store with
  | ok a store =>
    rw [hx] at h
    exact h
  | error failure store =>
    rw [hx] at h
    exact h

theorem fill_blames (ht : r.store.Takes slot) : (fill suite sealing length slot).Leads r
    (fun slot' r' => r'.store = r.store ∧ r.store.Takes slot') Failure.FromSender := by
  unfold Leads fill Receiving.onInbound
  cases htake : Inbound.takeBytes length r.inbound with
  | error failure inbound => exact (Inbound.takeBytes_blames length).of_error htake
  | ok data inbound =>
    dsimp only
    cases hdecrypt : sealing.decrypt suite data with
    | error fault => exact Inbound.fromSender_of_decrypt hdecrypt
    | ok payload => exact Store.takes_write payload ht

theorem keep_blames (hv : r.store.Volatile) (ht : slot.cached = false → r.store.Takes slot) :
    (keep suite sealing length slot).Leads r (fun _ r' => r'.store.Volatile)
      Failure.FromSender := by
  unfold Leads keep
  cases hcached : slot.cached with
  | true =>
    have htake : (Receiving.onInbound (Inbound.takeBytes length)).Leads r
        (fun _ r' => r'.store = r.store) Failure.FromSender :=
      onInbound_leads (Inbound.takeBytes_blames length)
    rw [if_pos rfl]
    cases h : Receiving.onInbound (Inbound.takeBytes length) r with
    | error failure r₁ => exact htake.of_error h
    | ok _ r₁ =>
      have hsame : r₁.store = r.store := htake.of_ok h
      change r₁.store.Volatile
      rw [hsame]
      exact hv
  | false =>
    have hfill : (fill suite sealing length slot).Leads r
        (fun slot' r' => r'.store = r.store ∧ r.store.Takes slot') Failure.FromSender :=
      fill_blames (ht hcached)
    rw [if_neg Bool.false_ne_true]
    cases h : fill suite sealing length slot r with
    | error failure r₁ => exact hfill.of_error h
    | ok slot' r₁ =>
      obtain ⟨hsame, ht'⟩ := hfill.of_ok h
      exact onStore_leads (Store.commit_leads (hsame ▸ ht'))

theorem receive_blames {headers : Headers} (hv : r.store.Volatile) :
    (receive suite sealing headers).Leads r (fun _ r' => r'.store.Volatile)
      Failure.FromSender := by
  refine .check_bind (fun (identifier, length) _ => ?_) fun reason h =>
    (announced_blames headers).fromSender h
  have hacquire : (Receiving.onStore (Store.acquire suite identifier)).Leads r (fun slot r' =>
      r'.store.Volatile ∧ (slot.cached = false → r'.store.Takes slot)) Failure.FromSender :=
    (onStore_leads (Store.acquire_leads hv)).mono fun slot r' ⟨hsame, ht⟩ => by
      rw [hsame]
      exact ⟨hv, ht⟩
  refine .bind hacquire fun slot r₁ ⟨hv₁, ht⟩ => .bind (keep_blames hv₁ ht) fun _ r₂ hv₂ => ?_
  refine .bind (onInbound_leads (Inbound.takeBlankLine_blames identifier)) fun _ r₃ hsame => ?_
  exact .pure (hsame ▸ hv₂)

end Payload

/-! ## The reading -/

namespace Reading

variable {gate : Gate} {suite : Suite} {r : Reading} {line value : Bytes}

theorem noteReference_blames (hr : r.store.Volatile) :
    (noteReference value).Leads r (fun _ r' => r'.store.Volatile) Failure.FromSender := by
  refine .check_bind (fun reference _ => ?_) fun reason h =>
    (Headers.reference?_blames value).fromSender h
  cases reference with
  | none => exact .pure hr
  | some identifier => exact .modify hr

theorem requestHeader_blames (hr : r.store.Volatile) :
    (requestHeader line).Leads r (fun _ r' => r'.store.Volatile) Failure.FromSender := by
  unfold requestHeader
  split
  · refine .get_bind (.check_bind (fun _ _ => .modify_bind ?_) fun reason h =>
      (Headers.record_blames r.request.headers line).fromSender h)
    exact .bind (noteReference_blames hr) fun _ _ hr' => .pure hr'
  · refine .get_bind ?_
    split
    · exact .pure hr
    · refine .get_bind ?_
      split
      · exact .get_bind (.pure hr)
      · refine .get_bind (.check_bind (fun typeCount _ => .modify_bind ?_) fun reason h =>
          (parseTypeCount_blames _).fromSender h)
        split
        · exact .get_bind (.pure hr)
        · exact .modify_bind (.pure hr)

theorem typeHeader_blames (hr : r.store.Volatile) :
    (typeHeader line).Leads r (fun _ r' => r'.store.Volatile) Failure.FromSender := by
  unfold typeHeader
  split
  · refine .get_bind (.check_bind (fun _ _ => .modify_bind ?_) fun reason h =>
      (Headers.record_blames r.block line).fromSender h)
    exact .bind (noteReference_blames hr) fun _ _ hr' => .pure hr'
  · exact .get_bind (.check_bind (fun _ _ => .modify_bind (.get_bind (.pure hr)))
      fun reason h => (TypeDeclaration.ofHeaders_blames r.block).fromSender h)

theorem resourceHeader_blames (hr : r.store.Volatile) :
    (resourceHeader line).Leads r (fun _ r' => r'.store.Volatile) Failure.FromSender := by
  unfold resourceHeader
  split
  · exact .get_bind (.check_bind (fun _ _ => .modify_bind (.pure hr)) fun reason h =>
      (Headers.record_blames r.block line).fromSender h)
  · exact .get_bind (.pure hr)

theorem receive_blames (hr : r.store.Volatile) :
    (receive suite).Leads r (fun _ r' => r'.store.Volatile) Failure.FromSender := by
  have hv : r.receiving.store.Volatile := by
    unfold receiving
    split
    · trivial
    · exact hr
  have hpayload : (Payload.receive suite r.sealing r.block).Leads r.receiving
      (fun _ left => left.store.Volatile) Failure.FromSender := Payload.receive_blames hv
  unfold Leads receive
  cases h : Payload.receive suite r.sealing r.block r.receiving with
  | error failure left => exact hpayload.of_error h
  | ok resource left =>
    change (if r.request.ignored then r.store else left.store).Volatile
    split
    · exact hr
    · exact hpayload.of_ok h

theorem readResourceData_blames (hr : r.store.Volatile) :
    (readResourceData suite).Leads r (fun _ r' => r'.store.Volatile) Failure.FromSender := by
  refine .get_bind (.check_bind (fun _ _ => ?_) fun reason h => (checkNew_blames r).fromSender h)
  refine .bind (receive_blames hr) fun resource r₁ hr₁ => ?_
  exact .get_bind (.check_bind (fun _ _ => .modify_bind (.get_bind (.pure hr₁))) fun reason h =>
    (Attachments.attach_blames r₁.request.attachments resource).fromSender h)

/-- A step that takes a line. -/
theorem line_blames {f : Bytes → Action Reading Phase} (hr : r.store.Volatile)
    (hf : ∀ (r : Reading) (line : Bytes), r.store.Volatile →
      (f line).Leads r (fun _ r' => r'.store.Volatile) Failure.FromSender) :
    (nextLine >>= f).Leads r (fun _ r' => r'.store.Volatile) Failure.FromSender := by
  refine .bind (nextLine_leads (.inr nofun) .truncated) fun line r₁ ⟨_, h₁⟩ => hf r₁ line ?_
  rw [h₁]
  exact hr

theorem advance_blames (hr : r.store.Volatile) (hp : r.phase.isUnderWay) :
    (advance gate).Leads r (fun _ r' => r'.store.Volatile) Failure.FromSender := by
  have hstep : (step gate).Leads r (fun _ r' => r'.store.Volatile) Failure.FromSender := by
    unfold Leads
    rw [step_eq]
    cases hphase : r.phase with
    | requestLine | complete | answered =>
      rw [hphase] at hp
      cases hp
    | requestHeaders => exact line_blames hr fun _ _ => requestHeader_blames
    | typeHeaders => exact line_blames hr fun _ _ => typeHeader_blames
    | resourceHeaders => exact line_blames hr fun _ _ => resourceHeader_blames
    | resourceData => exact readResourceData_blames hr
  exact .bind hstep fun _ _ hr' => .modify hr'

section

variable (hdigests : ∀ algorithm, (gate.suite.digest algorithm).isSome)
include hdigests

theorem decide_blames {line : RequestLine}
    (hhex : ∀ keyHash, line.keyHash = some keyHash → keyHash.Hexadecimal) :
    (decide gate line).Leads r (fun _ _ => True) Failure.FromSender := by
  unfold Leads decide
  cases h : Access.decide gate.suite gate.keyring gate.policy line with
  | ok access => trivial
  | error failure => exact Access.fromSender_of_decide hdigests hhex h

omit hdigests in
theorem grant_blames (line : RequestLine) (access : Access) :
    (grant gate line access).Leads r (fun _ _ => True) Failure.FromSender := by
  refine .modify_bind ?_
  split
  · exact .check_bind (fun _ _ => .modify trivial) fun reason h =>
      (Access.sealing_blames line access.key).fromSender h
  · exact .pure trivial

theorem readRequestLine_blames :
    (readRequestLine gate).Leads r (fun _ _ => True) Failure.FromSender := by
  have htake : (onInbound Inbound.takeLine).Leads r (fun _ _ => True) Failure.FromSender :=
    onInbound_leads ((Inbound.takeLine_leads (.inr nofun)).mono fun _ _ _ => trivial)
  refine .bind htake fun text? r₁ _ => ?_
  cases text? with
  | none => exact .throw (.truncated _)
  | some text =>
    refine .check_bind (fun line hline => ?_) fun reason h =>
      (RequestLine.parse_blames text).fromSender h
    refine .bind (decide_blames hdigests fun _ => RequestLine.hexadecimal_of_parse hline)
      fun access r₂ _ => .bind (grant_blames line access) fun _ r₃ _ => ?_
    have hopen : (openHeaders gate).Leads r₃ (fun _ _ => True) Failure.FromSender :=
      .get_bind (onInbound_leads (Inbound.takeSealedBlock_blames r₃.sealing))
    exact .bind hopen fun _ _ _ => .pure trivial

/-- A reading that fails, fails for something that the sender is told. -/
theorem told_of_parse {input : Bytes} {store : Store} (hv : store.Volatile) {failure : Failure}
    (h : parse gate (start input store) = .error failure r) :
    failure.report.code ≠ .internalServerError := by
  have hline : (readRequestLine gate).Leads (start input store)
      (fun phase r' => ({ r' with phase } : Reading).store.Volatile) Failure.FromSender :=
    ((readRequestLine_blames hdigests).keeping readRequestLine_keeps_store).mono
      fun _ r' ⟨_, hsame⟩ => hsame.symm ▸ hv
  have hfinish := finish_leads (P := fun r => r.store.Volatile) rfl hline fun _ => advance_blames
  unfold parse at h
  split at h
  · cases h
  · cases h
  · next hnot hfailed =>
    cases h
    exact (hfinish.of_error hfailed).resolve_left fun ⟨place, heq⟩ => hnot place heq

end

end Reading

/-! ## The whole exchange -/

/-- A response is told with the code of its report. -/
theorem Response.code_ofReport (report : Report) :
    (ofReport report).headers.get? codeKey = some (Decimal.ofNat report.code.value) := by
  unfold ofReport
  split
  · exact get?_error.1
  · exact get?_error.1
  · exact get?_error.1
  · next kind text hnot =>
    have hcode : (Report.fault kind text).code = .internalServerError := by
      cases kind <;> first | rfl | exact (hnot rfl).elim
    rw [hcode]
    exact get?_error.1

/-- A subscription that is not ignored is refused. -/
theorem Request.act_of_subscribe {request : Request} {e : Effects} (hi : request.ignored = false)
    (hp : request.attachments.hasPending = false) (hm : request.messageType = .subscribe) :
    request.act e = .error (.rejected .subscribeUnsupported) e := by
  unfold act
  rw [hi, hp, hm]
  rfl

/-- What is refused of a complete request is refused for something that the sender is told, unless
it is a subscription. -/
theorem Request.told_of_act {request : Request} {e e' : Effects} {failure : Failure}
    (hregistry : e.registry.Reachable) (hp : request.attachments.hasPending = false)
    (hm : request.messageType ≠ .subscribe) (h : request.act e = .error failure e') :
    failure.report.code ≠ .internalServerError := by
  -- Among the refusals, the registry rules out the type without an owner.
  have hacted : request.Acted e (request.act e) := acted hregistry
  rw [h] at hacted
  cases hacted with
  | refused reason =>
    cases (act_refuses hp).of_error h with
    | missingHeader | unknownApplication | unknownNotification => exact nofun
    | subscribe hsubscribe => exact absurd hsubscribe hm

namespace Outcome

/-- The request was accepted. -/
def Accepted (o : Outcome) : Prop :=
  ∃ response, o.response = some response ∧ response.status = .ok

/-- The request was refused with a code. -/
def Coded (o : Outcome) (code : Nat) : Prop :=
  ∃ response, o.response = some response ∧ response.status = .error ∧
    response.headers.get? Response.codeKey = some (Decimal.ofNat code)

end Outcome

namespace Service

variable {service : Service} {world : World} {input : Bytes}

/-- A complete request is a subscription. -/
def Subscribes (service : Service) (world : World) (input : Bytes) : Prop :=
  ∃ request r, Reading.parse service.gate (.start input world.store) = .ok (some request) r ∧
    request.messageType = .subscribe

/-- The answers that an exchange can have: an internal error is that of a subscription. -/
inductive Answers (service : Service) (world : World) (input : Bytes) : Option Response → Prop
  | nothing : ¬ service.Subscribes world input → Answers service world input none
  | accepts {response : Response} : ¬ service.Subscribes world input → response.status = .ok →
    Answers service world input (some response)
  | refuses {failure : Failure} : ¬ service.Subscribes world input →
    failure.report.code ≠ .internalServerError →
    Answers service world input (some (service.refuse failure))
  | subscribes : service.Subscribes world input →
    Answers service world input (some (service.refuse (.rejected .subscribeUnsupported)))

theorem not_subscribes {request? : Option Request} {r : Reading}
    (hp : Reading.parse service.gate (.start input world.store) = .ok request? r)
    (hm : ∀ request, request? = some request → request.messageType ≠ .subscribe) :
    ¬ service.Subscribes world input := by
  rintro ⟨request, r', hparse, hsubscribe⟩
  cases hp.symm.trans hparse
  exact hm request rfl hsubscribe

theorem answers_of_handle
    (hdigests : ∀ algorithm, (service.gate.suite.digest algorithm).isSome)
    (hstore : world.store.Volatile) (hregistry : world.registry.Reachable) :
    service.Answers world input (service.handle world input).response := by
  cases hp : Reading.parse service.gate (.start input world.store) with
  | error failure r =>
    rw [handle_of_unread hp]
    refine .refuses ?_ (Reading.told_of_parse hdigests hstore hp)
    rintro ⟨request, r', hparse, _⟩
    cases hp.symm.trans hparse
  | ok request? r =>
    cases request? with
    | none =>
      rw [handle_of_truncated hp]
      exact .nothing (not_subscribes hp nofun)
    | some request =>
      have hnone : request.attachments.hasPending = false :=
        (Reading.formed_of_parse hp).arrived rfl
      by_cases hm : request.messageType = .subscribe
      · have hi : request.ignored = false := by
          refine Bool.eq_false_iff.2 fun hi => ?_
          cases hm.symm.trans (Reading.unproven_of_parse hp hi).1
        rw [handle_of_refused hp (Request.act_of_subscribe hi hnone hm)]
        exact .subscribes ⟨request, r, hp, hm⟩
      · have hother : ¬ service.Subscribes world input :=
          not_subscribes hp fun _ heq => Option.some.inj heq ▸ hm
        cases ha : request.act { registry := world.registry } with
        | ok response after =>
          rw [handle_of_accepted hp ha]
          refine .accepts hother ?_
          rw [Response.status_addOrigin, Request.answerIgnored_of_act ha,
            Request.status_answerIgnored]
        | error failure after =>
          rw [handle_of_refused hp ha]
          exact .refuses hother (Request.told_of_act hregistry hnone hm ha)

/-- The codes of the refusals that tell the sender what is wrong. -/
def tellingCodes : List Nat := [300, 301, 302, 400, 401, 402]

theorem mem_tellingCodes {code : ErrorCode} (h : code ≠ .internalServerError) :
    code.value ∈ tellingCodes := by
  cases code with
  | internalServerError => exact absurd rfl h
  | _ => decide

/-- The code in a refusal is the one of its failure, and no other. -/
theorem coded_of_refuse {o : Outcome} {failure : Failure} {code : Nat}
    (h : o.response = some (service.refuse failure)) :
    o.Coded code ↔ Decimal.ofNat code = Decimal.ofNat failure.report.code.value := by
  have hcode : (service.refuse failure).headers.get? Response.codeKey =
      some (Decimal.ofNat failure.report.code.value) := by
    rw [refuse, Response.get?_addOrigin (by decide), Response.code_ofReport]
  have hstatus : (service.refuse failure).status = .error := by
    rw [refuse, Response.status_addOrigin, Response.status_ofReport]
  constructor
  · rintro ⟨response, hresponse, _, hget⟩
    cases h.symm.trans hresponse
    exact Option.some.inj (hget.symm.trans hcode)
  · intro heq
    exact ⟨_, h, hstatus, heq ▸ hcode⟩

/-- While the hash functions are at hand and payloads are kept in memory or nowhere, a complete
subscription is answered with an internal error, and nothing else is. -/
theorem handle_internalError_iff
    (hdigests : ∀ algorithm, (service.gate.suite.digest algorithm).isSome)
    (hstore : world.store.Volatile) (hregistry : world.registry.Reachable) :
    ((service.handle world input).Coded 500 ↔ service.Subscribes world input) ∧
    (¬ service.Subscribes world input →
      (service.handle world input).response = none ∨ (service.handle world input).Accepted ∨
        ∃ code ∈ tellingCodes, (service.handle world input).Coded code) := by
  have hanswers : service.Answers world input (service.handle world input).response :=
    answers_of_handle hdigests hstore hregistry
  generalize service.handle world input = o at hanswers ⊢
  generalize hresponse : o.response = response? at hanswers
  cases hanswers with
  | nothing hother =>
    refine ⟨⟨?_, fun h => absurd h hother⟩, fun _ => .inl rfl⟩
    rintro ⟨response, h, _⟩
    cases hresponse.symm.trans h
  | accepts hother hok =>
    refine ⟨⟨?_, fun h => absurd h hother⟩, fun _ => .inr (.inl ⟨_, hresponse, hok⟩)⟩
    rintro ⟨response, h, herror, _⟩
    cases hresponse.symm.trans h
    cases hok.symm.trans herror
  | refuses hother hcode =>
    have hmem := mem_tellingCodes hcode
    refine ⟨⟨fun h => ?_, fun h => absurd h hother⟩,
      fun _ => .inr (.inr ⟨_, hmem, (coded_of_refuse hresponse).2 rfl⟩)⟩
    have hdistinct : ∀ code ∈ tellingCodes, Decimal.ofNat 500 ≠ Decimal.ofNat code := by
      decide +kernel
    exact absurd ((coded_of_refuse hresponse).1 h) (hdistinct _ hmem)
  | subscribes h => exact ⟨⟨fun _ => h, fun _ => (coded_of_refuse hresponse).2 rfl⟩, (absurd h ·)⟩

/-- A subscription. -/
def subscription : Bytes :=
  [ascii "GNTP/1.0 SUBSCRIBE NONE", ascii "Subscriber-ID: S", []].flatMap (· ++ Bytes.crlf)

theorem handle_internalError_of_subscription :
    (Service.mk { suite := .full } {}).Subscribes { store := .memory { limit := 10 } }
      subscription ∧
    ((Service.mk { suite := .full } {}).handle { store := .memory { limit := 10 } }
      subscription).Coded 500 := by
  have hcomplete : Reading.Completes (fun request _ => request.messageType = .subscribe)
      (Reading.parse { suite := .full } (.start subscription (.memory { limit := 10 }))) := by
    decide +kernel
  obtain ⟨request, r, h, hm⟩ := Reading.eq_some_of_completes hcomplete
  have hsubscribes : (Service.mk { suite := .full } {}).Subscribes
      { store := .memory { limit := 10 } } subscription := ⟨request, r, h, of_decide_eq_true hm⟩
  have hvolatile : (World.mk {} (.memory { limit := 10 })).store.Volatile := trivial
  exact ⟨hsubscribes, (handle_internalError_iff (fun _ => rfl) hvolatile .empty).1.2 hsubscribes⟩

end Service

end Gntp
