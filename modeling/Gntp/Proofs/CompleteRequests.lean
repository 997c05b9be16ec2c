import Gntp.Proofs.Acting
import Gntp.Proofs.Course
import Gntp.Proofs.Declarations

/-!
# What a complete request is

`Request.Formed` says what is settled of a request when a phase begins. Every step preserves it and
adds to it what the line that it takes refers to (`step_forms`), so a complete request has headers,
declares as many types as it announces, and has with it every resource that any line of its headers
refers to (`parse_complete`).
-/

namespace Gntp

open Gntp.Action

/-- What is settled of a request when a phase begins. The resources of `named` were referred to. -/
structure Request.Formed (request : Request) (named : Bytes → Prop) (phase : Phase) : Prop where
  begun : phase.isUnderWay ∨ phase = .complete
  headers : phase ≠ .requestHeaders → request.headers.isEmpty = false
  types : ∀ type ∈ request.types, type.name ≠ [] ∧ type.displayName ≠ []
  unregistered : request.messageType ≠ .register → request.types = [] ∧ phase ≠ .typeHeaders
  mentioned : ∀ identifier, named identifier → request.attachments.mentions identifier
  arrived : phase = .complete → request.attachments.hasPending = false

theorem Request.Formed.mono {request : Request} {named named' : Bytes → Prop} {phase : Phase}
    (h : request.Formed named phase) (hnamed : ∀ identifier, named' identifier → named identifier) :
    request.Formed named' phase where
  __ := h
  mentioned identifier hin := h.mentioned identifier (hnamed identifier hin)

/-- A blank line refers to nothing. -/
theorem Request.Formed.blank {request : Request} {named : Bytes → Prop} {phase : Phase}
    (h : request.Formed named phase) :
    request.Formed (fun identifier => named identifier ∨ Headers.Names [] identifier) phase :=
  h.mono fun _ hin => hin.resolve_right Headers.not_names_nil

/-- A type that is declared has a name and is displayed by one. -/
theorem TypeDeclaration.named_of_ofHeaders {h : Headers} {type : TypeDeclaration}
    (ht : ofHeaders h = .ok type) : type.name ≠ [] ∧ type.displayName ≠ [] := by
  unfold ofHeaders at ht
  split at ht
  · cases ht
  · cases ht
  · next name hne _ =>
    cases ht
    have hname : name ≠ [] := hne
    exact ⟨hname, nonEmptyOr_ne_nil hname⟩

namespace Reading

variable {gate : Gate} {suite : Suite} {r r' : Reading} {phase : Phase} {line value : Bytes}
  {named : Bytes → Prop}

/-- Noting a reference mentions it, and forgets nothing. -/
theorem noteReference_leads {E : Failure → Prop} (he : E (.rejected .emptyReference)) :
    (noteReference value).Leads r (fun _ r' => ∃ attachments,
      r' = { r with request := { r.request with attachments } } ∧
      (∀ identifier, r.request.attachments.mentions identifier →
        attachments.mentions identifier) ∧
      ∀ identifier, identifier ≠ [] → value = Headers.referenceLead ++ identifier →
        attachments.mentions identifier) E := by
  refine .check_bind (fun reference hreference => ?_) fun reason hreason => ?_
  · cases reference with
    | none =>
      refine .pure ⟨r.request.attachments, rfl, fun _ h => h, fun identifier hne hvalue => ?_⟩
      cases hreference.symm.trans (Headers.reference?_eq_some.2 ⟨hne, hvalue⟩)
    | some noted =>
      refine .modify ⟨r.request.attachments.refer noted, rfl, fun identifier h => ?_,
        fun identifier hne hvalue => ?_⟩
      · exact Attachments.mentions_refer (.inr h)
      · cases hreference.symm.trans (Headers.reference?_eq_some.2 ⟨hne, hvalue⟩)
        exact Attachments.mentions_refer (.inl rfl)
  · unfold Headers.reference? at hreason
    split at hreason <;> cases hreason
    exact he

/-! ## Steps -/

theorem afterTypes_forms (hr : r.request.Formed named .resourceHeaders) :
    r.request.Formed named r.afterTypes := by
  unfold afterTypes
  split
  · exact hr
  · next hnone =>
    exact {
      begun := .inr rfl
      headers := fun _ => hr.headers nofun
      types := hr.types
      unregistered := fun hm => ⟨(hr.unregistered hm).1, nofun⟩
      mentioned := hr.mentioned
      arrived := fun _ => Bool.eq_false_iff.2 hnone }

/-- A line that was recorded and noted adds to what is mentioned. -/
theorem mentions_of_recorded {key : Bytes} {before after : Attachments}
    (hparsed : Headers.parseLine line = .ok (key, value))
    (hbefore : ∀ identifier, named identifier → before.mentions identifier)
    (hkept : ∀ identifier, before.mentions identifier → after.mentions identifier)
    (hnew : ∀ identifier, identifier ≠ [] → value = Headers.referenceLead ++ identifier →
      after.mentions identifier) (identifier : Bytes)
    (h : named identifier ∨ Headers.Names line identifier) : after.mentions identifier := by
  rcases h with h | ⟨hne, key', hnames⟩
  · exact hkept identifier (hbefore identifier h)
  · cases hparsed.symm.trans hnames
    exact hnew identifier hne rfl

theorem recordRequestHeader_forms (hr : r.request.Formed named .requestHeaders) :
    (recordRequestHeader line).Leads r (fun phase r' => r'.request.Formed
      (fun identifier => named identifier ∨ Headers.Names line identifier) phase)
      fun _ => True := by
  refine .get_bind (.check_bind (fun recorded hrecord => .modify_bind ?_) fun _ _ => trivial)
  obtain ⟨⟨key, value⟩, headers⟩ := recorded
  obtain ⟨hparsed, rfl⟩ := Headers.record_eq_ok.1 hrecord
  refine .bind (noteReference_leads trivial) fun _ r' h => .pure ?_
  obtain ⟨attachments, rfl, hkept, hnew⟩ := h
  exact {
    begun := .inl rfl
    headers := fun hne => absurd rfl hne
    types := hr.types
    unregistered := hr.unregistered
    mentioned := mentions_of_recorded hparsed hr.mentioned hkept hnew
    arrived := nofun }

theorem closeRequestHeaders_forms (hr : r.request.Formed named .requestHeaders)
    (hheaders : r.request.headers.isEmpty = false) :
    closeRequestHeaders.Leads r (fun phase r' => r'.request.Formed named phase) fun _ => True := by
  have hclosed : r.request.Formed named .resourceHeaders := {
    begun := .inl rfl
    headers := fun _ => hheaders
    types := hr.types
    unregistered := fun hm => ⟨(hr.unregistered hm).1, nofun⟩
    mentioned := hr.mentioned
    arrived := nofun }
  refine .get_bind ?_
  split
  · exact .get_bind (.pure (afterTypes_forms hclosed))
  · next hm =>
    refine .get_bind (.check_bind (fun typeCount _ => .modify_bind ?_) fun _ _ => trivial)
    split
    · exact .get_bind (.pure (afterTypes_forms (r := { r with typeCount }) hclosed))
    · exact .modify_bind (.pure { hclosed with
        begun := .inl rfl
        headers := fun _ => hheaders
        unregistered := fun hm' => absurd hm' hm
        arrived := nofun })

theorem requestHeader_forms (hr : r.request.Formed named .requestHeaders) :
    (requestHeader line).Leads r (fun phase r' => r'.request.Formed
      (fun identifier => named identifier ∨ Headers.Names line identifier) phase)
      fun _ => True := by
  unfold requestHeader
  split
  · exact recordRequestHeader_forms hr
  · next hblank =>
    rw [not_not.1 hblank]
    refine .get_bind ?_
    split
    · exact .pure hr.blank
    · next hheaders =>
      exact closeRequestHeaders_forms hr.blank (Bool.eq_false_iff.2 hheaders)

theorem recordTypeHeader_forms (hr : r.request.Formed named .typeHeaders) :
    (recordTypeHeader line).Leads r (fun phase r' => r'.request.Formed
      (fun identifier => named identifier ∨ Headers.Names line identifier) phase)
      fun _ => True := by
  refine .get_bind (.check_bind (fun recorded hrecord => .modify_bind ?_) fun _ _ => trivial)
  obtain ⟨⟨key, value⟩, block⟩ := recorded
  obtain ⟨hparsed, rfl⟩ := Headers.record_eq_ok.1 hrecord
  refine .bind (noteReference_leads trivial) fun _ r' h => .pure ?_
  obtain ⟨attachments, rfl, hkept, hnew⟩ := h
  exact {
    begun := .inl rfl
    headers := hr.headers
    types := hr.types
    unregistered := hr.unregistered
    mentioned := mentions_of_recorded hparsed hr.mentioned hkept hnew
    arrived := nofun }

theorem closeType_forms (hr : r.request.Formed named .typeHeaders) :
    closeType.Leads r (fun phase r' => r'.request.Formed named phase) fun _ => True := by
  refine .get_bind (.check_bind (fun type htype => .modify_bind (.get_bind (.pure ?_)))
    fun _ _ => trivial)
  have hadded : ({ r.request with types := r.request.types ++ [type] } : Request).Formed named
      .typeHeaders := { hr with
    types := by
      intro declared hmem
      rcases List.mem_append.1 hmem with hmem | hmem
      · exact hr.types declared hmem
      · rw [List.mem_singleton.1 hmem]
        exact TypeDeclaration.named_of_ofHeaders htype
    unregistered := fun hm => absurd rfl (hr.unregistered hm).2 }
  split
  · exact hadded
  · exact afterTypes_forms { hadded with
      begun := .inl rfl
      headers := fun _ => hr.headers nofun
      unregistered := fun hm => absurd rfl (hr.unregistered hm).2
      arrived := nofun }

theorem typeHeader_forms (hr : r.request.Formed named .typeHeaders) :
    (typeHeader line).Leads r (fun phase r' => r'.request.Formed
      (fun identifier => named identifier ∨ Headers.Names line identifier) phase)
      fun _ => True := by
  unfold typeHeader
  split
  · exact recordTypeHeader_forms hr
  · next hblank =>
    rw [not_not.1 hblank]
    exact closeType_forms hr.blank

theorem resourceHeader_forms (hr : r.request.Formed named .resourceHeaders) :
    (resourceHeader line).Leads r (fun phase r' => r'.request.Formed named phase)
      fun _ => True := by
  have hdata : r.request.Formed named .resourceData := { hr with
    begun := .inl rfl
    headers := fun _ => hr.headers nofun
    unregistered := fun hm => ⟨(hr.unregistered hm).1, nofun⟩
    arrived := nofun }
  unfold resourceHeader
  split
  · exact .get_bind (.check_bind (fun _ _ => .modify_bind (.pure hr)) fun _ _ => trivial)
  · refine .get_bind (.pure ?_)
    split
    · exact hr
    · exact hdata

/-- Receiving a payload has nothing to do with the request. -/
theorem receive_keeps_request : Keeps request (receive suite) := by
  intro r
  unfold final receive
  cases Payload.receive suite r.sealing r.block r.receiving <;> rfl

theorem attach_forms {resource : Resource} (hr : r.request.Formed named .resourceHeaders) :
    (attach resource).Leads r (fun phase r' => r'.request.Formed named phase) fun _ => True := by
  refine .get_bind (.check_bind (fun attachments hattach =>
    .modify_bind (.get_bind (.pure ?_))) fun _ _ => trivial)
  refine afterTypes_forms { hr with
    mentioned := fun identifier h =>
      Attachments.mentions_attach hattach (hr.mentioned identifier h)
    arrived := nofun }

theorem readResourceData_forms (hr : r.request.Formed named .resourceData) :
    (readResourceData suite).Leads r (fun phase r' => r'.request.Formed named phase)
      fun _ => True := by
  refine .get_bind (.check_bind (fun _ _ => ?_) fun _ _ => trivial)
  refine .bind (Q := fun _ r' => r'.request = r.request)
    (.intro (fun _ _ h => receive_keeps_request.of_ok h) fun _ _ _ => trivial) fun _ r' h => ?_
  have hreceived : r'.request.Formed named .resourceHeaders := by
    rw [h]
    exact { hr with
      begun := .inl rfl
      headers := fun _ => hr.headers nofun
      unregistered := fun hm => ⟨(hr.unregistered hm).1, nofun⟩
      arrived := nofun }
  exact attach_forms hreceived

/-! ## The run -/

/-- A step that takes a header line adds what that line refers to. -/
theorem line_forms {f : Bytes → Action Reading Phase} {p : Phase}
    (hr : r.request.Formed named p)
    (hf : ∀ (r' : Reading) (line : Bytes), r'.request.Formed named p →
      (f line).Leads r' (fun phase r' => r'.request.Formed
        (fun identifier => named identifier ∨ Headers.Names line identifier) phase)
        fun _ => True) :
    (nextLine >>= f).Leads r (fun phase r' => r'.request.Formed (fun identifier =>
      named identifier ∨ ∃ line, r.Offers line ∧ Headers.Names line identifier) phase)
      fun _ => True := by
  refine .bind (nextLine_leads trivial fun _ => trivial) fun line r₁ ⟨htake, h₁⟩ => ?_
  have hkept : r₁.request.Formed named p := by
    rw [h₁]
    exact hr
  refine (hf r₁ line hkept).mono fun phase r' h => h.mono fun identifier hin => ?_
  refine hin.imp_right fun ⟨offered, ⟨_, _, hoffered⟩, hnames⟩ => ?_
  cases htake.symm.trans hoffered
  exact hnames

/-- A step adds to what is mentioned what the header line that it takes refers to. -/
theorem step_forms (hr : r.request.Formed named r.phase) (hp : r.phase.isUnderWay) :
    (step gate).Leads r (fun phase r' => r'.request.Formed (fun identifier =>
      named identifier ∨ ∃ line, r.Offers line ∧ Headers.Names line identifier) phase)
      fun _ => True := by
  -- The lines of a resource are not offered as headers, and a payload is no line.
  have hnothing (h : ¬ (r.phase = .requestHeaders ∨ r.phase = .typeHeaders)) {phase : Phase}
      {r' : Reading} (hf : r'.request.Formed named phase) : r'.request.Formed (fun identifier =>
        named identifier ∨ ∃ line, r.Offers line ∧ Headers.Names line identifier) phase :=
    hf.mono fun _ hin => hin.resolve_right fun ⟨_, hoffers, _⟩ => h hoffers.1
  unfold Leads
  rw [step_eq]
  cases hphase : r.phase with
  | requestLine | complete | answered =>
    rw [hphase] at hp
    cases hp
  | requestHeaders =>
    rw [hphase] at hr
    exact line_forms hr fun _ _ => requestHeader_forms
  | typeHeaders =>
    rw [hphase] at hr
    exact line_forms hr fun _ _ => typeHeader_forms
  | resourceHeaders =>
    rw [hphase] at hr hnothing
    refine Leads.mono (.bind (nextLine_leads trivial fun _ => trivial)
      fun line r₁ ⟨_, h₁⟩ => resourceHeader_forms (by rw [h₁]; exact hr)) fun phase r' h => ?_
    exact hnothing (by decide) h
  | resourceData =>
    rw [hphase] at hr hnothing
    refine Leads.mono (readResourceData_forms hr) fun phase r' h => ?_
    exact hnothing (by decide) h

theorem advance_forms (hr : r.request.Formed named r.phase) (hp : r.phase.isUnderWay) :
    (advance gate).Leads r (fun _ r' => r'.request.Formed (fun identifier =>
      named identifier ∨ ∃ line, r.Offers line ∧ Headers.Names line identifier) r'.phase)
      fun _ => True :=
  .bind (step_forms hr hp) fun _ _ h => .modify h

/-- What is settled under way stays settled to the end. -/
theorem proceed_forms (hr : r.request.Formed named r.phase) (h : proceed gate r = .ok () r') :
    r'.request.Formed named .complete := by
  have hend : r'.request.Formed named r'.phase :=
    proceed_preserves (P := fun r => r.request.Formed named r.phase)
      (fun _ _ hr hp ha => ((advance_forms hr hp).of_ok ha).mono fun _ => .inl) hr h
  have hover : r'.phase = .complete := hend.begun.resolve_left (over_of_proceed h)
  rw [← hover]
  exact hend

/-- Where the request line is behind, steps are taken under way only. -/
theorem isUnderWay_of_advance (hr : r.request.Formed named r.phase)
    (h : advance gate r = .ok () r') : r.phase.isUnderWay := by
  rcases begun_of_advance h with hline | hp
  · have hbegun := hr.begun
    rw [hline] at hbegun
    rcases hbegun with hbegun | hbegun <;> cases hbegun
  · exact hp

/-- On the way nothing is left unsettled, and the end stays the same. -/
theorem proceed_of_reaches (hr : r.request.Formed named r.phase)
    (hreach : Reaches gate r r₁) :
    r₁.request.Formed named r₁.phase ∧ proceed gate r₁ = proceed gate r := by
  induction hreach with
  | refl => exact ⟨hr, rfl⟩
  | @tail r₂ r₃ _ h ih =>
    obtain ⟨hr₂, hsame⟩ := ih
    have hp : r₂.phase.isUnderWay := isUnderWay_of_advance hr₂ h
    refine ⟨((advance_forms hr₂ hp).of_ok h).mono fun _ => .inl, ?_⟩
    rw [← proceed_of_advance hp h, hsame]

/-! ## The whole reading -/

/-- A count of types is a text of one to nine digits, and counts what it says. -/
theorem parseTypeCount_eq_ok {text : Bytes} {count : Nat} :
    parseTypeCount text = .ok count ↔ text ≠ [] ∧ text.length ≤ 9 ∧
      (∀ b ∈ text, Decimal.isDigit b = true) ∧ Decimal.value text = count := by
  have hnumeral : Decimal.isNumeral text = true ↔
      text ≠ [] ∧ ∀ b ∈ text, Decimal.isDigit b = true := by
    simp [Decimal.isNumeral]
  unfold parseTypeCount
  split
  · next h =>
    obtain ⟨hne, hdigits⟩ := hnumeral.1 h.1
    constructor
    · intro hcount
      cases hcount
      exact ⟨hne, Nat.le_of_lt_succ h.2, hdigits, rfl⟩
    · rintro ⟨_, _, _, rfl⟩
      rfl
  · next h => exact ⟨nofun, fun ⟨hne, hshort, hdigits, _⟩ =>
      absurd ⟨hnumeral.2 ⟨hne, hdigits⟩, Nat.lt_succ_of_le hshort⟩ h⟩

end Reading

/-- What a complete request has with it. -/
structure Request.Whole (request : Request) : Prop where
  headers : request.headers.entries ≠ []
  /-- A registration declares as many types as it announces, in one to nine digits. -/
  announced : request.messageType = .register → ∃ count,
    request.headers.get? Key.notificationsCount = some count ∧
      count ≠ [] ∧ count.length ≤ 9 ∧ (∀ b ∈ count, Decimal.isDigit b = true) ∧
      Decimal.value count = request.types.length
  types : ∀ type ∈ request.types, type.name ≠ [] ∧ type.displayName ≠ []
  /-- Nothing but a registration declares types. -/
  unregistered : request.messageType ≠ .register → request.types = []
  arrived : request.attachments.pendingCount = 0

namespace Reading

variable {gate : Gate} {input : Bytes} {s : Store} {request : Request} {r : Reading}

/-- Behind the request line nothing is referred to yet. -/
theorem formed_of_readRequestLine {phase : Phase}
    (h : readRequestLine gate (start input s) = .ok phase r) :
    r.request.Formed (fun _ => False) .requestHeaders := by
  obtain ⟨_, line, access, _, hr⟩ := granted_of_readRequestLine rfl h
  rw [hr]
  exact {
    begun := .inl rfl
    headers := fun hne => absurd rfl hne
    types := nofun
    unregistered := fun _ => ⟨rfl, nofun⟩
    mentioned := nofun
    arrived := nofun }

/-- The request line is behind every reading that takes a header line. -/
theorem reaches_of_offers {phase : Phase} {r₁ : Reading} {line : Bytes}
    (h : readRequestLine gate (start input s) = .ok phase r)
    (hreach : Reaches gate (start input s) r₁) (hoffers : r₁.Offers line) :
    Reaches gate { r with phase } r₁ := by
  rcases Relation.ReflTransGen.cases_head_iff.1 hreach with rfl | ⟨r', hadvance, hreach⟩
  · cases hoffers.isUnderWay
  · cases (advance_of_readRequestLine rfl h).symm.trans hadvance
    exact hreach

/-- A complete request is settled, and so is what any header line on the way refers to. -/
theorem formed_of_parse (h : parse gate (start input s) = .ok (some request) r) :
    request.Formed (fun identifier => ∃ line, HeaderRead gate (start input s) line ∧
      Headers.Names line identifier) .complete := by
  obtain ⟨phase, r₁, hline, hloop, rfl⟩ := (finish_eq_ok rfl).1 (parse_eq_some.1 h)
  obtain ⟨rfl, _⟩ := granted_of_readRequestLine rfl hline
  have hbegin : r₁.request.Formed (fun _ => False) .requestHeaders :=
    formed_of_readRequestLine hline
  have hend : r.request.Formed (fun _ => False) .complete := proceed_forms hbegin hloop
  refine { hend with mentioned := ?_ }
  rintro identifier ⟨offered, ⟨r₂, hreach, hoffers⟩, hnames⟩
  obtain ⟨hformed, hsame⟩ := proceed_of_reaches hbegin (reaches_of_offers hline hreach hoffers)
  cases ha : advance gate r₂ with
  | error failure r₃ =>
    rw [← hsame, proceed_of_failure hoffers.isUnderWay ha] at hloop
    cases hloop
  | ok _ r₃ =>
    rw [← hsame, proceed_of_advance hoffers.isUnderWay ha] at hloop
    have hstep := (advance_forms hformed hoffers.isUnderWay).of_ok ha
    exact (proceed_forms hstep hloop).mentioned identifier (.inr ⟨offered, hoffers, hnames⟩)

theorem whole_of_parse (h : parse gate (start input s) = .ok (some request) r) :
    request.Whole := by
  have hformed := formed_of_parse h
  refine {
    headers := fun hnil => ?_
    announced := fun hm => ?_
    types := hformed.types
    unregistered := fun hm => (hformed.unregistered hm).1
    arrived := ?_ }
  · have hsome := hformed.headers nofun
    rw [Headers.isEmpty, hnil] at hsome
    cases hsome
  · obtain ⟨hne, hshort, hdigits, hvalue⟩ := parseTypeCount_eq_ok.1 (announced_of_parse h hm)
    cases hcount : request.headers.get? Key.notificationsCount with
    | none =>
      rw [Headers.getD, hcount] at hne
      exact absurd rfl hne
    | some count =>
      rw [Headers.getD, hcount] at hne hshort hdigits hvalue
      exact ⟨count, rfl, hne, hshort, hdigits, hvalue⟩
  · have hnone := hformed.arrived rfl
    rw [Attachments.hasPending, decide_eq_false_iff_not] at hnone
    exact Nat.eq_zero_of_not_pos hnone

/-- Only a notification in the clear is ignored, with a key hash that no password proves. -/
theorem unproven_of_parse (h : parse gate (start input s) = .ok (some request) r)
    (hi : request.ignored = true) : request.messageType = .notify ∧ gate.policy = .ignoreNotify ∧
      ∃ line keyHash, Opens input line ∧ line.messageType = .notify ∧ line.cipher = .none ∧
        line.keyHash = some keyHash ∧
        ∀ password ∈ gate.keyring.passwords, ¬ keyHash.ProvenBy gate.suite password := by
  obtain ⟨line, access, hg, hm, hignored, _⟩ := granted_of_parse h
  have hdecided := hg.decided
  rw [hignored.1 hi] at hdecided
  obtain ⟨hpolicy, hnotify, hclear⟩ := Access.notify_of_decide hdecided
  obtain ⟨keyHash, hsent, hunproven⟩ := Access.unproven_of_decide hdecided
  exact ⟨hm.trans hnotify, hpolicy, line, keyHash, hg.opens, hnotify, hclear, hsent, hunproven⟩

/-- A complete request is whole, with every resource that a line of its headers refers to; it is
ignored for one reason only, and never refused for a resource that has not come. -/
theorem parse_complete (h : parse gate (start input s) = .ok (some request) r) :
    request.Whole ∧
    (∀ line identifier, HeaderRead gate (start input s) line → Headers.Names line identifier →
      ∃ resource, request.attachments.find? identifier = some resource) ∧
    (request.ignored = true → request.messageType = .notify ∧ gate.policy = .ignoreNotify ∧
      ∃ line keyHash, Opens input line ∧ line.messageType = .notify ∧ line.cipher = .none ∧
        line.keyHash = some keyHash ∧
        ∀ password ∈ gate.keyring.passwords, ¬ keyHash.ProvenBy gate.suite password) ∧
    ∀ before count after,
      request.act before ≠ .error (.rejected (.missingResources count)) after := by
  have hformed := formed_of_parse h
  have hnone : request.attachments.hasPending = false := hformed.arrived rfl
  refine ⟨whole_of_parse h, ?_, unproven_of_parse h, ?_⟩
  · intro line identifier hread hnames
    exact Attachments.find?_of_mentions hnone (hformed.mentioned identifier ⟨line, hread, hnames⟩)
  · intro before count after hact
    cases (Request.act_refuses hnone).of_error hact

/-- A registration of one type and an icon that comes with it. -/
def furnished : Bytes :=
  [ascii "GNTP/1.0 REGISTER NONE", ascii "Application-Name: A",
    ascii "Application-Icon: x-growl-resource://i", ascii "Notifications-Count: 1", [],
    ascii "Notification-Name: T", [],
    ascii "Identifier: i", ascii "Length: 1", [], ascii "x", []].flatMap (· ++ Bytes.crlf)

theorem parse_complete_furnished :
    ∃ request r, parse { suite := .full } (start furnished .discard) = .ok (some request) r ∧
      request.types.length = 1 ∧ request.Whole := by
  have hcomplete : Completes (fun request _ => request.types.length = 1)
      (parse { suite := .full } (start furnished .discard)) := by
    decide +kernel
  obtain ⟨request, r, h, htypes⟩ := eq_some_of_completes hcomplete
  exact ⟨request, r, h, of_decide_eq_true htypes, (parse_complete h).1⟩

end Reading

end Gntp
