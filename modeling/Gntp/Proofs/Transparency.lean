import Gntp.Proofs.Clock
import Gntp.Proofs.CompleteRequests
import Gntp.Proofs.Framing

/-!
# Sealed headers are read like headers in the clear

An `Envelope` is a block of headers that can be sent in the clear and sealed. Read either way, and
whatever follows, it comes to the same request or the same failure, or ends too early, as long as no
header refers to a resource (`parse_envelope`): payloads are sealed one by one, so what follows
would mean something else.

The two readings are compared step by step. They are `Unsealed` from one another: the lines that are
queued in the one stand on the input of the other, before what is unread in both.
-/

namespace Gntp

open Gntp.Action

namespace Action

/-- Two actions end in the same result or failure. -/
inductive Alike {σ α : Type} (R : σ → σ → Prop) :
    EStateM.Result Failure σ α → EStateM.Result Failure σ α → Prop
  | ok {a : α} {s t : σ} : R s t → Alike R (.ok a s) (.ok a t)
  | error {failure : Failure} {s t : σ} : Alike R (.error failure s) (.error failure t)

theorem Alike.bind {σ α β : Type} {R : σ → σ → Prop} {x y : Action σ α} {f g : α → Action σ β}
    {s t : σ} (hx : Alike R (x s) (y t)) (hf : ∀ a s t, R s t → Alike R (f a s) (g a t)) :
    Alike R ((x >>= f) s) ((y >>= g) t) := by
  simp only [Bind.bind, EStateM.bind]
  generalize x s = outcome at hx
  generalize y t = outcome' at hx
  cases hx with
  | ok h => exact hf _ _ _ h
  | error => exact .error

end Action

/-! ## The input -/

namespace Inbound

/-- The lines that are queued in the second input stand in front of what is unread in both. -/
structure Unsealed (i j : Inbound) : Prop where
  queued : i.queued = []
  unread : i.unread = wire j.queued ++ j.unread
  sendable : ∀ line ∈ j.queued, Sendable line

theorem takeLine_alike {i j : Inbound} (h : Unsealed i j) :
    Alike Unsealed (takeLine i) (takeLine j) := by
  obtain ⟨unread, queued, consumed⟩ := j
  cases queued with
  | nil =>
    -- The same is unread in both, and nothing is queued.
    have hunread : i.unread = unread := h.unread
    by_cases hne : unread = []
    · have hi : takeLine i = .ok none i := by
        obtain ⟨unread', queued', consumed'⟩ := i
        cases h.queued
        cases hunread.trans hne
        rfl
      rw [hi, hne]
      exact .ok ⟨h.queued, hunread.trans hne, nofun⟩
    · rw [takeLine_of_ne_nil h.queued (hunread ▸ hne), takeLine_of_ne_nil rfl hne, hunread]
      split
      · exact .error
      · exact .ok ⟨h.queued, rfl, nofun⟩
  | cons line others =>
    have hline : Sendable line := h.sendable line List.mem_cons_self
    have hunread : i.unread = line ++ Bytes.crlf ++ (wire others ++ unread) := by
      rw [h.unread, wire, List.flatMap_cons, List.append_assoc]
      rfl
    rw [takeLine_of_sendable h.queued hline hunread]
    exact .ok ⟨h.queued, rfl, fun other hmem => h.sendable other (List.mem_cons_of_mem line hmem)⟩

end Inbound

/-! ## The steps -/

/-- A phase before any resource. -/
def Phase.Resourceless : Phase → Prop
  | resourceHeaders | resourceData => False
  | _ => True

namespace Reading

variable {gate gate' : Gate} {r q r' : Reading} {line value : Bytes}

/-- The second reading has collected the same headers from a sealed block. -/
structure Unsealed (r q : Reading) : Prop where
  headers : q = amid q.surroundings r
  phase : q.phase = r.phase
  ignored : q.request.ignored = r.request.ignored
  inbound : r.inbound.Unsealed q.inbound

theorem onInbound_alike {α : Type} {action : Action Inbound α} (h : Unsealed r q)
    (ha : Alike Inbound.Unsealed (action r.inbound) (action q.inbound)) :
    Alike Unsealed (onInbound action r) (onInbound action q) := by
  unfold onInbound
  generalize action r.inbound = x at ha
  generalize action q.inbound = y at ha
  cases ha with
  | @ok a i j hij =>
    have hheaders : { q with inbound := j } = { amid q.surroundings r with inbound := j } :=
      congrArg (fun q : Reading => { q with inbound := j }) h.headers
    exact .ok ⟨hheaders, h.phase, h.ignored, hij⟩
  | error => exact .error

theorem nextLine_alike (h : Unsealed r q) : Alike Unsealed (nextLine r) (nextLine q) := by
  refine .bind (onInbound_alike h (Inbound.takeLine_alike h.inbound)) fun line? r q h => ?_
  cases line? with
  | none =>
    change Alike Unsealed (.error (.truncated (.during r.phase)) r)
      (.error (.truncated (.during q.phase)) q)
    rw [h.phase]
    exact .error
  | some line => exact .ok h

/-- An action on headers does the same. -/
theorem Secluded.alike {α : Type} {x : Action Reading α} (hx : Secluded x) (h : Unsealed r q) :
    Alike Unsealed (x r) (x q) := by
  have hkeeps := hx.keeps r
  have hq : x q = seen (amid q.surroundings) (x r) := by
    rw [← hx q.surroundings r, ← h.headers]
  rw [hq]
  cases hr : x r with
  | error failure r' => exact .error
  | ok a r' =>
    rw [final_of_ok hr] at hkeeps
    have hphase : r'.phase = r.phase := congrArg Surroundings.phase hkeeps
    have hignored : r'.request.ignored = r.request.ignored := congrArg Surroundings.ignored hkeeps
    have hinbound : r'.inbound = r.inbound := congrArg Surroundings.inbound hkeeps
    exact .ok ⟨rfl, h.phase.trans hphase.symm, h.ignored.trans hignored.symm,
      hinbound ▸ h.inbound⟩

/-- A step before any resource does the same. -/
theorem advance_alike (h : Unsealed r q) (hp : r.phase.isUnderWay)
    (hresourceless : r.phase.Resourceless) :
    Alike Unsealed (advance gate r) (advance gate' q) := by
  have hstep : Alike Unsealed (step gate r) (step gate' q) := by
    rw [step_eq, step_eq, h.phase]
    cases hphase : r.phase with
    | requestLine | complete | answered =>
      rw [hphase] at hp
      cases hp
    | requestHeaders =>
      exact .bind (nextLine_alike h) fun line _ _ => (requestHeader_secluded line).alike
    | typeHeaders =>
      exact .bind (nextLine_alike h) fun line _ _ => (typeHeader_secluded line).alike
    | resourceHeaders | resourceData =>
      rw [hphase] at hresourceless
      cases hresourceless
  refine .bind hstep fun phase r q h => ?_
  have hheaders : { q with phase } = { amid q.surroundings r with phase } :=
    congrArg (fun q : Reading => { q with phase }) h.headers
  exact .ok ⟨hheaders, rfl, h.ignored, h.inbound⟩

/-! ## Without resources -/

/-- Nothing was referred to, so no resource is waited for. -/
structure Bare (r : Reading) : Prop where
  attachments : r.request.attachments.entries = []
  phase : r.phase.Resourceless

/-- No header that is read from here on refers to a resource. -/
def Quiet (gate : Gate) (r : Reading) : Prop :=
  ∀ line identifier, HeaderRead gate r line → ¬ Headers.Names line identifier

theorem Quiet.advance (hquiet : Quiet gate r) (h : advance gate r = .ok () r') :
    Quiet gate r' := fun line identifier ⟨r₁, hreach, hoffers⟩ =>
  hquiet line identifier ⟨r₁, hreach.head h, hoffers⟩

theorem resourceless_afterTypes (hr : r.request.attachments.entries = []) :
    r.afterTypes.Resourceless := by
  unfold afterTypes Attachments.hasPending Attachments.pendingCount
  rw [hr]
  trivial

theorem noteReference_quiet
    (hvalue : ∀ identifier, identifier ≠ [] → value ≠ Headers.referenceLead ++ identifier) :
    (noteReference value).Leads r (fun _ r' => r' = r) fun _ => True := by
  refine .check_bind (fun reference hreference => ?_) fun _ _ => trivial
  cases reference with
  | none => exact .pure rfl
  | some identifier =>
    obtain ⟨hne, heq⟩ := Headers.reference?_eq_some.1 hreference
    exact absurd heq (hvalue identifier hne)

/-- A line that names nothing has a value that refers to nothing. -/
theorem value_ne_of_quiet {key : Bytes} (hline : ∀ identifier, ¬ Headers.Names line identifier)
    (hparsed : Headers.parseLine line = .ok (key, value)) (identifier : Bytes)
    (hne : identifier ≠ []) : value ≠ Headers.referenceLead ++ identifier := by
  rintro rfl
  exact hline identifier ⟨hne, key, hparsed⟩

theorem requestHeader_bare (hr : r.request.attachments.entries = [])
    (hline : ∀ identifier, ¬ Headers.Names line identifier) :
    (requestHeader line).Leads r (fun phase r' =>
      r'.request.attachments.entries = [] ∧ phase.Resourceless) fun _ => True := by
  unfold requestHeader
  split
  · refine .get_bind (.check_bind (fun recorded hrecord => .modify_bind ?_) fun _ _ => trivial)
    obtain ⟨⟨key, value⟩, headers⟩ := recorded
    have hvalue := value_ne_of_quiet hline (Headers.record_eq_ok.1 hrecord).1
    refine .bind (noteReference_quiet hvalue) fun _ r' h => .pure ⟨?_, trivial⟩
    rw [h]
    exact hr
  · refine .get_bind ?_
    split
    · exact .pure ⟨hr, trivial⟩
    · refine .get_bind ?_
      split
      · exact .get_bind (.pure ⟨hr, resourceless_afterTypes hr⟩)
      · refine .get_bind (.check_bind (fun _ _ => .modify_bind ?_) fun _ _ => trivial)
        split
        · exact .get_bind (.pure ⟨hr, resourceless_afterTypes hr⟩)
        · exact .modify_bind (.pure ⟨hr, trivial⟩)

theorem typeHeader_bare (hr : r.request.attachments.entries = [])
    (hline : ∀ identifier, ¬ Headers.Names line identifier) :
    (typeHeader line).Leads r (fun phase r' =>
      r'.request.attachments.entries = [] ∧ phase.Resourceless) fun _ => True := by
  unfold typeHeader
  split
  · refine .get_bind (.check_bind (fun recorded hrecord => .modify_bind ?_) fun _ _ => trivial)
    obtain ⟨⟨key, value⟩, block⟩ := recorded
    have hvalue := value_ne_of_quiet hline (Headers.record_eq_ok.1 hrecord).1
    refine .bind (noteReference_quiet hvalue) fun _ r' h => .pure ⟨?_, trivial⟩
    rw [h]
    exact hr
  · refine .get_bind (.check_bind (fun _ _ => .modify_bind (.get_bind (.pure ⟨hr, ?_⟩)))
      fun _ _ => trivial)
    split
    · trivial
    · exact resourceless_afterTypes hr

/-- Where no header refers to a resource, none is waited for. -/
theorem advance_bare (hr : Bare r) (hquiet : Quiet gate r) (hp : r.phase.isUnderWay) :
    (advance gate).Leads r (fun _ => Bare) fun _ => True := by
  have hline {f : Bytes → Action Reading Phase}
      (hphase : r.phase = .requestHeaders ∨ r.phase = .typeHeaders)
      (hf : ∀ (r : Reading) (line : Bytes), r.request.attachments.entries = [] →
        (∀ identifier, ¬ Headers.Names line identifier) → (f line).Leads r (fun phase r' =>
          r'.request.attachments.entries = [] ∧ phase.Resourceless) fun _ => True) :
      (nextLine >>= f).Leads r (fun phase r' =>
        r'.request.attachments.entries = [] ∧ phase.Resourceless) fun _ => True := by
    refine .bind (nextLine_leads trivial fun _ => trivial) fun line r₁ ⟨htake, h₁⟩ => ?_
    refine hf r₁ line (by rw [h₁]; exact hr.attachments) fun identifier => ?_
    exact hquiet line identifier ⟨r, .refl, hphase, _, htake⟩
  have hstep : (step gate).Leads r (fun phase r' =>
      r'.request.attachments.entries = [] ∧ phase.Resourceless) fun _ => True := by
    have hresourceless := hr.phase
    unfold Leads
    rw [step_eq]
    cases hphase : r.phase with
    | requestLine | complete | answered =>
      rw [hphase] at hp
      cases hp
    | requestHeaders => exact hline (.inl hphase) fun _ _ => requestHeader_bare
    | typeHeaders => exact hline (.inr hphase) fun _ _ => typeHeader_bare
    | resourceHeaders | resourceData =>
      rw [hphase] at hresourceless
      cases hresourceless
  exact .bind hstep fun _ _ h => .modify ⟨h.1, h.2⟩

/-- While no header refers to a resource, both readings do the same to the end. -/
theorem proceed_alike (hr : Bare r) (hquiet : Quiet gate r) (h : Unsealed r q) :
    Alike Unsealed (proceed gate r) (proceed gate' q) := by
  have hunderWay {r q : Reading} (h : Unsealed r q) (hp : r.phase.isUnderWay) :
      q.phase.isUnderWay := h.phase ▸ hp
  induction r using proceed.induct gate generalizing q with
  | case1 r hp _ r₁ h₁ ih =>
    have halike : Alike Unsealed (advance gate r) (advance gate' q) := advance_alike h hp hr.phase
    rw [h₁] at halike
    rw [proceed_of_advance hp h₁]
    generalize hq : advance gate' q = y at halike
    cases halike with
    | ok h' =>
      rw [proceed_of_advance (hunderWay h hp) hq]
      exact ih ((advance_bare hr hquiet hp).of_ok h₁) (hquiet.advance h₁) h'
  | case2 r hp failure r₁ h₁ =>
    have halike : Alike Unsealed (advance gate r) (advance gate' q) := advance_alike h hp hr.phase
    rw [h₁] at halike
    rw [proceed_of_failure hp h₁]
    generalize hq : advance gate' q = y at halike
    cases halike with
    | error =>
      rw [proceed_of_failure (hunderWay h hp) hq]
      exact .error
  | case3 r hp =>
    have hover : ¬ q.phase.isUnderWay := h.phase ▸ hp
    rw [proceed_of_over hp, proceed_of_over hover]
    exact .ok h

end Reading

/-! ## The request line -/

open Inbound in
/-- Headers that can be sent in the clear and sealed, by a sender who knows a password. -/
structure Envelope (suite : Suite) (keyring : Keyring) where
  messageType : MessageType
  /-- The field of the request line with the key hash. -/
  field : Bytes
  keyHash : KeyHash
  parsed : RequestLine.parseKeyHash field = .ok keyHash
  proven : ∃ password ∈ keyring.passwords, keyHash.ProvenBy suite password
  sealing : Sealing
  enabled : sealing.enabled = true
  /-- The hash that was sent is long enough for the key. -/
  key : ∃ hash, Hex.decode keyHash.hash = .ok hash ∧ sealing.key <+: hash
  /-- The initialization vector as it is sent. -/
  ivHex : Bytes
  iv : Hex.decode ivHex = .ok sealing.iv
  lines : List Bytes
  sendable : ∀ line ∈ lines, Sendable line
  unclosed : lines.getLast? ≠ some []
  /-- The lines, sealed. -/
  block : Bytes
  encrypted : sealing.encrypt suite (wire lines) = .ok block
  decrypted : sealing.decrypt suite block = .ok (wire lines)
  /-- The first blank line in the sealed block and the one behind it is the one behind it. -/
  first : ∀ before after, block ++ blankLine = before ++ blankLine ++ after → after = []
  block_short : block.length ≤ maxSealedBlock - 3
  clear_short : (RequestLine.text messageType Cipher.none.name field).length < maxLine
  sealed_short :
    (RequestLine.text messageType (RequestLine.cipherText sealing.cipher ivHex) field).length <
      maxLine

namespace Envelope

open Inbound

variable {suite : Suite} {keyring : Keyring} (e : Envelope suite keyring) (rest : Bytes)

/-- The request line in the clear. -/
def clearLine : Bytes := RequestLine.text e.messageType Cipher.none.name e.field

/-- The request line with the cipher. -/
def sealedLine : Bytes :=
  RequestLine.text e.messageType (RequestLine.cipherText e.sealing.cipher e.ivHex) e.field

/-- The headers in the clear. -/
def clear : Bytes := e.clearLine ++ Bytes.crlf ++ wire e.lines ++ Bytes.crlf ++ rest

/-- The headers in a sealed block. -/
def sealed : Bytes := e.sealedLine ++ Bytes.crlf ++ e.block ++ blankLine ++ rest

end Envelope

namespace Sealing

theorem make_eq {sealing : Sealing} {key : Bytes} (he : sealing.enabled = true)
    (hkey : sealing.key <+: key) : make sealing.cipher key sealing.iv = .ok sealing := by
  obtain ⟨cipher, front, iv, hlength, hiv⟩ := sealing
  have hcipher : cipher ≠ .none := of_decide_eq_true he
  have hlong : ¬ key.length < cipher.keySize := by
    rw [← hlength]
    exact Nat.not_lt.2 hkey.length_le
  have hfront : key.take cipher.keySize = front := by
    rw [← hlength]
    exact (List.prefix_iff_eq_take.1 hkey).symm
  unfold make
  rw [if_neg hcipher, dif_neg hlong, dif_pos hiv]
  simp only [hfront]

end Sealing

theorem Access.sealing_eq {line : RequestLine} {sealing : Sealing} {key : Bytes}
    (he : sealing.enabled = true) (hkey : sealing.key <+: key)
    (hcipher : line.cipher = sealing.cipher) (hiv : line.iv = sealing.iv) :
    Access.sealing line key = .ok sealing := by
  have henabled : sealing.cipher ≠ .none := of_decide_eq_true he
  have hne : key ≠ [] := by
    rintro rfl
    have hsize := sealing.key_length
    rw [List.prefix_nil.1 hkey] at hsize
    cases hc : sealing.cipher with
    | none => exact henabled hc
    | aes | des | tripleDes =>
      rw [hc] at hsize
      cases hsize
  unfold Access.sealing
  rw [hcipher, hiv, if_neg henabled, if_neg hne, Sealing.make_eq he hkey]
  rfl

theorem Access.enabled_of_sealing {line : RequestLine} {key : Bytes} {sealing : Sealing}
    (hcipher : line.cipher ≠ .none) (h : Access.sealing line key = .ok sealing) :
    sealing.enabled = true := by
  unfold Access.sealing at h
  rw [if_neg hcipher] at h
  split at h
  · cases h
  · unfold Sealing.make at h
    rw [if_neg hcipher] at h
    split at h
    · cases h
    · split at h
      · cases h
        exact decide_eq_true hcipher
      · cases h

namespace Reading

variable {gate : Gate} {line : RequestLine} {key text rest : Bytes} {s : Store}

/-- A reading that is past the request line, by a sender who knows a password. -/
def begun (messageType : MessageType) (now : Int) (store : Store) (sealing : Sealing)
    (inbound : Inbound) : Reading where
  inbound
  store
  request := { messageType, receivedAt := now }
  sealing

theorem readRequestLine_of_text (htext : Inbound.Sendable text)
    (hparse : RequestLine.parse text = .ok line)
    (hdecide : Access.decide gate.suite gate.keyring gate.policy line = .ok (.authorized key)) :
    readRequestLine gate (start (text ++ Bytes.crlf ++ rest) s) =
      settle gate line (.authorized key)
        { inbound := { unread := rest, consumed := text.length + 2 }, store := s } := by
  have htake : Inbound.takeLine { unread := text ++ Bytes.crlf ++ rest } = .ok (some text)
      { unread := rest, consumed := 0 + (text.length + 2) } :=
    Inbound.takeLine_of_sendable rfl htext rfl
  rw [Nat.zero_add] at htake
  exact readRequestLine_of_decided (r := start (text ++ Bytes.crlf ++ rest) s) htake hparse hdecide

open Inbound in
/-- A sealed block that stands behind its request line is opened, and its lines are queued. -/
theorem readRequestLine_of_sealed {sealing : Sealing} {block opened : Bytes}
    (htext : Sendable text) (hparse : RequestLine.parse text = .ok line)
    (hdecide : Access.decide gate.suite gate.keyring gate.policy line = .ok (.authorized key))
    (hcipher : line.cipher ≠ .none) (hsealing : Access.sealing line key = .ok sealing)
    (hblock : Delimited block) (hshort : block.length + blankLine.length ≤ maxSealedBlock + 1)
    (hopened : sealing.decrypt gate.suite block = .ok opened) :
    readRequestLine gate (start (text ++ Bytes.crlf ++ (block ++ blankLine ++ rest)) s) =
      .ok .requestHeaders (begun line.messageType gate.now s sealing {
        unread := rest
        queued := closed (linesOf opened)
        consumed := text.length + 2 + (block.length + blankLine.length) }) := by
  have hopen : takeSealedBlock gate.suite sealing
      { unread := block ++ blankLine ++ rest, consumed := text.length + 2 } = _ :=
    takeSealedBlock_of_block (Access.enabled_of_sealing hcipher hsealing) hblock hshort rfl hopened
  rw [readRequestLine_of_text htext hparse hdecide]
  exact settle_of_opened rfl hsealing hopen

end Reading

namespace Envelope

open Inbound

variable {suite : Suite} {keyring : Keyring} (e : Envelope suite keyring)

theorem sendable_clearLine : Sendable e.clearLine where
  lf := RequestLine.lf_notMem_text (Cipher.unblank_name .none)
    (RequestLine.unblank_of_parseKeyHash e.parsed).2
  short := e.clear_short

theorem sendable_sealedLine : Sendable e.sealedLine where
  lf := RequestLine.lf_notMem_text (RequestLine.unblank_cipherText e.iv)
    (RequestLine.unblank_of_parseKeyHash e.parsed).2
  short := e.sealed_short

theorem parse_clearLine :
    RequestLine.parse e.clearLine = .ok ⟨e.messageType, .none, [], some e.keyHash⟩ :=
  RequestLine.parse_text rfl (Cipher.unblank_name .none) e.parsed

theorem parse_sealedLine : RequestLine.parse e.sealedLine =
    .ok ⟨e.messageType, e.sealing.cipher, e.sealing.iv, some e.keyHash⟩ :=
  RequestLine.parse_text (RequestLine.parseCipher_cipherText e.iv)
    (RequestLine.unblank_cipherText e.iv) e.parsed

section

variable (gate : Gate) (e : Envelope gate.suite gate.keyring) (rest : Bytes) (s : Store)

/-- In the clear the lines stand on the input, the last one closed by an empty one. -/
theorem readRequestLine_clear : Reading.readRequestLine gate (.start (e.clear rest) s) =
    .ok .requestHeaders (.begun e.messageType gate.now s .clear {
      unread := wire (e.lines ++ [[]]) ++ rest
      consumed := e.clearLine.length + 2 }) := by
  obtain ⟨hash, hhash, _⟩ := e.key
  have hdecide : Access.decide gate.suite gate.keyring gate.policy
      ⟨e.messageType, .none, [], some e.keyHash⟩ = .ok (.authorized hash) :=
    Access.decide_of_proven rfl e.proven hhash gate.policy
  have hsplit : e.clear rest = e.clearLine ++ Bytes.crlf ++ (wire (e.lines ++ [[]]) ++ rest) := by
    simp [clear, wire]
  rw [hsplit, Reading.readRequestLine_of_text e.sendable_clearLine e.parse_clearLine hdecide]
  exact Reading.settle_of_clear rfl rfl

/-- Opened, the lines are queued, the last one closed by an empty one. -/
theorem readRequestLine_sealed : Reading.readRequestLine gate (.start (e.sealed rest) s) =
    .ok .requestHeaders (.begun e.messageType gate.now s e.sealing {
      unread := rest
      queued := e.lines ++ [[]]
      consumed := e.sealedLine.length + 2 + (e.block.length + blankLine.length) }) := by
  obtain ⟨hash, hhash, hkey⟩ := e.key
  have hdecide : Access.decide gate.suite gate.keyring gate.policy
      ⟨e.messageType, e.sealing.cipher, e.sealing.iv, some e.keyHash⟩ = .ok (.authorized hash) :=
    Access.decide_of_proven rfl e.proven hhash gate.policy
  have hsplit : e.sealed rest = e.sealedLine ++ Bytes.crlf ++ (e.block ++ blankLine ++ rest) := by
    simp [sealed]
  have hshort : e.block.length + blankLine.length ≤ maxSealedBlock + 1 :=
    Nat.add_le_add_right e.block_short 4
  have hqueue : closed (linesOf (wire e.lines)) = e.lines ++ [[]] := by
    rw [linesOf_wire fun line hmem => (e.sendable line hmem).lf, closed_of_getLast? e.unclosed]
  rw [hsplit, ← hqueue]
  exact Reading.readRequestLine_of_sealed e.sendable_sealedLine e.parse_sealedLine hdecide
    (of_decide_eq_true e.enabled) (Access.sealing_eq e.enabled hkey rfl rfl)
    (delimited_of_first e.first) hshort e.decrypted

end

end Envelope

/-! ## The whole reading -/

namespace Reading

open Inbound

variable {gate : Gate} {r q : Reading} {s s' : Store}

/-- What a reading comes to: a request, the time in it aside, or none, or a failure. -/
def upshot : EStateM.Result Failure Reading (Option Request) → Except Failure (Option Request)
  | .ok request? _ => .ok (request?.map Request.undated)
  | .error failure _ => .error failure

theorem Unsealed.undated (h : Unsealed r q) : q.request.undated = r.request.undated := by
  have hrequest : q.request = { r.request with
      ignored := q.request.ignored
      receivedAt := q.request.receivedAt } := congrArg request h.headers
  unfold Request.undated
  rw [hrequest, h.ignored]

theorem upshot_finish_of_alike {gate' : Gate} {input input' : Bytes}
    (hclear : readRequestLine gate (start input s) = .ok .requestHeaders r)
    (hsealed : readRequestLine gate' (start input' s') = .ok .requestHeaders q)
    (h : Alike Unsealed (proceed gate { r with phase := .requestHeaders })
      (proceed gate' { q with phase := .requestHeaders })) :
    upshot (parse gate (start input s)) = upshot (parse gate' (start input' s')) := by
  unfold parse
  rw [finish_eq rfl, finish_eq rfl, hclear, hsealed]
  dsimp only
  generalize proceed gate { r with phase := .requestHeaders } = x at h
  generalize proceed gate' { q with phase := .requestHeaders } = y at h
  cases h with
  | @ok _ r q h =>
    change Except.ok (some r.request.undated) = Except.ok (some q.request.undated)
    rw [h.undated]
  | @error failure => cases failure <;> rfl

/-- Headers come to the same whether they are sent in the clear or sealed. -/
theorem parse_envelope (e : Envelope gate.suite gate.keyring) (rest : Bytes) (s s' : Store)
    (now : Int) (hquiet : Quiet gate (start (e.clear rest) s)) :
    upshot (parse gate (start (e.clear rest) s)) =
      upshot (parse { gate with now } (start (e.sealed rest) s')) := by
  have hclear := Envelope.readRequestLine_clear gate e rest s
  have hsealed := Envelope.readRequestLine_sealed { gate with now } e rest s'
  have hadvance := advance_of_readRequestLine rfl hclear
  have hsendable : ∀ line ∈ e.lines ++ [[]], Sendable line := by
    intro line hmem
    rcases List.mem_append.1 hmem with hmem | hmem
    · exact e.sendable line hmem
    · rw [List.mem_singleton.1 hmem]
      exact ⟨nofun, by decide⟩
  refine upshot_finish_of_alike hclear hsealed (proceed_alike ⟨rfl, trivial⟩
    (hquiet.advance hadvance) ?_)
  exact ⟨rfl, rfl, rfl, ⟨rfl, rfl, hsendable⟩⟩

/-- A request that was read without attachments has no header that refers to one. -/
theorem quiet_of_parse {input : Bytes} {request : Request}
    (h : parse gate (start input s) = .ok (some request) r)
    (hnone : request.attachments.entries = []) : Quiet gate (start input s) := by
  intro line identifier hread hnames
  have hmentions := (formed_of_parse h).mentioned identifier ⟨line, hread, hnames⟩
  rw [Attachments.mentions, hnone] at hmentions
  cases hmentions

end Reading

namespace Envelope

/-- The bytes of a hexadecimal text. -/
def unhex (text : String) : Bytes := (Hex.decode (ascii text)).toOption.getD []

/-- A service with a password. -/
def exampleGate : Gate := { suite := .full, keyring := { passwords := [ascii "secret"] } }

/-- The hash of the password and a salt. -/
def exampleHash : KeyHash := ⟨.md5, ascii "5062b9292628bc5b48cf58ef3d1770c7", ascii "ab"⟩

theorem exampleHash_proven : exampleHash.ProvenBy .full (ascii "secret") :=
  ⟨HashAlgorithm.md5.hash, unhex "5062b9292628bc5b48cf58ef3d1770c7", unhex "ab", rfl,
    by decide +kernel, by decide +kernel, by decide +kernel⟩

/-- The sealing of a sender whose hash starts with the key. -/
def exampleSealing : Sealing where
  cipher := .des
  key := unhex "5062b9292628bc5b"
  iv := unhex "0123456789abcdef"
  key_length := by decide +kernel
  iv_length := by decide +kernel

/-- One short header. -/
def exampleLines : List Bytes := [ascii "a:b"]

/-- This header in the sealing. -/
def exampleBlock : Bytes := unhex "4ee45b4ef4a3b073"

theorem exampleBlock_encrypted :
    exampleSealing.encrypt .full (Inbound.wire exampleLines) = .ok exampleBlock := by
  decide +kernel

theorem exampleBlock_decrypted :
    exampleSealing.decrypt .full exampleBlock = .ok (Inbound.wire exampleLines) := by
  decide +kernel

/-- A notification, sealed with single DES. -/
def sealedNotice : Envelope exampleGate.suite exampleGate.keyring where
  messageType := .notify
  field := ascii "MD5:5062b9292628bc5b48cf58ef3d1770c7.ab"
  keyHash := exampleHash
  parsed := by decide +kernel
  proven := ⟨ascii "secret", List.mem_singleton_self _, exampleHash_proven⟩
  sealing := exampleSealing
  enabled := rfl
  key := ⟨unhex "5062b9292628bc5b48cf58ef3d1770c7", by decide +kernel, by decide +kernel⟩
  ivHex := ascii "0123456789abcdef"
  iv := by decide +kernel
  lines := exampleLines
  sendable := by
    intro line hmem
    rw [List.mem_singleton.1 hmem]
    exact ⟨by decide, by decide⟩
  unclosed := by decide
  block := exampleBlock
  encrypted := exampleBlock_encrypted
  decrypted := exampleBlock_decrypted
  first := Inbound.first_of_cr_notMem (by decide +kernel)
  block_short := by decide +kernel
  clear_short := by decide +kernel
  sealed_short := by decide +kernel

end Envelope

namespace Reading

open Envelope (exampleGate sealedNotice)

theorem parse_clear_notice :
    Completes (fun request _ => request.attachments.entries.isEmpty)
      (parse exampleGate (start (sealedNotice.clear []) .discard)) := by
  decide +kernel

theorem parse_envelope_notice :
    Quiet exampleGate (start (sealedNotice.clear []) .discard) ∧
      ∃ request, upshot (parse { exampleGate with now := 5 }
        (start (sealedNotice.sealed []) .discard)) = .ok (some request) := by
  obtain ⟨request, r, hparse, hnone⟩ := eq_some_of_completes parse_clear_notice
  have hquiet : Quiet exampleGate (start (sealedNotice.clear []) .discard) :=
    quiet_of_parse hparse (List.isEmpty_iff.1 hnone)
  have hsame := parse_envelope sealedNotice [] .discard .discard 5 hquiet
  rw [hparse] at hsame
  exact ⟨hquiet, request.undated, hsame.symm⟩

end Reading

end Gntp
