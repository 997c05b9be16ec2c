import Gntp.Proofs.HeaderLines
import Gntp.Proofs.Transparency

/-!
# Where the headers of a sealed request come from

The lines of an opened block are queued, and a line that is wanted when none is queued is taken off
the input, whatever it is wanted for. So the headers of a sealed request all come from its sealed
block if there are as many blocks of headers in it as the request needs, and only then
(`sealed_iff_of_parse`). A request whose sealed block holds fewer goes on with lines in the clear
(`not_readFrom_of_spilling`).
-/

namespace Gntp

open Gntp.Action

/-! ## The sealed block -/

open Inbound in
/-- The sealed block of headers that stands behind the request line of an input, and the text that
it opens to. -/
structure SealedBlock (gate : Gate) (input : Bytes) (line : RequestLine) where
  access : Access
  granted : Granted gate input line access
  sealing : Sealing
  agreed : Access.sealing line access.key = .ok sealing
  /-- The request line as it was sent. -/
  lineText : Bytes
  unbroken : Bytes.lf ∉ lineText
  block : Bytes
  delimited : Delimited block
  rest : Bytes
  split : input = lineText ++ Bytes.lf :: (block ++ blankLine ++ rest)
  text : Bytes
  opened : sealing.decrypt gate.suite block = .ok text

namespace SealedBlock

variable {gate : Gate} {input : Bytes} {line : RequestLine} (b b' : SealedBlock gate input line)

/-- There is one sealed block behind a request line, and it opens to one text. -/
theorem text_eq : b.text = b'.text := by
  have haccess : b.access = b'.access :=
    Except.ok.inj (b.granted.decided.symm.trans b'.granted.decided)
  have hsealing : b.sealing = b'.sealing := by
    have hagreed := b.agreed
    rw [haccess, b'.agreed] at hagreed
    exact (Except.ok.inj hagreed).symm
  have hsplit := b.split.symm.trans b'.split
  have hline : b.lineText = b'.lineText := by
    have htake := congrArg (List.takeWhile (· ≠ Bytes.lf)) hsplit
    rwa [Inbound.takeWhile_of_line b.unbroken, Inbound.takeWhile_of_line b'.unbroken] at htake
  rw [hline] at hsplit
  have hblock : b.block = b'.block := by
    have hbehind := (List.cons.inj (List.append_cancel_left hsplit)).2
    have hbefore := b.delimited [] b.rest
    rw [hbehind, b'.delimited [] b'.rest] at hbefore
    exact (Option.some.inj hbefore).symm
  have hopened := b.opened
  rw [hsealing, hblock, b'.opened] at hopened
  exact (Except.ok.inj hopened).symm

/-- The lines of the text, the last of them blank. -/
def lines : List Bytes := Inbound.closed (Inbound.linesOf b.text)

theorem getLast?_lines : b.lines.getLast? = some [] := by
  unfold lines Inbound.closed
  split
  · assumption
  · exact List.getLast?_concat

/-- A header among the lines stands in the text. -/
theorem mem_linesOf {header : Bytes} (hmem : header ∈ b.lines) (hne : header ≠ []) :
    header ∈ Inbound.linesOf b.text := by
  unfold lines Inbound.closed at hmem
  split at hmem
  · exact hmem
  · exact (List.mem_append.1 hmem).resolve_right fun h => hne (List.mem_singleton.1 h)

end SealedBlock

namespace Reading

variable {gate : Gate} {input : Bytes} {line : RequestLine} {s : Store} {r r' : Reading}
  {header : Bytes}

theorem sealing_of_grant {access : Access} (hcipher : line.cipher ≠ .none)
    (h : grant gate line access r = .ok () r') :
    Access.sealing line access.key = .ok r'.sealing ∧ r'.inbound = r.inbound := by
  obtain ⟨_, r₁, h₁, h⟩ := bind_eq_ok.1 h
  cases h₁
  rw [if_pos hcipher] at h
  obtain ⟨sealing, r₂, h₂, h⟩ := bind_eq_ok.1 h
  obtain ⟨hagreed, rfl⟩ := check_eq_ok.1 h₂
  cases h
  exact ⟨hagreed, rfl⟩

/-- Behind a request line that names a cipher, the lines of the sealed block are queued. -/
theorem sealed_of_readRequestLine {phase : Phase} (hopens : Opens input line)
    (hcipher : line.cipher ≠ .none) (h : readRequestLine gate (start input s) = .ok phase r) :
    ∃ b : SealedBlock gate input line, r.inbound.queued = b.lines := by
  obtain ⟨_, _, parsed, access, r₁, htake, hparsed, hdecided, hgrant, hopen, _⟩ :=
    readRequestLine_eq_ok.1 h
  -- The line that was parsed is the one that the input opens with.
  obtain ⟨hshort, rfl⟩ := Inbound.firstLine_of_takeLine rfl htake
  cases hopens.unique ⟨hshort, hparsed⟩
  obtain ⟨raw, lineText, rest, hfirst, hsplit, _, _, rfl⟩ :=
    (Inbound.takeLine_eq_some rfl).1 htake
  obtain ⟨hagreed, hinbound⟩ := sealing_of_grant hcipher hgrant
  have henabled : r₁.sealing.enabled = true := Access.enabled_of_sealing hcipher hagreed
  obtain ⟨_, _, hget, hopen⟩ := bind_eq_ok.1 hopen
  cases hget
  obtain ⟨_, hblock, rfl⟩ := onInbound_eq_ok.1 hopen
  rw [hinbound] at hblock
  obtain ⟨block, text, behind, hdelimited, _, hopened, rfl, rfl⟩ :=
    (Inbound.takeSealedBlock_eq_ok henabled).1 hblock
  have hended : raw = lineText ++ [Bytes.lf] :=
    hfirst.ended.resolve_right fun ⟨_, _, hnil⟩ => by
      cases (List.append_eq_nil_iff.1 (List.append_eq_nil_iff.1 hnil).1).2
  rw [hended, List.append_assoc] at hsplit
  exact ⟨{
    access, granted := ⟨hopens, hdecided⟩
    sealing := r₁.sealing, agreed := hagreed
    lineText, unbroken := hfirst.unbroken
    block, delimited := hdelimited
    rest := behind, split := hsplit
    text, opened := hopened }, rfl⟩

/-- The next line is the first of those of an opened block that are left. -/
def Draws (lines : List Bytes) (r : Reading) (header : Bytes) : Prop :=
  ∃ others, r.inbound.queued = header :: others ∧ header :: others <:+ lines

/-! ## The whole reading -/

/-- A reading that is past the request line, with these lines in the queue. -/
structure Poised (lines : List Bytes) (r : Reading) : Prop where
  phase : r.phase = .requestHeaders
  headers : r.request.headers = {}
  types : r.request.types = []
  queued : r.inbound.queued = lines

namespace Poised

variable {lines : List Bytes}

theorem collected_eq (h : r.Poised lines) : r.collected = ⟨.requestHeaders, {}, [], r.block⟩ := by
  rw [collected, h.phase, h.headers, h.types]

theorem supply_eq (h : r.Poised lines) : r.supply = Headers.blocks lines := by
  rw [supply, h.collected_eq, h.queued]
  rfl

theorem drawing (h : r.Poised lines) (hlast : lines.getLast? = some []) : r.Drawing where
  last _ := by rw [h.queued, hlast]
  fresh _ := by
    rw [h.collected_eq]
    exact ⟨fun _ => rfl, nofun⟩

theorem readFrom (h : r.Poised lines) (source : Bytes → Prop) : r.collected.ReadFrom source := by
  rw [h.collected_eq]
  exact ⟨nofun, nofun, nofun⟩

/-- No header is wanted with an empty queue if, and only if, there are enough blocks in it. -/
theorem queued_iff (hr : r.Poised lines) (hlast : lines.getLast? = some [])
    {named : Bytes → Prop} (hformed : r.request.Formed named r.phase)
    (h : proceed gate r = .ok () r') :
    (∀ r₁ header, Reaches gate r r₁ → r₁.Offers header → header ≠ [] →
      r₁.inbound.queued ≠ []) ↔ r'.request.types.length < Headers.blocks lines := by
  have hover : ¬ r'.collected.Wanting := fun hw => over_of_proceed h (isUnderWay_of_wanting hw)
  have hclosed : r'.collected.closed = r'.request.types.length + 1 :=
    Collected.closed_of_not_wanting hover
  rw [← Nat.succ_le_iff, ← hr.supply_eq, Nat.succ_eq_add_one, ← hclosed]
  exact ⟨enough_of_queued (hr.drawing hlast) h, fun henough r₁ _ hreach hoffers _ =>
    queued_of_enough hformed h henough hreach hoffers.1⟩

theorem draws_of_offers {named : Bytes → Prop} (hr : r.Poised lines)
    (hformed : r.request.Formed named r.phase) (hreach : Reaches gate r r')
    (hoffers : r'.Offers header) (hqueued : r'.inbound.queued ≠ []) : r'.Draws lines header := by
  have hsuffix : r'.inbound.queued <:+ lines := by
    rw [← hr.queued]
    exact (supply_of_reaches hformed hreach hoffers.1).1
  obtain ⟨_, i, htake⟩ := hoffers
  rcases Inbound.queued_of_takeLine htake with heq | ⟨hnone, _⟩
  · exact ⟨i.queued, heq, heq ▸ hsuffix⟩
  · exact absurd hnone hqueued

end Poised

theorem poised_of_readRequestLine {phase : Phase}
    (h : readRequestLine gate (start input s) = .ok phase r) :
    ({ r with phase } : Reading).Poised r.inbound.queued := by
  obtain ⟨rfl, line, access, _, hr⟩ := granted_of_readRequestLine rfl h
  have hheaders : r.request.headers = {} := by
    rw [hr]
    rfl
  have htypes : r.request.types = [] := by
    rw [hr]
    rfl
  exact ⟨rfl, hheaders, htypes, rfl⟩

/-- Every header of a sealed request comes from the sealed block if, and only if, there are as many
blocks of headers in it as the request has: one of its own and one for each type. -/
theorem sealed_iff_of_parse {request : Request} (hopens : Opens input line)
    (hcipher : line.cipher ≠ .none)
    (h : parse gate (start input s) = .ok (some request) r) :
    ∃ b : SealedBlock gate input line,
      ((∀ r' header, Reaches gate (start input s) r' → r'.Offers header → header ≠ [] →
        r'.Draws b.lines header) ↔ request.types.length < Headers.blocks b.lines) ∧
      (request.types.length < Headers.blocks b.lines →
        request.ReadFrom (· ∈ Inbound.linesOf b.text)) := by
  obtain ⟨phase, r₁, hline, hloop, rfl⟩ := (finish_eq_ok rfl).1 (parse_eq_some.1 h)
  obtain ⟨b, hqueued⟩ := sealed_of_readRequestLine hopens hcipher hline
  obtain ⟨rfl, _⟩ := granted_of_readRequestLine rfl hline
  have hpoised := poised_of_readRequestLine hline
  rw [hqueued] at hpoised
  have hformed : r₁.request.Formed (fun _ => False) .requestHeaders :=
    formed_of_readRequestLine hline
  have hiff := hpoised.queued_iff b.getLast?_lines hformed hloop
  have hdraws (henough : r.request.types.length < Headers.blocks b.lines) (r' : Reading)
      (header : Bytes) (hreach : Reaches gate { r₁ with phase := .requestHeaders } r')
      (hoffers : r'.Offers header) (hne : header ≠ []) : r'.Draws b.lines header :=
    hpoised.draws_of_offers hformed hreach hoffers (hiff.2 henough r' header hreach hoffers hne)
  refine ⟨b, ⟨fun hdrawn => hiff.1 ?_, fun henough r' header hreach hoffers => ?_⟩,
    fun henough => ?_⟩
  · intro r' header hreach hoffers hne hnil
    obtain ⟨others, hqueued, _⟩ := hdrawn r' header
      (hreach.head (advance_of_readRequestLine rfl hline)) hoffers hne
    cases hqueued.symm.trans hnil
  · exact hdraws henough r' header (reaches_of_offers hline hreach hoffers) hoffers
  · refine (readFrom_of_proceed (hpoised.readFrom _) hloop).mono ?_
    rintro header ⟨r', hreach, hoffers⟩ hne
    obtain ⟨others, _, hsuffix⟩ := hdraws henough r' header hreach hoffers hne
    exact b.mem_linesOf (hsuffix.subset List.mem_cons_self) hne

/-! ## A block that holds enough, and one that does not -/

open Envelope (exampleBlock exampleBlock_decrypted exampleGate exampleHash exampleHash_proven
  exampleLines exampleSealing sealedNotice unhex)
open Inbound (blankLine)

theorem opens_of_sendable {text rest : Bytes} (htext : Inbound.Sendable text)
    (hparse : RequestLine.parse text = .ok line) : Opens (text ++ Bytes.crlf ++ rest) line := by
  have hsplit : text ++ Bytes.crlf ++ rest = (text ++ [Bytes.cr]) ++ Bytes.lf :: rest := by
    simp [Bytes.crlf]
  have hfirst : (text ++ Bytes.crlf ++ rest).takeWhile (· ≠ Bytes.lf) = text ++ [Bytes.cr] := by
    rw [hsplit, Inbound.takeWhile_of_line (Inbound.notMem_append_cr htext.lf)]
  refine ⟨?_, ?_⟩
  · rw [hfirst, List.length_append]
    exact htext.short
  · rw [firstLine, hfirst, Inbound.dropFinalCr_append_cr]
    exact hparse

/-- A request line in a sealing. -/
def sealedLine (messageType : MessageType) : RequestLine :=
  ⟨messageType, exampleSealing.cipher, exampleSealing.iv, some exampleHash⟩

theorem decide_sealedLine (messageType : MessageType) :
    Access.decide exampleGate.suite exampleGate.keyring exampleGate.policy
      (sealedLine messageType) =
      .ok (.authorized (unhex "5062b9292628bc5b48cf58ef3d1770c7")) :=
  Access.decide_of_proven rfl ⟨ascii "secret", List.mem_singleton_self _, exampleHash_proven⟩
    (by decide +kernel) _

theorem sealing_sealedLine (messageType : MessageType) :
    Access.sealing (sealedLine messageType) (unhex "5062b9292628bc5b48cf58ef3d1770c7") =
      .ok exampleSealing :=
  Access.sealing_eq rfl (by decide +kernel) rfl rfl

theorem opens_notice : Opens (sealedNotice.sealed []) (sealedLine .notify) := by
  have hsplit : sealedNotice.sealed [] =
      sealedNotice.sealedLine ++ Bytes.crlf ++ (exampleBlock ++ blankLine) := by
    decide +kernel
  rw [hsplit]
  exact opens_of_sendable sealedNotice.sendable_sealedLine sealedNotice.parse_sealedLine

/-- The sealed block of a notification. -/
def noticeBlock : SealedBlock exampleGate (sealedNotice.sealed []) (sealedLine .notify) where
  access := .authorized (unhex "5062b9292628bc5b48cf58ef3d1770c7")
  granted := ⟨opens_notice, decide_sealedLine .notify⟩
  sealing := exampleSealing
  agreed := sealing_sealedLine .notify
  lineText := sealedNotice.sealedLine ++ [Bytes.cr]
  unbroken := by decide +kernel
  block := exampleBlock
  delimited := Inbound.delimited_of_first sealedNotice.first
  rest := []
  split := by decide +kernel
  text := Inbound.wire exampleLines
  opened := exampleBlock_decrypted

theorem parse_notice : ∃ r,
    parse exampleGate (start (sealedNotice.sealed []) .discard) = .ok (some r.request) r ∧
      r.request.headers.entries = [(ascii "a", ascii "b")] ∧ r.request.types = [] := by
  have hline := Envelope.readRequestLine_sealed exampleGate sealedNotice [] .discard
  have hends : Ends (fun r => r.request.headers.entries = [(ascii "a", ascii "b")] ∧
      r.request.types = []) (proceed exampleGate { begun .notify 0 .discard exampleSealing {
        unread := []
        queued := exampleLines ++ [[]]
        consumed := sealedNotice.sealedLine.length + 2 + (exampleBlock.length + blankLine.length) }
        with phase := .requestHeaders }) := by
    decide +kernel
  obtain ⟨r, hloop, htest⟩ := eq_ok_of_ends hends
  exact ⟨r, parse_eq_some.2 ((finish_eq_ok rfl).2 ⟨_, _, hline, hloop, rfl⟩),
    of_decide_eq_true htest⟩

theorem sealed_iff_of_parse_notice :
    Opens (sealedNotice.sealed []) (sealedLine .notify) ∧ (sealedLine .notify).cipher ≠ .none ∧
    ∃ request r, parse exampleGate (start (sealedNotice.sealed []) .discard) =
      .ok (some request) r ∧ request.headers.entries = [(ascii "a", ascii "b")] ∧
      request.ReadFrom (· ∈ exampleLines) := by
  obtain ⟨r, hparse, hentries, htypes⟩ := parse_notice
  have hcipher : (sealedLine .notify).cipher ≠ .none := by decide
  obtain ⟨b, -, hfrom⟩ := sealed_iff_of_parse opens_notice hcipher hparse
  have htext : b.text = Inbound.wire exampleLines := b.text_eq noticeBlock
  have henough : r.request.types.length < Headers.blocks b.lines := by
    rw [htypes, SealedBlock.lines, htext]
    decide +kernel
  have hlines : Inbound.linesOf b.text = exampleLines := by
    rw [htext]
    decide +kernel
  rw [hlines] at hfrom
  exact ⟨opens_notice, hcipher, r.request, r, hparse, hentries, hfrom henough⟩

/-- The request line of a registration as it is sent. -/
def registerText : Bytes :=
  ascii "GNTP/1.0 REGISTER DES:0123456789abcdef MD5:5062b9292628bc5b48cf58ef3d1770c7.ab"

/-- Headers in the clear. -/
def clearHeaders : Bytes :=
  ascii "Application-Name: A" ++ Bytes.crlf ++ ascii "Notifications-Count: 0" ++ blankLine

/-- An empty text in the sealing. -/
def emptyBlock : Bytes := unhex "a67da14ab8e60617"

/-- A registration with nothing in its sealed block, and with its headers in the clear behind it. -/
def spilling : Bytes := registerText ++ Bytes.crlf ++ (emptyBlock ++ blankLine ++ clearHeaders)

theorem sendable_registerText : Inbound.Sendable registerText where
  lf := by decide +kernel
  short := by decide +kernel

theorem parse_registerText : RequestLine.parse registerText = .ok (sealedLine .register) := by
  decide +kernel

theorem delimited_emptyBlock : Inbound.Delimited emptyBlock :=
  Inbound.delimited_of_first (Inbound.first_of_cr_notMem (by decide +kernel))

theorem emptyBlock_decrypted : exampleSealing.decrypt .full emptyBlock = .ok [] := by
  decide +kernel

theorem opens_spilling : Opens spilling (sealedLine .register) :=
  opens_of_sendable sendable_registerText parse_registerText

/-- The sealed block of this registration. -/
def spillingBlock : SealedBlock exampleGate spilling (sealedLine .register) where
  access := .authorized (unhex "5062b9292628bc5b48cf58ef3d1770c7")
  granted := ⟨opens_spilling, decide_sealedLine .register⟩
  sealing := exampleSealing
  agreed := sealing_sealedLine .register
  lineText := registerText ++ [Bytes.cr]
  unbroken := by decide +kernel
  block := emptyBlock
  delimited := delimited_emptyBlock
  rest := clearHeaders
  split := by decide +kernel
  text := []
  opened := emptyBlock_decrypted

/-- The headers of this registration come from the clear. -/
theorem not_readFrom_of_spilling :
    Opens spilling (sealedLine .register) ∧ (sealedLine .register).cipher ≠ .none ∧
    ∃ request r, parse exampleGate (start spilling .discard) = .ok (some request) r ∧
      request.headers.get? Key.applicationName = some (ascii "A") ∧
      ¬ request.ReadFrom (· ∈ Inbound.linesOf spillingBlock.text) := by
  have hcipher : (sealedLine .register).cipher ≠ .none := by decide
  have hline : readRequestLine exampleGate (start spilling .discard) = _ :=
    readRequestLine_of_sealed sendable_registerText parse_registerText
      (decide_sealedLine .register) hcipher (sealing_sealedLine .register) delimited_emptyBlock
      (by decide +kernel) emptyBlock_decrypted
  have hends : Ends (fun r => r.request.headers.get? Key.applicationName = some (ascii "A"))
      (proceed exampleGate { begun .register 0 .discard exampleSealing {
        unread := clearHeaders
        queued := Inbound.closed (Inbound.linesOf [])
        consumed := registerText.length + 2 + (emptyBlock.length + blankLine.length) }
        with phase := .requestHeaders }) := by
    decide +kernel
  obtain ⟨r, hloop, htest⟩ := eq_ok_of_ends hends
  have hname : r.request.headers.get? Key.applicationName = some (ascii "A") :=
    of_decide_eq_true htest
  refine ⟨opens_spilling, hcipher, r.request, r,
    parse_eq_some.2 ((finish_eq_ok rfl).2 ⟨_, _, hline, hloop, rfl⟩), hname, fun hfrom => ?_⟩
  obtain ⟨header, hmem, _⟩ := hfrom.headers _ (Assoc.mem_of_lookup hname)
  cases hmem

end Reading

end Gntp
