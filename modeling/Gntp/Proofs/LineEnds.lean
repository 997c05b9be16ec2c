import Gntp.Proofs.Displaying
import Gntp.Proofs.Payloads
import Gntp.Proofs.Permanence
import Gntp.Proofs.Skimming

/-!
# Line ends do not matter

While nothing is sealed, a reading takes its input piece by piece: lines with their line ends, and
payloads (`Reading.pieces`). As long as no line ends with a carriage return of its own, each line
end may lack its carriage return, independently of all others, and the exchange is the same
(`Service.handle_relined`). Payloads stay as they are, whatever they begin and end with.

`Replays` says of one action what it takes and that it takes the same pieces with other line ends.
The rules for it follow the text of the actions.
-/

namespace Gntp

open Gntp.Action Gntp.Bytes

/-- A piece of the input as it is taken. -/
inductive Piece where
  /-- A line with its line end. -/
  | line (raw : Bytes)
  | payload (data : Bytes)
  deriving DecidableEq

namespace Piece

def bytes : Piece → Bytes
  | line raw => raw
  | payload data => data

/-- The bytes of some pieces, one after the other. -/
def joined (pieces : List Piece) : Bytes := pieces.flatMap bytes

/-- The piece is no line, or a line that is ended by CRLF and does not end with CR itself. -/
def Clean : Piece → Prop
  | line raw => ∃ text, raw = text ++ crlf ∧ text.getLast? ≠ some cr
  | payload _ => True

/-- The first piece is the second one, or it is the same line ended by LF in place of CRLF. -/
inductive Relined : Piece → Piece → Prop
  | same (piece : Piece) : Relined piece piece
  | bare (text : Bytes) : Relined (.line (text ++ [lf])) (.line (text ++ crlf))

@[simp] theorem joined_nil : joined [] = [] := rfl

@[simp] theorem joined_singleton (piece : Piece) : joined [piece] = piece.bytes := by
  simp [joined]

@[simp] theorem joined_append (pieces more : List Piece) :
    joined (pieces ++ more) = joined pieces ++ joined more := List.flatMap_append

end Piece

/-! ## One line -/

namespace Inbound

open Piece

variable {i i' j : Inbound} {raw text rest line data : Bytes} {piece : Piece}

/-- The next line of an input, with its line end. -/
def nextRaw (s : Bytes) : Bytes := s.takeWhile (· ≠ lf) ++ (s.dropWhile (· ≠ lf)).take 1

theorem FirstLine.nextRaw_eq (h : FirstLine raw text rest) : nextRaw (raw ++ rest) = raw := by
  have htake := h.takeWhile_eq
  have hsplit := List.takeWhile_append_dropWhile (p := fun b => decide (b ≠ lf)) (l := raw ++ rest)
  rw [htake] at hsplit
  unfold nextRaw
  rw [htake]
  rcases h.ended with rfl | ⟨rfl, _, rfl⟩
  · rw [List.append_assoc] at hsplit
    rw [List.append_assoc, List.append_cancel_left hsplit]
    rfl
  · rw [List.append_cancel_left hsplit]
    exact List.append_nil _

/-- With another line end, it is the same line. -/
theorem FirstLine.of_relined (h : FirstLine raw text rest) (hclean : Clean (.line raw))
    (hrelined : Relined piece (.line raw)) (rest' : Bytes) :
    ∃ raw' text', piece = .line raw' ∧ FirstLine raw' text' rest' ∧ text'.length ≤ text.length ∧
      dropFinalCr text' = dropFinalCr text := by
  obtain ⟨clean, hraw, hcr⟩ := hclean
  have htext : text = clean ++ [cr] := by
    rcases h.ended with hended | ⟨hended, _, _⟩
    · have hcrlf : (clean ++ [cr]) ++ [lf] = text ++ [lf] := by
        rw [← hended, hraw, List.append_assoc]
        rfl
      exact (List.append_cancel_right hcrlf).symm
    · have hlf : lf ∈ text := by
        rw [← hended, hraw]
        exact List.mem_append_right clean (by decide)
      exact absurd hlf h.unbroken
  cases hrelined with
  | same =>
    refine ⟨raw, text, rfl, ⟨h.unbroken, .inl ?_⟩, Nat.le_refl _, rfl⟩
    rw [hraw, htext, List.append_assoc]
    rfl
  | bare other =>
    obtain rfl : other = clean := List.append_cancel_right hraw
    have hlf : lf ∉ other := fun hmem => h.unbroken (htext ▸ List.mem_append_left _ hmem)
    refine ⟨other ++ [lf], other, rfl, ⟨hlf, .inl rfl⟩, ?_, ?_⟩
    · rw [htext, List.length_append]
      exact Nat.le_add_right _ _
    · rw [htext, dropFinalCr_append_cr, dropFinalCr, if_neg hcr]

theorem takeLine_of_relined (hq : i.queued = []) (h : takeLine i = .ok (some line) i')
    (hclean : Clean (.line (nextRaw i.unread))) :
    i.unread = nextRaw i.unread ++ i'.unread ∧ i'.queued = [] ∧
      ∀ {piece : Piece}, Relined piece (.line (nextRaw i.unread)) → ∀ {j : Inbound} {rest : Bytes},
        j.queued = [] → j.unread = piece.bytes ++ rest →
        ∃ j', takeLine j = .ok (some line) j' ∧ j'.queued = [] ∧ j'.unread = rest := by
  obtain ⟨raw, text, rest, hfirst, hunread, hshort, rfl, rfl⟩ := (takeLine_eq_some hq).1 h
  rw [hunread, hfirst.nextRaw_eq] at hclean ⊢
  refine ⟨rfl, hq, fun hrelined j rest' hj hbytes => ?_⟩
  obtain ⟨raw', text', rfl, hfirst', hlength, hsame⟩ := hfirst.of_relined hclean hrelined rest'
  rw [← hsame]
  exact ⟨_, takeLine_of_firstLine hj hfirst' (Nat.le_trans hlength hshort) hbytes, hj, rfl⟩

theorem takePayload_of_relined {identifier : Bytes} {length : Nat}
    (h : Payload.takePayload identifier length i = .ok data i')
    (hclean : Clean (.line (nextRaw (i.unread.drop length)))) :
    i.unread = i.unread.take length ++ nextRaw (i.unread.drop length) ++ i'.unread ∧
      i'.queued = [] ∧
      ∀ {piece : Piece}, Relined piece (.line (nextRaw (i.unread.drop length))) →
        ∀ {j : Inbound} {rest : Bytes}, j.queued = [] →
        j.unread = i.unread.take length ++ piece.bytes ++ rest →
        ∃ j', Payload.takePayload identifier length j = .ok data j' ∧ j'.queued = [] ∧
          j'.unread = rest := by
  obtain ⟨hq, raw, text, rest, rfl, hfirst, hshort, hblank, hunread, rfl⟩ :=
    Payload.takePayload_eq_ok.1 h
  have htake : i.unread.take data.length = data := by
    rw [hunread, List.append_assoc, List.take_left]
  have hraw : nextRaw (i.unread.drop data.length) = raw := by
    rw [hunread, List.append_assoc, List.drop_left, hfirst.nextRaw_eq]
  rw [hraw] at hclean ⊢
  rw [htake]
  refine ⟨hunread, hq, fun hrelined j rest' hj hbytes => ?_⟩
  obtain ⟨raw', text', rfl, hfirst', hlength, hsame⟩ := hfirst.of_relined hclean hrelined rest'
  have hblank' : ∀ b ∈ raw', isBlank b = true := by
    rw [hfirst'.blank_iff, ← blank_dropFinalCr, hsame, blank_dropFinalCr, ← hfirst.blank_iff]
    exact hblank
  exact ⟨_, Payload.takePayload_eq_ok.2 ⟨hj, raw', text', rest', rfl, hfirst',
    Nat.le_trans hlength hshort, hblank', hbytes, rfl⟩, hj, rfl⟩

end Inbound

/-! ## Steps -/

namespace Reading

open Piece Inbound

variable {gate : Gate} {α β : Type} {x : Action Reading α} {f : α → Action Reading β} {a : α}
  {b : β} {r r₁ r' : Reading} {taken first second : List Piece}

/-- The same reading with another input. -/
def withInbound (i : Inbound) (r : Reading) : Reading := { r with inbound := i }

/-- An action takes these pieces, and it would have taken them with other line ends just so. -/
structure Replays (x : Action Reading α) (r : Reading) (a : α) (r' : Reading)
    (taken : List Piece) : Prop where
  unread : r.inbound.unread = joined taken ++ r'.inbound.unread
  queued : r'.inbound.queued = []
  again : ∀ {pieces : List Piece}, List.Forall₂ Relined pieces taken →
    ∀ {i : Inbound} {rest : Bytes}, i.queued = [] → i.unread = joined pieces ++ rest →
    ∃ i', x (withInbound i r) = .ok a (withInbound i' r') ∧ i'.queued = [] ∧ i'.unread = rest

namespace Replays

/-- An action that takes nothing. -/
theorem of_mirrors (hx : ∀ i, Mirrors (withInbound i) x x) (hkeeps : Keeps inbound x)
    (hq : r.inbound.queued = []) (h : x r = .ok a r') : Replays x r a r' [] where
  unread := by rw [hkeeps.of_ok h]; rfl
  queued := by rw [hkeeps.of_ok h]; exact hq
  again hrelined i rest hi hunread := by
    cases hrelined
    refine ⟨i, ?_, hi, hunread⟩
    rw [hx i r, h]
    rfl

theorem of_secluded (hx : Secluded x) (hq : r.inbound.queued = []) (h : x r = .ok a r') :
    Replays x r a r' [] := by
  refine of_mirrors (fun i => ?_) (fun s => ?_) hq h
  · exact hx.mirrors (fun c => { c with inbound := i }) fun _ => rfl
  · exact congrArg Surroundings.inbound (hx.keeps s)

theorem bind (hx : Replays x r a r₁ first) (hf : Replays (f a) r₁ b r' second) :
    Replays (x >>= f) r b r' (first ++ second) where
  unread := by rw [hx.unread, hf.unread, joined_append, List.append_assoc]
  queued := hf.queued
  again {pieces} hrelined i rest hi hunread := by
    have hfirst := List.forall₂_take_append pieces first second hrelined
    have hsecond := List.forall₂_drop_append pieces first second hrelined
    have hsplit : i.unread = joined (pieces.take first.length) ++
        (joined (pieces.drop first.length) ++ rest) := by
      rw [← List.append_assoc, ← joined_append, List.take_append_drop]
      exact hunread
    obtain ⟨i₁, h₁, hi₁, hunread₁⟩ := hx.again hfirst hi hsplit
    obtain ⟨i', h', hi', hunread'⟩ := hf.again hsecond hi₁ hunread₁
    exact ⟨i', (bind_of_ok h₁).trans h', hi', hunread'⟩

/-- Behind what was taken, nothing is taken any more. -/
theorem bind_secluded (hx : Replays x r a r₁ taken) (hf : Secluded (f a))
    (h : f a r₁ = .ok b r') : Replays (x >>= f) r b r' taken := by
  have hboth := hx.bind (of_secluded hf hx.queued h)
  rwa [List.append_nil] at hboth

end Replays

theorem takeLine_replays {line : Bytes} {i : Inbound} (hq : r.inbound.queued = [])
    (hclean : Clean (.line (nextRaw r.inbound.unread)))
    (h : takeLine r.inbound = .ok (some line) i) :
    Replays (onInbound takeLine) r (some line) (withInbound i r)
      [.line (nextRaw r.inbound.unread)] := by
  obtain ⟨hunread, hqueued, hagain⟩ := takeLine_of_relined hq h hclean
  refine ⟨?_, hqueued, fun hrelined j rest hj hbytes => ?_⟩
  · rw [joined_singleton]
    exact hunread
  · obtain ⟨piece, rest', hpiece, hnone, rfl⟩ := List.forall₂_cons_right_iff.1 hrelined
    cases hnone
    rw [joined_singleton] at hbytes
    obtain ⟨j', htake, hj', hrest⟩ := hagain hpiece hj hbytes
    exact ⟨j', onInbound_eq_ok.2 ⟨j', htake, rfl⟩, hj', hrest⟩

theorem nextLine_replays {line : Bytes} (hq : r.inbound.queued = [])
    (hclean : Clean (.line (nextRaw r.inbound.unread))) (h : nextLine r = .ok line r') :
    Replays nextLine r line r' [.line (nextRaw r.inbound.unread)] := by
  obtain ⟨line?, r₁, h₁, hsome⟩ := bind_eq_ok.1 h
  obtain ⟨i, htake, rfl⟩ := onInbound_eq_ok.1 h₁
  cases line? with
  | none =>
    obtain ⟨_, _, _, hthrow⟩ := bind_eq_ok.1 hsome
    cases hthrow
  | some line =>
    cases hsome
    have hline := takeLine_replays hq hclean htake
    exact hline.bind (.of_mirrors (fun _ => .pure line) (.pure line) hline.queued rfl)

/-- What the next step takes, as long as nothing is sealed. -/
def takes (r : Reading) : List Piece :=
  match r.phase with
  | .requestLine | .requestHeaders | .typeHeaders | .resourceHeaders =>
    [.line (nextRaw r.inbound.unread)]
  | .resourceData =>
    match Payload.announced r.block with
    | .ok (_, length) =>
      [.payload (r.inbound.unread.take length), .line (nextRaw (r.inbound.unread.drop length))]
    | .error _ => []
  | .complete | .answered => []

theorem receive_eq_ok {suite : Suite} {resource : Resource} :
    receive suite r = .ok resource r' ↔
      ∃ left, Payload.receive suite r.sealing r.block r.receiving = .ok resource left ∧
        r' = r.resume left := by
  unfold receive
  cases Payload.receive suite r.sealing r.block r.receiving with
  | error failure left => exact ⟨nofun, nofun⟩
  | ok found left =>
    constructor
    · intro h
      cases h
      exact ⟨left, rfl, rfl⟩
    · rintro ⟨_, h, rfl⟩
      cases h
      rfl

theorem receive_replays {suite : Suite} {resource : Resource} (hp : r.phase = .resourceData)
    (hclean : ∀ piece ∈ r.takes, piece.Clean) (h : receive suite r = .ok resource r') :
    Replays (receive suite) r resource r' r.takes := by
  obtain ⟨left, hreceive, rfl⟩ := receive_eq_ok.1 h
  obtain ⟨identifier, length, slot, opened, data, hannounced, hacquire, htake, hstored, hresource⟩ :=
    Payload.receive_eq_ok.1 hreceive
  have htakes : r.takes = [.payload (r.inbound.unread.take length),
      .line (nextRaw (r.inbound.unread.drop length))] := by
    unfold takes
    rw [hp, hannounced]
  have htake : Payload.takePayload identifier length r.inbound = .ok data left.inbound := htake
  rw [htakes] at hclean ⊢
  obtain ⟨hunread, hqueued, hagain⟩ := takePayload_of_relined htake (hclean _ (by simp))
  refine ⟨?_, hqueued, fun hrelined j rest hj hbytes => ?_⟩
  · refine hunread.trans ?_
    simp [joined, Piece.bytes, resume]
  · obtain ⟨payload, _, hpayload, hrest, rfl⟩ := List.forall₂_cons_right_iff.1 hrelined
    obtain ⟨piece, _, hpiece, hnone, rfl⟩ := List.forall₂_cons_right_iff.1 hrest
    cases hnone
    cases hpayload
    have hbytes : j.unread = r.inbound.unread.take length ++ piece.bytes ++ rest := by
      simpa [joined, Piece.bytes] using hbytes
    obtain ⟨j', htake', hj', hrest⟩ := hagain hpiece hj hbytes
    refine ⟨j', receive_eq_ok.2 ⟨{ left with inbound := j' }, ?_, rfl⟩, hj', hrest⟩
    exact Payload.receive_eq_ok.2 ⟨identifier, length, slot, opened, data, hannounced, hacquire,
      htake', hstored, hresource⟩

theorem readResourceData_replays {suite : Suite} {phase : Phase} (hp : r.phase = .resourceData)
    (hq : r.inbound.queued = []) (hclean : ∀ piece ∈ r.takes, piece.Clean)
    (h : readResourceData suite r = .ok phase r') :
    Replays (readResourceData suite) r phase r' r.takes := by
  have hdata : (check r.checkNew >>= fun _ => receive suite >>= attach) r = .ok phase r' := h
  obtain ⟨_, r₁, hcheck, hread⟩ := bind_eq_ok.1 hdata
  obtain ⟨hnew, rfl⟩ := check_eq_ok.1 hcheck
  obtain ⟨resource, r₂, hreceive, hattach⟩ := bind_eq_ok.1 hread
  have hrest :=
    (receive_replays hp hclean hreceive).bind_secluded (attach_secluded resource) hattach
  refine ⟨hrest.unread, hrest.queued, fun hrelined i rest hi hbytes => ?_⟩
  obtain ⟨i', hagain, hi', hleft⟩ := hrest.again hrelined hi hbytes
  refine ⟨i', ?_, hi', hleft⟩
  have hnew' : (withInbound i r₁).checkNew = .ok () := hnew
  exact bind_eq_ok.2 ⟨_, _, rfl, bind_eq_ok.2 ⟨(), _, check_eq_ok.2 ⟨hnew', rfl⟩, hagain⟩⟩

/-- A step takes what it takes, with other line ends just so. -/
theorem advance_replays (hp : r.phase.isUnderWay) (hq : r.inbound.queued = [])
    (hclean : ∀ piece ∈ r.takes, piece.Clean) (h : advance gate r = .ok () r') :
    Replays (advance gate) r () r' r.takes := by
  obtain ⟨phase, r₁, hstep, hphase⟩ := bind_eq_ok.1 h
  have hline {f : Bytes → Action Reading Phase} (hf : ∀ line, Secluded (f line))
      (htakes : r.takes = [.line (nextRaw r.inbound.unread)])
      (hread : (nextLine >>= f) r = .ok phase r₁) :
      Replays (nextLine >>= f) r phase r₁ r.takes := by
    rw [htakes] at hclean ⊢
    obtain ⟨line, r₂, hnext, hf'⟩ := bind_eq_ok.1 hread
    exact (nextLine_replays hq (hclean _ (by simp)) hnext).bind_secluded (hf line) hf'
  have hread : Replays (read gate r.phase) r phase r₁ r.takes := by
    rw [step_eq] at hstep
    cases hphase : r.phase with
    | requestLine | complete | answered => rw [hphase] at hp; cases hp
    | requestHeaders =>
      rw [hphase] at hstep
      exact hline requestHeader_secluded (by simp [takes, hphase]) hstep
    | typeHeaders =>
      rw [hphase] at hstep
      exact hline typeHeader_secluded (by simp [takes, hphase]) hstep
    | resourceHeaders =>
      rw [hphase] at hstep
      exact hline resourceHeader_secluded (by simp [takes, hphase]) hstep
    | resourceData =>
      rw [hphase] at hstep
      exact readResourceData_replays hphase hq hclean hstep
  cases hphase
  refine ⟨hread.unread, hread.queued, fun hrelined i rest hi hbytes => ?_⟩
  obtain ⟨i', hagain, hi', hleft⟩ := hread.again hrelined hi hbytes
  exact ⟨i', bind_eq_ok.2 ⟨phase, _, hagain, rfl⟩, hi', hleft⟩

/-! ## Runs -/

/-- What a run takes after the request line, as long as nothing is sealed. -/
def piecesAfter (gate : Gate) (r : Reading) : List Piece :=
  if _hp : r.phase.isUnderWay then
    match _h : advance gate r with
    | .ok _ r' => r.takes ++ piecesAfter gate r'
    | .error _ _ => []
  else []
termination_by r.inbound.remaining
decreasing_by exact remaining_lt_of_advance _h _hp

theorem piecesAfter_of_advance (hp : r.phase.isUnderWay) (h : advance gate r = .ok () r') :
    piecesAfter gate r = r.takes ++ piecesAfter gate r' := by
  rw [piecesAfter, dif_pos hp]
  split
  · next h' => cases h.symm.trans h'; rfl
  · next h' => cases h.symm.trans h'

theorem piecesAfter_of_over (hp : ¬ r.phase.isUnderWay) : piecesAfter gate r = [] := by
  rw [piecesAfter, dif_neg hp]

/-- A run takes what its steps take. -/
theorem proceed_replays (hq : r.inbound.queued = [])
    (hclean : ∀ piece ∈ piecesAfter gate r, piece.Clean) (h : proceed gate r = .ok () r') :
    Replays (proceed gate) r () r' (piecesAfter gate r) := by
  induction r using proceed.induct gate with
  | case1 r hp _ r₁ h₁ ih =>
    rw [piecesAfter_of_advance hp h₁] at hclean ⊢
    rw [proceed_of_advance hp h₁] at h
    obtain ⟨hfirst, hsecond⟩ := List.forall_mem_append.1 hclean
    have hstep := advance_replays hp hq hfirst h₁
    have hboth : Replays (advance gate >>= fun _ => proceed gate) r () r'
        (r.takes ++ piecesAfter gate r₁) := hstep.bind (ih hstep.queued hsecond h)
    refine ⟨hboth.unread, hboth.queued, fun hrelined i rest hi hbytes => ?_⟩
    obtain ⟨i', hagain, hi', hleft⟩ := hboth.again hrelined hi hbytes
    have hp' : (withInbound i r).phase.isUnderWay := hp
    exact ⟨i', by rw [proceed_eq, if_pos hp']; exact hagain, hi', hleft⟩
  | case2 r hp failure r₁ h₁ =>
    rw [proceed_of_failure hp h₁] at h
    cases h
  | case3 r hp =>
    rw [proceed_of_over hp] at h
    rw [piecesAfter_of_over hp]
    cases h
    refine ⟨rfl, hq, fun hrelined i rest hi hbytes => ?_⟩
    cases hrelined
    exact ⟨i, proceed_of_over hp, hi, hbytes⟩

/-! ## The request line -/

theorem decide_mirrors_inbound (line : RequestLine) (i : Inbound) :
    Mirrors (withInbound i) (decide gate line) (decide gate line) := by
  unfold decide
  cases Access.decide gate.suite gate.keyring gate.policy line with
  | ok access => exact .pure access
  | error failure => exact .throw failure

theorem grant_mirrors_inbound (line : RequestLine) (access : Access) (i : Inbound) :
    Mirrors (withInbound i) (grant gate line access) (grant gate line access) :=
  .bind (.modify fun _ => rfl) fun _ => .ite Iff.rfl
    (.bind (.check (Access.sealing line access.key)) fun _ => .modify fun _ => rfl) (.pure ())

/-- Where nothing is sealed there is nothing to open. -/
theorem openHeaders_of_clear (hclear : r.sealing = .clear) : openHeaders gate r = .ok () r := by
  unfold openHeaders
  change onInbound (takeSealedBlock gate.suite r.sealing) r = _
  rw [hclear]
  rfl

/-- The request line is taken, and nothing else. -/
theorem readRequestLine_replays {phase : Phase} (hq : r.inbound.queued = [])
    (hsealing : r.sealing = .clear)
    (hclear : ∀ line, Opens r.inbound.unread line → line.cipher = .none)
    (hclean : Clean (.line (nextRaw r.inbound.unread)))
    (h : readRequestLine gate r = .ok phase r') :
    r'.sealing = .clear ∧
      Replays (readRequestLine gate) r phase r' [.line (nextRaw r.inbound.unread)] := by
  obtain ⟨text?, r₁, h₁, hrest⟩ := bind_eq_ok.1 h
  obtain ⟨i, htake, rfl⟩ := onInbound_eq_ok.1 h₁
  cases text? with
  | none => cases hrest
  | some text =>
    obtain ⟨hshort, rfl⟩ := firstLine_of_takeLine hq htake
    obtain ⟨line, r₂, hparse, hrest⟩ := bind_eq_ok.1 hrest
    obtain ⟨access, r₃, hdecide, hrest⟩ := bind_eq_ok.1 hrest
    obtain ⟨_, r₄, hgrant, hrest⟩ := bind_eq_ok.1 hrest
    obtain ⟨_, r₅, hopen, hrest⟩ := bind_eq_ok.1 hrest
    cases hrest
    obtain ⟨hparsed, rfl⟩ := check_eq_ok.1 hparse
    obtain ⟨_, rfl⟩ := decide_eq_ok.1 hdecide
    have hnone : ¬ line.cipher ≠ .none := not_not_intro (hclear line ⟨hshort, hparsed⟩)
    have hgranted : Keeps inbound (grant gate line access) :=
      grant_keeps (fun _ _ _ => rfl) line access
    have hsealed : Keeps Reading.sealing (grant gate line access) :=
      .bind (.modify fun _ => rfl) fun _ => by
        rw [if_neg hnone]
        exact .pure ()
    have hsealing₄ : r₄.sealing = .clear := (hsealed.of_ok hgrant).trans hsealing
    cases (openHeaders_of_clear hsealing₄).symm.trans hopen
    refine ⟨hsealing₄, ?_⟩
    have hline := takeLine_replays hq hclean htake
    have hqueued := hline.queued
    have hopens : Replays (openHeaders gate) r' () r' [] := {
      unread := rfl
      queued := by rw [hgranted.of_ok hgrant]; exact hqueued
      again := fun hrelined i rest hi hbytes => by
        cases hrelined
        have hsealing' : (withInbound i r').sealing = .clear := hsealing₄
        exact ⟨i, openHeaders_of_clear hsealing', hi, hbytes⟩ }
    exact hline.bind <|
      (Replays.of_mirrors (fun _ => .check _) (.check _) hqueued hparse).bind <|
      (Replays.of_mirrors (decide_mirrors_inbound line) (decide_keeps line) hqueued
        hdecide).bind <|
      (Replays.of_mirrors (grant_mirrors_inbound line access) hgranted hqueued hgrant).bind <|
      hopens.bind (.of_mirrors (fun _ => .pure _) (.pure _) hopens.queued rfl)

/-! ## The whole reading -/

/-- What the reading of a request takes, as long as nothing is sealed. -/
def pieces (gate : Gate) (r : Reading) : List Piece :=
  match readRequestLine gate r with
  | .ok phase r₁ => .line (nextRaw r.inbound.unread) :: piecesAfter gate { r₁ with phase }
  | .error _ _ => []

variable {input : Bytes} {s : Store} {request : Request}

theorem finish_replays (hclear : ∀ line, Opens input line → line.cipher = .none)
    (hclean : ∀ piece ∈ pieces gate (start input s), piece.Clean)
    (h : finish gate (start input s) = .ok request r) :
    Replays (finish gate) (start input s) request r (pieces gate (start input s)) := by
  obtain ⟨phase, r₁, hline, hloop, rfl⟩ := (finish_eq_ok rfl).1 h
  have hpieces : pieces gate (start input s) =
      [.line (nextRaw input)] ++ piecesAfter gate { r₁ with phase } := by
    unfold pieces
    rw [hline]
    rfl
  rw [hpieces] at hclean ⊢
  obtain ⟨hfirst, hrest⟩ := List.forall_mem_append.1 hclean
  obtain ⟨hsealing, hreplays⟩ :=
    readRequestLine_replays rfl rfl hclear (List.forall_mem_singleton.1 hfirst) hline
  have hafter : Replays (fun r => proceed gate { r with phase }) r₁ () r
      (piecesAfter gate { r₁ with phase }) := by
    have hproceed := proceed_replays (r := { r₁ with phase }) hreplays.queued hrest hloop
    exact ⟨hproceed.unread, hproceed.queued, hproceed.again⟩
  have hboth : Replays (readRequestLine gate >>= fun phase r => proceed gate { r with phase })
      (start input s) () r ([.line (nextRaw input)] ++ piecesAfter gate { r₁ with phase }) :=
    hreplays.bind hafter
  refine ⟨hboth.unread, hboth.queued, fun hrelined i rest hi hbytes => ?_⟩
  obtain ⟨i', hagain, hi', hleft⟩ := hboth.again hrelined hi hbytes
  obtain ⟨phase', r₂, hline', hloop'⟩ := bind_eq_ok.1 hagain
  exact ⟨i', (finish_eq_ok rfl).2 ⟨phase', r₂, hline', hloop', rfl⟩, hi', hleft⟩

/-- With other line ends, the same request is read, with the same effect on the store. -/
theorem parse_relined (hclear : ∀ line, Opens input line → line.cipher = .none)
    (hclean : ∀ piece ∈ pieces gate (start input s), piece.Clean)
    (h : parse gate (start input s) = .ok (some request) r) :
    input = joined (pieces gate (start input s)) ++ r.inbound.unread ∧
      ∀ {others : List Piece}, List.Forall₂ Relined others (pieces gate (start input s)) →
        ∃ i, parse gate (start (joined others ++ r.inbound.unread) s) =
          .ok (some request) (withInbound i r) ∧ i.unread = r.inbound.unread := by
  have hreplays := finish_replays hclear hclean (parse_eq_some.1 h)
  refine ⟨hreplays.unread, fun hrelined => ?_⟩
  obtain ⟨i, hagain, _, hleft⟩ := hreplays.again
    (i := { unread := joined _ ++ r.inbound.unread }) hrelined rfl rfl
  exact ⟨i, parse_eq_some.2 hagain, hleft⟩

end Reading

/-! ## Exchanges -/

/-- A notification without the time. -/
def Notification.undated (n : Notification) : Notification := { n with timestamp := 0 }

namespace Service

open Piece

variable {service : Service} {world : World} {input : Bytes} {request : Request} {r : Reading}

/-- Of a request that is read to its end while nothing is sealed, any choice of line ends may lack
their carriage returns, now or at another time: the answer is the same, and so is everything that
comes of it. -/
theorem handle_relined
    (hparse : Reading.parse service.gate (.start input world.store) = .ok (some request) r)
    (hclear : ∀ line, Opens input line → line.cipher = .none)
    (hclean : ∀ piece ∈ Reading.pieces service.gate (.start input world.store), piece.Clean)
    {others : List Piece}
    (hrelined : List.Forall₂ Relined others
      (Reading.pieces service.gate (.start input world.store))) (now : Int) :
    let o := service.handle world input
    let o' := (service.atTime now).handle world (joined others ++ o.rest)
    input = joined (Reading.pieces service.gate (.start input world.store)) ++ o.rest ∧
      o'.handled = o.handled ∧ o'.output = o.output ∧ o'.rest = o.rest ∧ o'.world = o.world ∧
      o'.shown.map Notification.undated = o.shown.map Notification.undated := by
  intro o o'
  obtain ⟨hrest, hstore⟩ := rest_of_parse hparse
  obtain ⟨hinput, hagain⟩ := Reading.parse_relined hclear hclean hparse
  obtain ⟨i, hparse', hi⟩ := hagain hrelined
  rw [← hrest] at hinput hparse'
  have htime : Reading.timelessly (Reading.parse (service.atTime now).gate
      (.start (joined others ++ o.rest) world.store)) =
        .ok (some request.undated) (Reading.withInbound i r).untimed := by
    change Reading.timelessly (Reading.parse { service.gate with now } _) = _
    rw [Reading.parse_at_other_time, hparse']
    rfl
  obtain ⟨request', r', hparse'', hundated, huntimed⟩ := Reading.eq_some_of_timelessly htime
  obtain ⟨hrest', hstore'⟩ := rest_of_parse hparse''
  have hagrees : Outcome.Agrees Notification.undated o o' :=
    agrees_of_parse hparse hparse'' request.resembles_undated
      (hundated ▸ request'.resembles_undated) rfl rfl
  have hinbound : r'.untimed.inbound = (Reading.withInbound i r).untimed.inbound :=
    congrArg Reading.inbound huntimed
  have hsame : r'.untimed.store = (Reading.withInbound i r).untimed.store :=
    congrArg Reading.store huntimed
  have hworld : o'.world = o.world := by
    have hkept : o'.world.store = o.world.store :=
      hstore'.trans ((hsame : r'.store = r.store).trans hstore.symm)
    cases hw : o.world
    cases hw' : o'.world
    rw [hw, hw'] at hkept
    have hregistry := hagrees.registry
    rw [hw, hw'] at hregistry
    rw [World.mk.injEq]
    exact ⟨hregistry, hkept⟩
  refine ⟨hinput, ?_, ?_, ?_, hworld, hagrees.shown⟩
  · rw [Outcome.handled, hagrees.response, Outcome.handled]
  · rw [Outcome.output, hagrees.response, Outcome.output]
  · exact hrest'.trans ((congrArg Inbound.unread hinbound).trans (hi.trans hrest.symm))

/-- The lines of a registration up to the payload of its icon. -/
def lettered : List Bytes :=
  [ascii "GNTP/1.0 REGISTER NONE", ascii "Application-Name: A",
    ascii "Application-Icon: x-growl-resource://i", ascii "Notifications-Count: 0", [],
    ascii "Identifier: i", ascii "Length: 2", []]

/-- The lines with this line end, and a payload that looks like a line end itself. -/
def letteredPieces (lineEnd : Bytes) : List Piece :=
  lettered.map (fun text => .line (text ++ lineEnd)) ++ [.payload crlf, .line crlf]

theorem relined_lettered : List.Forall₂ Relined (letteredPieces [lf]) (letteredPieces crlf) := by
  refine List.rel_append ?_ (.cons (.same _) (.cons (.same _) .nil))
  rw [List.forall₂_map_left_iff, List.forall₂_map_right_iff]
  exact List.forall₂_same.2 fun text _ => .bare text

theorem clean_lettered : ∀ piece ∈ letteredPieces crlf, piece.Clean := by
  intro piece hpiece
  have hunended : ∀ text ∈ lettered, text.getLast? ≠ some cr := by decide
  rcases List.mem_append.1 hpiece with hline | hlast
  · obtain ⟨text, htext, rfl⟩ := List.mem_map.1 hline
    exact ⟨text, rfl, hunended text htext⟩
  · rcases List.mem_cons.1 hlast with rfl | hblank
    · exact trivial
    · obtain rfl := List.mem_singleton.1 hblank
      exact ⟨[], rfl, nofun⟩

theorem handle_relined_lettered :
    let service : Service := { gate := { suite := .full } }
    let world : World := { store := .memory { limit := 2 } }
    let o := service.handle world (joined (letteredPieces crlf))
    let o' := (service.atTime 5).handle world (joined (letteredPieces [lf]))
    o.response.map Response.status = some .ok ∧ o.world ≠ world ∧
      o'.output = o.output ∧ o'.world = o.world := by
  intro service world o o'
  have hstatus : o.response.map Response.status = some .ok := by decide +kernel
  have hdone : o.rest = [] ∧ o.world ≠ world := by decide +kernel
  have hpieces : Reading.pieces service.gate (.start (joined (letteredPieces crlf)) world.store) =
      letteredPieces crlf := by
    decide +kernel
  have hopens : Opens (joined (letteredPieces crlf)) ⟨.register, .none, [], none⟩ :=
    ⟨by decide +kernel, by decide +kernel⟩
  have hclear : ∀ line, Opens (joined (letteredPieces crlf)) line → line.cipher = .none := by
    intro line hline
    rw [hline.unique hopens]
  obtain ⟨response, hresponse, hok⟩ := Option.map_eq_some_iff.1 hstatus
  obtain ⟨request, r, hparse, _⟩ := parse_of_accepted hresponse hok
  have hsame := handle_relined hparse hclear (hpieces.symm ▸ clean_lettered)
    (hpieces.symm ▸ relined_lettered) 5
  obtain ⟨_, _, houtput, _, hworld, _⟩ := hsame
  have hrest : joined (letteredPieces [lf]) ++ o.rest = joined (letteredPieces [lf]) := by
    rw [hdone.1, List.append_nil]
  change ((service.atTime 5).handle world (joined (letteredPieces [lf]) ++ o.rest)).output = _
    at houtput
  change ((service.atTime 5).handle world (joined (letteredPieces [lf]) ++ o.rest)).world = _
    at hworld
  rw [hrest] at houtput hworld
  exact ⟨hstatus, hdone.2, houtput, hworld⟩

end Service

end Gntp
