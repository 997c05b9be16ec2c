import Gntp.Proofs.Authenticity
import Gntp.Proofs.Run

/-!
# What the request line settles

The request line settles what kind of request is read, whether it is ignored, and how it is opened;
nothing after it changes that, and the store of an ignored request is not touched at all
(`step_keeps_settled`, `proceed_keeps_settled`). So whatever a complete request carries was granted
to the first line of the input (`granted_of_parse`), and the requests of those who are not
authorized are ignored (`ignored_of_parse`) and leave the store alone (`store_of_parse`).
-/

namespace Gntp

open Gntp.Action

/-- What a reader has made sure of when it goes past the request line of an input. -/
structure Granted (gate : Gate) (input : Bytes) (line : RequestLine) (access : Access) : Prop where
  opens : Opens input line
  decided : Access.decide gate.suite gate.keyring gate.policy line = .ok access

theorem Granted.authentic {gate : Gate} {input : Bytes} {line : RequestLine} {key : Bytes}
    (h : Granted gate input line (.authorized key)) : line.Authentic gate.suite gate.keyring :=
  Access.authentic_of_decide h.decided

/-- No request line that the input opens with is granted more than to be ignored. -/
def Unauthorized (gate : Gate) (input : Bytes) : Prop :=
  ∀ line key, ¬ Granted gate input line (.authorized key)

theorem unauthorized_of_not_authentic {gate : Gate} {input : Bytes}
    (h : ∀ line, Opens input line → ¬ line.Authentic gate.suite gate.keyring) :
    Unauthorized gate input := fun line _ hg => h line hg.opens hg.authentic

/-- What the request line settles for the rest of a reading. -/
structure Settled where
  messageType : MessageType
  ignored : Bool
  receivedAt : Int
  sealing : Sealing
  /-- The store of an ignored request. -/
  untouched : Option Store

/-- A line that comes off the front of an input is its first line. -/
theorem Inbound.firstLine_of_takeLine {i i' : Inbound} {line : Bytes} (hq : i.queued = [])
    (h : takeLine i = .ok (some line) i') :
    (i.unread.takeWhile (· ≠ Bytes.lf)).length ≤ maxLine ∧ line = firstLine i.unread := by
  obtain ⟨unread, queued, consumed⟩ := i
  cases hq
  cases unread with
  | nil => cases h
  | cons b rest =>
    simp only [takeLine] at h
    split at h
    · cases h
    · next hl =>
      cases h
      exact ⟨Nat.le_of_not_lt hl, rfl⟩

namespace Reading

variable {gate : Gate} {r r' : Reading}

def settled (r : Reading) : Settled where
  messageType := r.request.messageType
  ignored := r.request.ignored
  receivedAt := r.request.receivedAt
  sealing := r.sealing
  untouched := if r.request.ignored then some r.store else none

theorem bystander_settled : Bystander settled := fun _ _ _ _ _ _ => rfl

/-! ## After the request line -/

theorem settled_resume (left : Receiving) : settled (r.resume left) = settled r := by
  unfold settled resume
  cases r.request.ignored <;> rfl

/-- The payloads of an ignored request do not reach the store. -/
theorem receive_keeps_settled (suite : Suite) : Keeps settled (receive suite) := by
  intro r
  unfold final receive
  cases Payload.receive suite r.sealing r.block r.receiving with
  | ok resource left => exact settled_resume left
  | error failure left => exact settled_resume left

theorem readResourceData_keeps_settled (suite : Suite) : Keeps settled (readResourceData suite) :=
  .bind .get fun _ => .bind (.check _) fun _ => .bind (receive_keeps_settled suite) fun resource =>
    attach_keeps bystander_settled resource

theorem step_keeps_settled (hp : r.phase.isUnderWay) :
    settled ((step gate).final r) = settled r := by
  rw [final_congr step_eq]
  have hn : Keeps settled nextLine := nextLine_keeps fun _ _ => rfl
  cases h : r.phase with
  | requestLine | complete | answered => rw [h] at hp; cases hp
  | requestHeaders => exact Keeps.bind hn (requestHeader_keeps bystander_settled) r
  | typeHeaders => exact Keeps.bind hn (typeHeader_keeps bystander_settled) r
  | resourceHeaders => exact Keeps.bind hn (resourceHeader_keeps bystander_settled) r
  | resourceData => exact readResourceData_keeps_settled gate.suite r

theorem advance_keeps_settled (hp : r.phase.isUnderWay) :
    settled ((advance gate).final r) = settled r := by
  have hs : settled ((step gate).final r) = settled r := step_keeps_settled hp
  unfold advance
  rw [final_bind]
  cases h : step gate r with
  | ok phase r₁ =>
    rw [final_of_ok h] at hs
    exact hs
  | error failure r₁ =>
    rw [final_of_error h] at hs
    exact hs

theorem proceed_keeps_settled : Keeps settled (proceed gate) :=
  proceed_keeps fun _ => advance_keeps_settled

/-! ## The request line -/

/-- The request line has no business with the store. -/
theorem readRequestLine_keeps_store : Keeps store (readRequestLine gate) := by
  have hi {α : Type} (action : Action Inbound α) : Keeps store (onInbound action) :=
    onInbound_keeps (fun _ _ => rfl) action
  refine .bind (hi _) fun text? => ?_
  cases text? with
  | none => exact .throw _
  | some text =>
    exact .bind (.check _) fun line => .bind (decide_keeps line) fun access =>
      .bind (grant_keeps (fun _ _ _ => rfl) line access) fun _ =>
        .bind (.bind .get fun _ => hi _) fun _ => .pure _

/-- What the reader takes note of on its way past the request line. -/
theorem request_of_grant {line : RequestLine} {access : Access}
    (h : grant gate line access r = .ok () r') :
    r'.request = { r.request with
      messageType := line.messageType
      ignored := access = .ignored
      receivedAt := gate.now } := by
  obtain ⟨_, r₁, h₁, h⟩ := bind_eq_ok.1 h
  cases h₁
  split at h
  · obtain ⟨sealing, r₂, h₂, h⟩ := bind_eq_ok.1 h
    have hr := (Keeps.check _ : Keeps request _).of_ok h₂
    cases h
    exact hr
  · cases h
    rfl

theorem granted_of_readRequestLine {phase : Phase} (hq : r.inbound.queued = [])
    (h : readRequestLine gate r = .ok phase r') :
    phase = .requestHeaders ∧ ∃ line access, Granted gate r.inbound.unread line access ∧
      r'.request = { r.request with
        messageType := line.messageType
        ignored := access = .ignored
        receivedAt := gate.now } := by
  obtain ⟨text, i, line, access, r₁, htake, hparsed, hdecided, hgrant, hopen, rfl⟩ :=
    readRequestLine_eq_ok.1 h
  obtain ⟨hshort, rfl⟩ := Inbound.firstLine_of_takeLine hq htake
  refine ⟨rfl, line, access, ⟨⟨hshort, hparsed⟩, hdecided⟩, ?_⟩
  have hopens : Keeps request (openHeaders gate) :=
    .bind .get fun _ => onInbound_keeps (fun _ _ => rfl) _
  rw [hopens.of_ok hopen, request_of_grant hgrant]

/-! ## Past the request line -/

/-- What follows the decision on a request line: its sealing is granted, and headers are opened. -/
def settle (gate : Gate) (line : RequestLine) (access : Access) : Action Reading Phase := do
  grant gate line access
  openHeaders gate
  pure .requestHeaders

/-- Once a line was taken, it is decided whether to settle it. -/
theorem readRequestLine_of_taken {text : Bytes} {inbound : Inbound}
    (htake : Inbound.takeLine r.inbound = .ok (some text) inbound) :
    readRequestLine gate r = (check (RequestLine.parse text) >>= fun line =>
      decide gate line >>= settle gate line) { r with inbound } := by
  unfold readRequestLine
  rw [bind_of_ok (onInbound_eq_ok.2 ⟨inbound, htake, rfl⟩)]
  rfl

theorem readRequestLine_of_decided {text : Bytes} {inbound : Inbound} {line : RequestLine}
    {access : Access} (htake : Inbound.takeLine r.inbound = .ok (some text) inbound)
    (hparse : RequestLine.parse text = .ok line)
    (hdecide : Access.decide gate.suite gate.keyring gate.policy line = .ok access) :
    readRequestLine gate r = settle gate line access { r with inbound } := by
  rw [readRequestLine_of_taken htake, bind_of_ok (check_eq_ok.2 ⟨hparse, rfl⟩),
    bind_of_ok (decide_eq_ok.2 ⟨hdecide, rfl⟩)]

/-- The reading with everything that is granted to its request line. -/
def past (gate : Gate) (line : RequestLine) (access : Access) (sealing : Sealing) (r : Reading) :
    Reading := { r with
  request := { r.request with
    messageType := line.messageType
    ignored := access = .ignored
    receivedAt := gate.now }
  sealing }

theorem grant_of_sealing {line : RequestLine} {access : Access} {sealing : Sealing}
    (hclear : r.sealing = .clear) (h : Access.sealing line access.key = .ok sealing) :
    grant gate line access r = .ok () (past gate line access sealing r) := by
  unfold grant
  by_cases hcipher : line.cipher = .none
  · obtain ⟨phase, inbound, store, request, _, block, typeCount⟩ := r
    cases hclear
    have hnone : Access.sealing line access.key = .ok .clear := if_pos hcipher
    cases hnone.symm.trans h
    rw [if_neg (not_not_intro hcipher)]
    rfl
  · rw [if_pos hcipher, h]
    rfl

/-- What is granted is in force when the sealed headers are taken. -/
theorem settle_of_sealing {line : RequestLine} {access : Access} {sealing : Sealing}
    (hclear : r.sealing = .clear) (h : Access.sealing line access.key = .ok sealing) :
    settle gate line access r = (openHeaders gate >>= fun _ => pure .requestHeaders)
      (past gate line access sealing r) := bind_of_ok (grant_of_sealing hclear h)

/-- In the clear nothing is opened. -/
theorem settle_of_clear {line : RequestLine} {access : Access} (hclear : r.sealing = .clear)
    (hcipher : line.cipher = .none) :
    settle gate line access r = .ok .requestHeaders (past gate line access .clear r) :=
  settle_of_sealing hclear (if_pos hcipher)

/-- A sealed block is opened with what was granted. -/
theorem settle_of_opened {line : RequestLine} {access : Access} {sealing : Sealing}
    {inbound : Inbound} (hclear : r.sealing = .clear)
    (hsealing : Access.sealing line access.key = .ok sealing)
    (hopen : Inbound.takeSealedBlock gate.suite sealing r.inbound = .ok () inbound) :
    settle gate line access r =
      .ok .requestHeaders { past gate line access sealing r with inbound } := by
  have hopened : openHeaders gate (past gate line access sealing r) =
      .ok () { past gate line access sealing r with inbound } :=
    onInbound_eq_ok.2 ⟨inbound, hopen, rfl⟩
  rw [settle_of_sealing hclear hsealing, bind_of_ok hopened]
  rfl

/-! ## The whole reading -/

variable {input : Bytes} {s : Store}

/-- A complete request is what its request line was granted. -/
theorem granted_of_parse {request : Request}
    (h : parse gate (start input s) = .ok (some request) r) :
    ∃ line access, Granted gate input line access ∧ request.messageType = line.messageType ∧
      (request.ignored = true ↔ access = .ignored) ∧ request.receivedAt = gate.now := by
  obtain ⟨phase, r₁, h₁, h₂, rfl⟩ := (finish_eq_ok rfl).1 (parse_eq_some.1 h)
  obtain ⟨rfl, line, access, hg, hr⟩ := granted_of_readRequestLine rfl h₁
  have hs : settled r = settled { r₁ with phase := .requestHeaders } :=
    proceed_keeps_settled.of_ok h₂
  refine ⟨line, access, hg, ?_, ?_, ?_⟩
  · calc r.request.messageType = r₁.request.messageType := congrArg Settled.messageType hs
      _ = line.messageType := by rw [hr]
  · have hi : r.request.ignored = r₁.request.ignored := congrArg Settled.ignored hs
    rw [hi, hr]
    exact decide_eq_true_iff
  · calc r.request.receivedAt = r₁.request.receivedAt := congrArg Settled.receivedAt hs
      _ = gate.now := by rw [hr]

/-- An ignored request leaves the store alone to its end. -/
theorem store_of_proceed (hi : r.request.ignored = true) :
    ((proceed gate).final r).store = r.store := by
  have hs : settled ((proceed gate).final r) = settled r := proceed_keeps_settled r
  have hi' : ((proceed gate).final r).request.ignored = true :=
    (congrArg Settled.ignored hs).trans hi
  have hu := congrArg Settled.untouched hs
  simpa only [settled, hi, hi', if_true, Option.some.injEq] using hu

/-! ## Without authorization -/

theorem ignored_of_readRequestLine {phase : Phase} (h : Unauthorized gate input)
    (hl : readRequestLine gate (start input s) = .ok phase r) : r.request.ignored = true := by
  obtain ⟨_, line, access, hg, hr⟩ := granted_of_readRequestLine rfl hl
  cases access with
  | authorized key => exact absurd hg (h line key)
  | ignored => rw [hr]; rfl

theorem ignored_of_parse {request : Request} (h : Unauthorized gate input)
    (hp : parse gate (start input s) = .ok (some request) r) : request.ignored = true := by
  obtain ⟨line, access, hg, _, hi, _⟩ := granted_of_parse hp
  cases access with
  | authorized key => exact absurd hg (h line key)
  | ignored => exact hi.2 rfl

/-- The store changes for an authorized sender only. -/
theorem store_of_parse (h : Unauthorized gate input) :
    ((parse gate).final (start input s)).store = s := by
  rw [final_parse, final_finish rfl]
  have hs : ((readRequestLine gate).final (start input s)).store = s :=
    readRequestLine_keeps_store _
  cases hl : readRequestLine gate (start input s) with
  | error failure r₁ =>
    rw [final_of_error hl] at hs
    exact hs
  | ok phase r₁ =>
    rw [final_of_ok hl] at hs
    have hi : r₁.request.ignored = true := ignored_of_readRequestLine h hl
    exact (store_of_proceed (r := { r₁ with phase }) hi).trans hs

end Reading

end Gntp
