import Gntp.Proofs.Framing

/-!
# What is taken off an input

Lines, bytes and sealed blocks are taken off one input in any order, and a call that fails is
followed by the next one (`takings`). Every call goes over a slice at the front of the input, counts
it, and gives what stands in it (`Taking.Lawful`); so the slices are the input up to where it is
left, in order, and the lines that were queued are given in order as well (`takings_account`).
-/

namespace Gntp.Inbound

open Gntp.Action Bytes

/-! ## Calls -/

/-- What can be taken off an input. -/
inductive Call where
  | line
  | bytes (count : Nat)
  | sealedBlock (suite : Suite) (sealing : Sealing)

/-- What a call that succeeds gives. -/
inductive Yield where
  /-- Nothing if nothing is left. -/
  | line (line? : Option Bytes)
  | bytes (data : Bytes)
  /-- The lines of a sealed block are queued. -/
  | opened
  deriving DecidableEq

/-- A call on an input and what comes of it. -/
structure Taking where
  call : Call
  before : Inbound
  outcome : Except Failure Yield
  after : Inbound

namespace Call

def take : Call → Action Inbound Yield
  | line => do return .line (← takeLine)
  | bytes count => do return .bytes (← takeBytes count)
  | sealedBlock suite sealing => do
    takeSealedBlock suite sealing
    return .opened

def on (call : Call) (i : Inbound) : Taking :=
  match call.take i with
  | .ok yield after => { call, before := i, outcome := .ok yield, after }
  | .error failure after => { call, before := i, outcome := .error failure, after }

variable {call : Call} {i i' : Inbound}

theorem on_of_ok {yield : Yield} (h : call.take i = .ok yield i') :
    call.on i = { call, before := i, outcome := .ok yield, after := i' } := by
  rw [on, h]

theorem on_of_error {failure : Failure} (h : call.take i = .error failure i') :
    call.on i = { call, before := i, outcome := .error failure, after := i' } := by
  rw [on, h]

end Call

/-- One call after the other, whatever comes of them. -/
def takings (i : Inbound) : List Call → List Taking
  | [] => []
  | call :: calls => call.on i :: takings (call.on i).after calls

/-- What is there after some calls. -/
def left (i : Inbound) : List Call → Inbound
  | [] => i
  | call :: calls => left (call.on i).after calls

/-! ## What a call does -/

/-- What comes of a call that goes over `slice` and leaves `rest` unread and these lines queued. -/
inductive Takes (i : Inbound) :
    Call → (slice rest : Bytes) → Except Failure Yield → (queued : List Bytes) → Prop
  /-- Queued lines come first. -/
  | queuedLine {line rest : Bytes} {others : List Bytes} : i.queued = line :: others →
    Takes i .line [] rest (.ok (.line (some line))) others
  /-- The line feed is no part of a line, and neither is a carriage return before it. -/
  | nextLine {slice text rest : Bytes} : i.queued = [] → FirstLine slice text rest →
    text.length ≤ maxLine →
    Takes i .line slice rest (.ok (.line (some (dropFinalCr text)))) []
  | noLine : i.queued = [] → Takes i .line [] [] (.ok (.line none)) []
  | longLine {slice rest : Bytes} : i.queued = [] → slice.length = maxLine + 1 → lf ∉ slice →
    Takes i .line slice rest (.error (.rejected .lineTooLong)) []
  | bytes {slice rest : Bytes} : i.queued = [] →
    Takes i (.bytes slice.length) slice rest (.ok (.bytes slice)) []
  | amongHeaders {count : Nat} {rest : Bytes} : i.queued ≠ [] →
    Takes i (.bytes count) [] rest (.error (.rejected .binaryAmongHeaders)) i.queued
  | fewBytes {count : Nat} {slice : Bytes} : i.queued = [] → slice.length < count →
    Takes i (.bytes count) slice []
      (.error (.truncated (.insidePayload (count - slice.length)))) []
  | nothingSealed {suite : Suite} {sealing : Sealing} {rest : Bytes} : sealing.enabled = false →
    Takes i (.sealedBlock suite sealing) [] rest (.ok .opened) i.queued
  /-- A sealed block ends at the first blank line. -/
  | opened {suite : Suite} {sealing : Sealing} {block text rest : Bytes} :
    sealing.enabled = true → (block ++ blankLine).length ≤ maxSealedBlock + 1 →
    (∀ before after, block ++ blankLine = before ++ blankLine ++ after → after = []) →
    sealing.decrypt suite block = .ok text →
    Takes i (.sealedBlock suite sealing) (block ++ blankLine) rest (.ok .opened)
      (closed (i.queued ++ linesOf text))
  | notOpened {suite : Suite} {sealing : Sealing} {block rest : Bytes} {fault : CipherFault} :
    sealing.enabled = true → (block ++ blankLine).length ≤ maxSealedBlock + 1 →
    (∀ before after, block ++ blankLine = before ++ blankLine ++ after → after = []) →
    sealing.decrypt suite block = .error fault →
    Takes i (.sealedBlock suite sealing) (block ++ blankLine) rest (.error (.cipher fault)) i.queued
  | unended {suite : Suite} {sealing : Sealing} {slice : Bytes} : sealing.enabled = true →
    ¬ blankLine <:+: slice → slice.length ≤ maxSealedBlock →
    Takes i (.sealedBlock suite sealing) slice [] (.error (.truncated .insideSealedBlock)) i.queued
  | longBlock {suite : Suite} {sealing : Sealing} {slice rest : Bytes} : sealing.enabled = true →
    ¬ blankLine <:+: slice → slice.length = maxSealedBlock + 1 →
    Takes i (.sealedBlock suite sealing) slice rest
      (.error (.rejected .sealedBlockTooLarge)) i.queued

namespace Taking

/-- The bytes that were counted, from where the call found the input. -/
def slice (t : Taking) : Bytes := t.before.unread.take (t.after.consumed - t.before.consumed)

/-- The line that was taken from the queue. -/
def delivered (t : Taking) : List Bytes :=
  match t.before.queued, t.outcome with
  | _ :: _, .ok (.line (some line)) => [line]
  | _, _ => []

/-- The lines that were added to the queue. -/
def enqueued (t : Taking) : List Bytes :=
  match t.outcome with
  | .ok .opened => t.after.queued.drop t.before.queued.length
  | _ => []

/-- A call goes over its slice and over nothing else, and makes of it what it should. -/
structure Lawful (t : Taking) : Prop where
  unread : t.before.unread = t.slice ++ t.after.unread
  consumed : t.after.consumed = t.before.consumed + t.slice.length
  takes : Takes t.before t.call t.slice t.after.unread t.outcome t.after.queued

theorem lawful_of_takes {t : Taking} {slice : Bytes}
    (hunread : t.before.unread = slice ++ t.after.unread)
    (hconsumed : t.after.consumed = t.before.consumed + slice.length)
    (htakes : Takes t.before t.call slice t.after.unread t.outcome t.after.queued) : t.Lawful := by
  obtain rfl : slice = t.slice := by
    rw [Taking.slice, hconsumed, Nat.add_sub_cancel_left, hunread, List.take_left]
  exact ⟨hunread, hconsumed, htakes⟩

theorem prefix_closed (lines : List Bytes) : lines <+: closed lines := by
  unfold closed
  split
  · exact List.prefix_rfl
  · exact List.prefix_append _ _

/-- Lines join the queue at its end and leave it at its front. -/
theorem Lawful.queue {t : Taking} (h : t.Lawful) :
    t.before.queued ++ t.enqueued = t.delivered ++ t.after.queued := by
  have htakes := h.takes
  unfold enqueued delivered
  generalize t.call = call at htakes
  generalize t.slice = slice at htakes
  generalize t.after.unread = rest at htakes
  generalize t.outcome = outcome at htakes ⊢
  generalize t.after.queued = queued at htakes ⊢
  cases htakes with
  | queuedLine hq => simp [hq]
  | nextLine hq | noLine hq | longLine hq | bytes hq | fewBytes hq => simp [hq]
  | @opened _ _ _ text =>
    obtain ⟨more, hmore⟩ : t.before.queued <+: closed (t.before.queued ++ linesOf text) :=
      (List.prefix_append _ _).trans (prefix_closed _)
    simp [← hmore]
  | _ => simp

end Taking

/-! ## One call -/

theorem on_line_lawful (i : Inbound) : (Call.line.on i).Lawful := by
  cases hq : i.queued with
  | cons line others =>
    have htake : takeLine i = .ok (some line) { i with queued := others } := by
      unfold takeLine
      rw [hq]
    rw [Call.on_of_ok (bind_of_ok htake)]
    exact Taking.lawful_of_takes rfl rfl (.queuedLine hq)
  | nil =>
    by_cases hne : i.unread = []
    · have htake : takeLine i = .ok none i := by
        unfold takeLine
        rw [hq, hne]
      rw [Call.on_of_ok (bind_of_ok htake)]
      exact Taking.lawful_of_takes rfl rfl (by rw [hq, hne]; exact .noLine hq)
    · obtain ⟨raw, text, rest, hfirst, hunread⟩ := exists_firstLine hne
      by_cases hshort : text.length ≤ maxLine
      · have htake := takeLine_of_firstLine hq hfirst hshort hunread
        rw [Call.on_of_ok (bind_of_ok htake)]
        exact Taking.lawful_of_takes hunread rfl (by rw [hq]; exact .nextLine hq hfirst hshort)
      · have htext : i.unread.takeWhile (· ≠ lf) = text := by rw [hunread, hfirst.takeWhile_eq]
        have hlong : maxLine < (i.unread.takeWhile (· ≠ lf)).length :=
          htext ▸ Nat.lt_of_not_le hshort
        obtain ⟨hlength, hlf⟩ := take_of_long hlong
        rw [Call.on_of_error (bind_of_error (takeLine_of_long hq hlong))]
        exact Taking.lawful_of_takes (List.take_append_drop _ _).symm (by rw [hlength])
          (by rw [hq]; exact .longLine hq hlength hlf)

theorem on_bytes_lawful (count : Nat) (i : Inbound) : ((Call.bytes count).on i).Lawful := by
  by_cases hq : i.queued = []
  · by_cases hlong : count ≤ i.unread.length
    · obtain ⟨data, rest, rfl, hunread⟩ : ∃ data rest, data.length = count ∧
          i.unread = data ++ rest :=
        ⟨i.unread.take count, i.unread.drop count, List.length_take_of_le hlong,
          (List.take_append_drop _ _).symm⟩
      rw [Call.on_of_ok (bind_of_ok (takeBytes_of_append hq hunread))]
      exact Taking.lawful_of_takes hunread rfl (by rw [hq]; exact .bytes hq)
    · have hshort : i.unread.length < count := Nat.lt_of_not_le hlong
      rw [Call.on_of_error (bind_of_error (takeBytes_of_short hq hshort))]
      exact Taking.lawful_of_takes (List.append_nil _).symm rfl
        (by rw [hq]; exact .fewBytes hq hshort)
  · rw [Call.on_of_error (bind_of_error (takeBytes_of_queued hq))]
    exact Taking.lawful_of_takes rfl rfl (.amongHeaders hq)

/-- A block that is complete, opened or not. -/
theorem on_sealedBlock_of_block {suite : Suite} {sealing : Sealing} {i : Inbound}
    {block rest : Bytes} (he : sealing.enabled = true) (hblock : Delimited block)
    (hshort : block.length + blankLine.length ≤ maxSealedBlock + 1)
    (hunread : i.unread = block ++ blankLine ++ rest) :
    ((Call.sealedBlock suite sealing).on i).Lawful := by
  have hlength : block.length + blankLine.length = (block ++ blankLine).length :=
    List.length_append.symm
  cases hopens : sealing.decrypt suite block with
  | ok text =>
    rw [Call.on_of_ok (bind_of_ok (takeSealedBlock_of_block he hblock hshort hunread hopens))]
    exact Taking.lawful_of_takes hunread (congrArg (i.consumed + ·) hlength)
      (.opened he (hlength ▸ hshort) hblock.first hopens)
  | error fault =>
    rw [Call.on_of_error (bind_of_error
      (takeSealedBlock_of_fault he hblock hshort hunread hopens))]
    exact Taking.lawful_of_takes hunread (congrArg (i.consumed + ·) hlength)
      (.notOpened he (hlength ▸ hshort) hblock.first hopens)

theorem on_sealedBlock_lawful (suite : Suite) (sealing : Sealing) (i : Inbound) :
    ((Call.sealedBlock suite sealing).on i).Lawful := by
  cases he : sealing.enabled with
  | false =>
    rw [Call.on_of_ok (bind_of_ok (takeSealedBlock_of_clear he))]
    exact Taking.lawful_of_takes rfl rfl (.nothingSealed he)
  | true =>
    cases hfound : beforeBlankLine [] (i.unread.take (maxSealedBlock + 1)) with
    | some block =>
      obtain ⟨hblock, hshort, rest, hunread⟩ := delimited_of_window hfound
      exact on_sealedBlock_of_block he hblock hshort hunread
    | none =>
      have hnone := beforeBlankLine_eq_none.1 hfound
      by_cases hshort : i.unread.length ≤ maxSealedBlock
      · rw [List.take_of_length_le (Nat.le_succ_of_le hshort)] at hnone
        rw [Call.on_of_error (bind_of_error (takeSealedBlock_of_unended he hnone hshort))]
        exact Taking.lawful_of_takes (List.append_nil _).symm rfl (.unended he hnone hshort)
      · have hlong : (i.unread.take (maxSealedBlock + 1)).length = maxSealedBlock + 1 :=
          List.length_take_of_le (Nat.lt_of_not_le hshort)
        have hsplit := (List.take_append_drop (maxSealedBlock + 1) i.unread).symm
        rw [Call.on_of_error (bind_of_error (takeSealedBlock_of_oversized he hsplit hnone hlong))]
        exact Taking.lawful_of_takes hsplit rfl (.longBlock he hnone hlong)

theorem Call.on_lawful (call : Call) (i : Inbound) : (call.on i).Lawful := by
  cases call with
  | line => exact on_line_lawful i
  | bytes count => exact on_bytes_lawful count i
  | sealedBlock suite sealing => exact on_sealedBlock_lawful suite sealing i

theorem Taking.Lawful.counted {t : Taking} (h : t.Lawful) :
    t.after.consumed + t.after.unread.length = t.before.consumed + t.before.unread.length := by
  rw [h.unread, h.consumed, List.length_append, Nat.add_assoc]

/-! ## Many calls -/

/-- How calls account for an input: each does what it should with its slice, and nothing is lost,
repeated or exchanged between them. -/
structure Accounted (first : Inbound) (taken : List Taking) (last : Inbound) : Prop where
  lawful : ∀ t ∈ taken, t.Lawful
  counted : ∀ t ∈ taken,
    t.after.consumed + t.after.unread.length = first.consumed + first.unread.length
  total : last.consumed + last.unread.length = first.consumed + first.unread.length
  slices : first.unread = taken.flatMap Taking.slice ++ last.unread
  queue : first.queued ++ taken.flatMap Taking.enqueued =
    taken.flatMap Taking.delivered ++ last.queued

namespace Accounted

theorem nil (i : Inbound) : Accounted i [] i where
  lawful := nofun
  counted := nofun
  total := rfl
  slices := rfl
  queue := List.append_nil _

/-- A call comes before others. -/
theorem cons {t : Taking} {taken : List Taking} {last : Inbound} (ht : t.Lawful)
    (h : Accounted t.after taken last) : Accounted t.before (t :: taken) last where
  lawful := List.forall_mem_cons.2 ⟨ht, h.lawful⟩
  counted := List.forall_mem_cons.2
    ⟨ht.counted, fun other hmem => (h.counted other hmem).trans ht.counted⟩
  total := h.total.trans ht.counted
  slices := by rw [ht.unread, h.slices, List.flatMap_cons, List.append_assoc]
  queue := by
    calc t.before.queued ++ (t :: taken).flatMap Taking.enqueued
        = (t.before.queued ++ t.enqueued) ++ taken.flatMap Taking.enqueued := by
          rw [List.flatMap_cons, List.append_assoc]
      _ = t.delivered ++ (t.after.queued ++ taken.flatMap Taking.enqueued) := by
          rw [ht.queue, List.append_assoc]
      _ = (t :: taken).flatMap Taking.delivered ++ last.queued := by
          rw [h.queue, List.flatMap_cons, List.append_assoc]

end Accounted

theorem before_on (call : Call) (i : Inbound) : (call.on i).before = i := by
  unfold Call.on
  split <;> rfl

theorem accounted_takings (i : Inbound) (calls : List Call) :
    Accounted i (takings i calls) (left i calls) := by
  induction calls generalizing i with
  | nil => exact .nil i
  | cons call calls ih =>
    have hcons := Accounted.cons (call.on_lawful i) (ih (call.on i).after)
    rw [before_on] at hcons
    exact hcons

/-- Whatever is called on an input and whether it succeeds or fails: what was counted and what is
unread make up the input, the slices stand in it one after the other, and the lines of the queue are
given in order. -/
theorem takings_account (input : Bytes) (calls : List Call) :
    let taken := takings { unread := input } calls
    let last := left { unread := input } calls
    (∀ t ∈ taken, t.Lawful) ∧
    (∀ t ∈ taken, t.after.consumed + t.after.unread.length = input.length) ∧
    last.consumed + last.unread.length = input.length ∧
    input = taken.flatMap Taking.slice ++ last.unread ∧
    taken.flatMap Taking.enqueued = taken.flatMap Taking.delivered ++ last.queued := by
  intro taken last
  have haccounted : Accounted { unread := input } taken last := accounted_takings _ calls
  refine ⟨haccounted.lawful, fun t hmem => ?_, ?_, haccounted.slices, haccounted.queue⟩
  · exact (haccounted.counted t hmem).trans (Nat.zero_add _)
  · exact haccounted.total.trans (Nat.zero_add _)

end Gntp.Inbound
