import Gntp.Proofs.CipherSessions
import Gntp.Proofs.LineLimit
import Gntp.Proofs.SealedHeaders

/-!
# Lines out of a sealed block

An input that starts with a sealed block gives the lines of the text that the block opens to, then
a blank line if that text does not end with one, and then the lines of what follows
(`takings_sealed`). The limit is put to what is read of the input, though: the blank line behind
the block counts, so a block of `maxSealedBlock` bytes is refused (`not_opened_of_full`).
-/

namespace Gntp.Inbound

open Gntp.Action Bytes

/-! ## Lines of a text -/

/-- A text and its lines, without their line feeds. -/
inductive Lined : Bytes → List Bytes → Prop
  | nil : Lined [] []
  | cons {raw text rest : Bytes} {lines : List Bytes} : FirstLine raw text rest →
    Lined rest lines → Lined (raw ++ rest) (text :: lines)

namespace FirstLine

variable {raw text rest : Bytes}

theorem ne_nil (h : FirstLine raw text rest) : raw ≠ [] := by
  rcases h.ended with rfl | ⟨rfl, hne, _⟩
  · exact List.append_ne_nil_of_right_ne_nil _ (List.cons_ne_nil _ _)
  · exact hne

end FirstLine

theorem exists_lined (s : Bytes) : ∃ lines, Lined s lines := by
  induction hn : s.length using Nat.strong_induction_on generalizing s with
  | _ n ih =>
    by_cases hne : s = []
    · exact ⟨[], hne ▸ .nil⟩
    · obtain ⟨raw, text, rest, hfirst, rfl⟩ := exists_firstLine hne
      have hraw := List.length_pos_iff.2 hfirst.ne_nil
      rw [List.length_append] at hn
      obtain ⟨lines, hlines⟩ := ih rest.length (by omega) rest rfl
      exact ⟨text :: lines, .cons hfirst hlines⟩

theorem eq_nil_of_lined {lines : List Bytes} (h : Lined [] lines) : lines = [] := by
  generalize hs : ([] : Bytes) = s at h
  cases h with
  | nil => rfl
  | cons hfirst _ => exact absurd (List.append_eq_nil_iff.1 hs.symm).1 hfirst.ne_nil

theorem linesOf_of_last {text : Bytes} (hlf : lf ∉ text) (hne : text ≠ []) :
    linesOf text = [dropFinalCr text] := by
  unfold linesOf
  dsimp only
  rw [splitOn_of_notMem hlf, if_neg (by simp [hne])]
  rfl

theorem linesOf_line {text : Bytes} (hlf : lf ∉ text) (rest : Bytes) :
    linesOf (text ++ lf :: rest) = dropFinalCr text :: linesOf rest := by
  have hne : splitOn lf rest ≠ [] := by simp [splitOn]
  unfold linesOf
  dsimp only
  rw [splitOn_append hlf, List.getLast?_cons_of_ne_nil hne]
  split
  · rw [List.dropLast_cons_of_ne_nil hne, List.map_cons]
  · rw [List.map_cons]

/-- The lines of an opened text are its lines without their carriage returns. -/
theorem linesOf_of_lined {text : Bytes} {lines : List Bytes} (h : Lined text lines) :
    linesOf text = lines.map dropFinalCr := by
  induction h with
  | nil => rfl
  | cons hfirst hrest ih =>
    rcases hfirst.ended with rfl | ⟨rfl, hne, rfl⟩
    · rw [List.append_assoc, List.singleton_append, linesOf_line hfirst.unbroken, ih,
        List.map_cons]
    · rw [List.append_nil, linesOf_of_last hfirst.unbroken hne, eq_nil_of_lined hrest]
      rfl

/-! ## Line after line -/

section

variable {i j : Inbound} {line : Bytes} {lines others : List Bytes}

/-- What the calls for lines give. -/
def lineOutcomes (i : Inbound) (count : Nat) : List (Except Failure Yield) :=
  (takings i (List.replicate count .line)).map Taking.outcome

/-- Lines that are given. -/
def given (lines : List Bytes) : List (Except Failure Yield) :=
  lines.map fun line => .ok (.line (some line))

theorem lineOutcomes_succ (i : Inbound) (count : Nat) : lineOutcomes i (count + 1) =
    (Call.line.on i).outcome :: lineOutcomes (Call.line.on i).after count := by
  rw [lineOutcomes, List.replicate_succ, takings, List.map_cons, lineOutcomes]

theorem on_of_queued (hq : i.queued = line :: others) : Call.line.on i = {
    call := .line
    before := i
    outcome := .ok (.line (some line))
    after := { i with queued := others } } := by
  have htake : takeLine i = .ok (some line) { i with queued := others } := by
    unfold takeLine
    rw [hq]
  exact Call.on_of_ok (bind_of_ok htake)

/-- The queue is given before anything else. -/
theorem lineOutcomes_of_queued (hq : i.queued = lines) (more : Nat) :
    lineOutcomes i (lines.length + more) =
      given lines ++ lineOutcomes { i with queued := [] } more := by
  induction lines generalizing i with
  | nil =>
    obtain ⟨unread, queued, consumed⟩ := i
    cases hq
    rw [List.length_nil, Nat.zero_add]
    rfl
  | cons line lines ih =>
    have hrest := ih (i := { i with queued := lines }) rfl
    rw [List.length_cons, Nat.succ_add, lineOutcomes_succ, on_of_queued hq]
    exact congrArg _ hrest

theorem on_line_congr (hunread : i.unread = j.unread) (hq : i.queued = j.queued) :
    (Call.line.on i).outcome = (Call.line.on j).outcome ∧
      (Call.line.on i).after.unread = (Call.line.on j).after.unread ∧
      (Call.line.on i).after.queued = (Call.line.on j).after.queued := by
  obtain ⟨unread, queued, consumed⟩ := i
  obtain ⟨_, _, consumed'⟩ := j
  cases hunread
  cases hq
  cases queued with
  | cons line others => rw [on_of_queued rfl, on_of_queued rfl]; exact ⟨rfl, rfl, rfl⟩
  | nil =>
    by_cases hne : unread = []
    · rw [on_of_empty rfl hne, on_of_empty rfl hne]; exact ⟨rfl, rfl, rfl⟩
    · have htake (n : Nat) := takeLine_of_ne_nil (i := ⟨unread, [], n⟩) rfl hne
      by_cases hlong : maxLine < (unread.takeWhile (· ≠ lf)).length
      · simp only [if_pos hlong] at htake
        rw [Call.on_of_error (bind_of_error (htake _)), Call.on_of_error (bind_of_error (htake _))]
        exact ⟨rfl, rfl, rfl⟩
      · simp only [if_neg hlong] at htake
        rw [Call.on_of_ok (bind_of_ok (htake _)), Call.on_of_ok (bind_of_ok (htake _))]
        exact ⟨rfl, rfl, rfl⟩

/-- How much was taken before makes no difference. -/
theorem lineOutcomes_congr (hunread : i.unread = j.unread) (hq : i.queued = j.queued)
    (count : Nat) : lineOutcomes i count = lineOutcomes j count := by
  induction count generalizing i j with
  | zero => rfl
  | succ count ih =>
    obtain ⟨houtcome, hunread', hq'⟩ := on_line_congr hunread hq
    rw [lineOutcomes_succ, lineOutcomes_succ, houtcome, ih hunread' hq']

/-- Behind the queue there is what a reader gives that starts there. -/
theorem lineOutcomes_behind_queue {rest : Bytes} (hq : i.queued = lines) (hunread : i.unread = rest)
    (more : Nat) : lineOutcomes i (lines.length + more) =
      given lines ++ lineOutcomes { unread := rest } more := by
  have hfresh : lineOutcomes { i with queued := [] } more = lineOutcomes { unread := rest } more :=
    lineOutcomes_congr (i := { i with queued := [] }) (j := { unread := rest }) hunread rfl more
  rw [lineOutcomes_of_queued hq, hfresh]

theorem lineOutcomes_of_empty (hq : i.queued = []) (hunread : i.unread = []) (count : Nat) :
    lineOutcomes i count = List.replicate count (.ok (.line none)) := by
  induction count with
  | zero => rfl
  | succ count ih => rw [lineOutcomes_succ, on_of_empty hq hunread, ih, List.replicate_succ]

/-- The lines that are not too long are given without their carriage returns, and then nothing. -/
theorem lineOutcomes_of_lined {rest : Bytes} (h : Lined rest lines)
    (hshort : ∀ line ∈ lines, line.length ≤ maxLine) (hq : i.queued = [])
    (hunread : i.unread = rest) (more : Nat) : lineOutcomes i (lines.length + more) =
      given (lines.map dropFinalCr) ++ List.replicate more (.ok (.line none)) := by
  induction h generalizing i with
  | nil =>
    rw [List.length_nil, Nat.zero_add, lineOutcomes_of_empty hq hunread]
    rfl
  | @cons raw text rest lines hfirst _ ih =>
    obtain ⟨htext, hlines⟩ := List.forall_mem_cons.1 hshort
    have htake := takeLine_of_firstLine hq hfirst htext hunread
    have hrest := ih (i := { i with unread := rest, consumed := i.consumed + raw.length })
      hlines hq rfl
    rw [List.length_cons, Nat.succ_add, lineOutcomes_succ, Call.on_of_ok (bind_of_ok htake)]
    exact congrArg _ hrest

end

/-! ## The sealed block -/

section

variable {suite : Suite} {sealing : Sealing} {i : Inbound} {block text rest : Bytes}

/-- With its blank line a block must not be longer than what is read of it. -/
theorem takeSealedBlock_of_long (he : sealing.enabled = true) (hblock : Delimited block)
    (hlong : maxSealedBlock + 1 < block.length + blankLine.length)
    (hunread : i.unread = block ++ blankLine ++ rest) :
    takeSealedBlock suite sealing i = .error (.rejected .sealedBlockTooLarge) { i with
      unread := i.unread.drop (maxSealedBlock + 1)
      consumed := i.consumed + (maxSealedBlock + 1) } := by
  have hlength : (i.unread.take (maxSealedBlock + 1)).length = maxSealedBlock + 1 := by
    refine List.length_take_of_le ?_
    rw [hunread, List.length_append, List.length_append]
    omega
  have hnone : ¬ blankLine <:+: i.unread.take (maxSealedBlock + 1) := by
    cases hfound : beforeBlankLine [] (i.unread.take (maxSealedBlock + 1)) with
    | none => exact beforeBlankLine_eq_none.1 hfound
    | some found =>
      obtain ⟨hdelimited, hshort, after, hsplit⟩ := delimited_of_window hfound
      -- There is one first blank line, so the same block would have been found.
      have hbefore := hdelimited [] after
      rw [← hsplit, hunread, hblock [] rest] at hbefore
      have hsame : block = found := Option.some.inj hbefore
      exact absurd hlong (Nat.not_lt.2 (hsame ▸ hshort))
  rw [takeSealedBlock_of_oversized he (List.take_append_drop _ _).symm hnone hlength, hlength]

/-- Whatever follows a block that opens: the block is taken if it fits with its blank line, and then
its lines are given, a blank line if they do not end with one, and what is given for the rest alone.
A block that does not fit is refused. -/
theorem takings_sealed (he : sealing.enabled = true)
    (hopens : sealing.decrypt suite block = .ok text)
    (hfirst : ∀ before after, block ++ blankLine = before ++ blankLine ++ after → after = [])
    (rest : Bytes) :
    let opening := (Call.sealedBlock suite sealing).on { unread := block ++ blankLine ++ rest }
    (block.length + blankLine.length ≤ maxSealedBlock + 1 →
      opening.outcome = .ok .opened ∧ opening.after.consumed = block.length + 4 ∧
      opening.after.unread = rest ∧
      ∃ lines, Lined text lines ∧
        let shown := lines.map dropFinalCr
        let queue := if shown.getLast? = some [] then shown else shown ++ [[]]
        (∀ more, lineOutcomes opening.after (queue.length + more) =
          given queue ++ lineOutcomes { unread := rest } more) ∧
        ∀ others more, Lined rest others → (∀ line ∈ others, line.length ≤ maxLine) →
          lineOutcomes opening.after (queue.length + (others.length + more)) =
            given queue ++ given (others.map dropFinalCr) ++
              List.replicate more (.ok (.line none))) ∧
    (maxSealedBlock + 1 < block.length + blankLine.length →
      opening.outcome = .error (.rejected .sealedBlockTooLarge) ∧
      Rejection.sealedBlockTooLarge.code = .invalidRequest) := by
  intro opening
  have hblock := delimited_of_first hfirst
  refine ⟨fun hshort => ?_, fun hlong => ?_⟩
  · have htake := takeSealedBlock_of_block (i := { unread := block ++ blankLine ++ rest }) he hblock
      hshort rfl hopens
    have hopening : opening = _ := Call.on_of_ok (bind_of_ok htake)
    obtain ⟨lines, hlines⟩ := exists_lined text
    have hqueue : opening.after.queued = closed (lines.map dropFinalCr) := by
      rw [hopening, ← linesOf_of_lined hlines]
      rfl
    have hunread : opening.after.unread = rest := by rw [hopening]
    have houtcomes (more : Nat) : lineOutcomes opening.after
        ((closed (lines.map dropFinalCr)).length + more) =
        given (closed (lines.map dropFinalCr)) ++ lineOutcomes { unread := rest } more :=
      lineOutcomes_behind_queue hqueue hunread more
    have hconsumed : opening.after.consumed = block.length + 4 := by
      rw [hopening]
      exact Nat.zero_add _
    refine ⟨by rw [hopening], hconsumed, hunread, lines, hlines, houtcomes,
      fun others more hothers hfit => ?_⟩
    have hall := houtcomes (others.length + more)
    rw [lineOutcomes_of_lined hothers hfit rfl rfl, ← List.append_assoc] at hall
    exact hall
  · have htake : takeSealedBlock suite sealing { unread := block ++ blankLine ++ rest } = _ :=
      takeSealedBlock_of_long he hblock hlong rfl
    have hopening : opening = _ := Call.on_of_error (bind_of_error htake)
    exact ⟨by rw [hopening], rfl⟩

end

/-! ## A block with one line, and one as long as a block may be -/

open Envelope (exampleBlock exampleBlock_decrypted exampleLines exampleSealing unhex)
open Reading (emptyBlock emptyBlock_decrypted)

theorem takings_sealed_example :
    let opening := (Call.sealedBlock .full exampleSealing).on
      { unread := exampleBlock ++ blankLine ++ ascii "x\n\r\ny" }
    exampleSealing.enabled = true ∧
    exampleSealing.decrypt .full exampleBlock = .ok (wire exampleLines) ∧
    (∀ before after, exampleBlock ++ blankLine = before ++ blankLine ++ after → after = []) ∧
    exampleBlock.length + blankLine.length ≤ maxSealedBlock + 1 ∧
    opening.outcome = .ok .opened ∧
    lineOutcomes opening.after 6 =
      given [ascii "a:b", [], ascii "x", [], ascii "y"] ++ [.ok (.line none)] := by
  dsimp only
  have hfirst : ∀ before after, exampleBlock ++ blankLine = before ++ blankLine ++ after →
      after = [] := first_of_cr_notMem (by decide +kernel)
  have hshort : exampleBlock.length + blankLine.length ≤ maxSealedBlock + 1 := by decide +kernel
  obtain ⟨houtcome, -, -, lines, hlines, -, hgiven⟩ :=
    (takings_sealed rfl exampleBlock_decrypted hfirst (ascii "x\n\r\ny")).1 hshort
  have hshown : lines.map dropFinalCr = [ascii "a:b"] :=
    (linesOf_of_lined hlines).symm.trans (by decide +kernel)
  have hfirst₁ : FirstLine (ascii "x\n") (ascii "x") (ascii "\r\ny") := ⟨by decide, .inl rfl⟩
  have hfirst₂ : FirstLine (ascii "\r\n") [cr] (ascii "y") := ⟨by decide, .inl rfl⟩
  have hfirst₃ : FirstLine (ascii "y") (ascii "y") [] :=
    ⟨by decide, .inr ⟨rfl, by decide, rfl⟩⟩
  have hothers : Lined (ascii "x\n\r\ny") [ascii "x", [cr], ascii "y"] :=
    .cons hfirst₁ (.cons hfirst₂ (.cons hfirst₃ .nil))
  have hall := hgiven _ 1 hothers (by decide)
  rw [hshown] at hall
  exact ⟨rfl, exampleBlock_decrypted, hfirst, hshort, houtcome, hall⟩

/-- The vector over and over, and a block behind it. -/
def longBlock (count : Nat) : Bytes :=
  (List.replicate count exampleSealing.iv).flatten ++ emptyBlock

theorem length_emptyBlock : emptyBlock.length = 8 := by decide +kernel

theorem blocks_vector (count : Nat) : Blocks 8 (List.replicate count exampleSealing.iv) :=
  fun _ hblock => (congrArg _ (List.eq_of_mem_replicate hblock)).trans exampleSealing.iv_length

theorem length_longBlock (count : Nat) : (longBlock count).length = 8 * count + 8 := by
  rw [longBlock, List.length_append, (blocks_vector count).length_flatten, length_emptyBlock,
    List.length_replicate, Nat.mul_comm]

theorem cr_notMem_longBlock (count : Nat) : cr ∉ longBlock count := by
  have hvector : cr ∉ exampleSealing.iv := by decide +kernel
  have hempty : cr ∉ emptyBlock := by decide +kernel
  rw [longBlock, List.mem_append, List.mem_flatten]
  rintro (⟨block, hblock, hcr⟩ | hcr)
  · exact hvector (List.eq_of_mem_replicate hblock ▸ hcr)
  · exact hempty hcr

/-- Behind the vector, and however often it comes, a block opens as it does alone. -/
theorem longBlock_opens (count : Nat) :
    ∃ text, exampleSealing.decrypt .full (longBlock count) = .ok text := by
  let des : BlockCipher := exampleSealing.cipher.keyed exampleSealing.key
  have hkeyed : exampleSealing.keyed? .full = some des := rfl
  have hne : emptyBlock ≠ [] := List.ne_nil_of_length_pos (by rw [length_emptyBlock]; decide)
  have hmask (n : Nat) : (List.replicate n exampleSealing.iv).getLast?.getD exampleSealing.iv =
      exampleSealing.iv := by
    cases n with
    | zero => rfl
    | succ n => rw [List.replicate_succ', List.getLast?_concat, Option.getD_some]
  have hopens (n : Nat) : (∃ text, exampleSealing.decrypt .full (longBlock n) = .ok text) ↔
      (unpad? 8 (xor (des.decrypt emptyBlock) exampleSealing.iv)).isSome = true := by
    have hdecipher : des.decipher exampleSealing.cipher.blockSize exampleSealing.iv
        (longBlock n) = _ := BlockCipher.decipher_eq (Nat.succ_pos 7) (blocks_vector n) hne
      (Nat.le_of_eq length_emptyBlock)
    rw [Sealing.exists_decrypt_eq_ok rfl hkeyed, hdecipher, hmask, if_pos length_emptyBlock]
  exact (hopens count).2 ((hopens 0).1 ⟨[], emptyBlock_decrypted⟩)

/-- A block that is as long as a block may be opens, but is not taken. -/
theorem not_opened_of_full : ¬ ∀ (suite : Suite) (sealing : Sealing) (block text rest : Bytes),
    sealing.enabled = true → block.length ≤ maxSealedBlock →
    sealing.decrypt suite block = .ok text →
    (∀ before after, block ++ blankLine = before ++ blankLine ++ after → after = []) →
    ((Call.sealedBlock suite sealing).on { unread := block ++ blankLine ++ rest }).outcome =
      .ok .opened := by
  intro hall
  obtain ⟨count, hcount⟩ : ∃ count, 8 * count + 8 = maxSealedBlock := ⟨524287, rfl⟩
  have hlength := (length_longBlock count).trans hcount
  have hfirst := first_of_cr_notMem (cr_notMem_longBlock count)
  obtain ⟨text, hopens⟩ := longBlock_opens count
  have hopened := hall .full exampleSealing _ text [] rfl (Nat.le_of_eq hlength) hopens hfirst
  have hlong : maxSealedBlock + 1 < (longBlock count).length + blankLine.length := by
    rw [hlength]
    exact Nat.add_lt_add_left (by decide) _
  rw [Call.on_of_error (bind_of_error
    (takeSealedBlock_of_long rfl (delimited_of_first hfirst) hlong rfl))] at hopened
  cases hopened

end Gntp.Inbound
