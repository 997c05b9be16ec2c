import Mathlib.Data.List.TakeWhile
import Gntp.Inbound
import Gntp.Proofs.Fields

/-!
# Where lines and sealed blocks end

A line ends with the first line feed, or with the input (`takeLine_eq_some`), and a sealed block
ends with the first blank line (`takeSealedBlock_eq_ok`). What follows there has no bearing on what
is taken.
-/

namespace Gntp.Inbound

open Bytes

variable {suite : Suite} {sealing : Sealing} {i i' : Inbound} {raw line block text rest : Bytes}

/-! ## Lines -/

theorem takeWhile_of_last (hlf : lf ∉ line) : line.takeWhile (· ≠ lf) = line :=
  List.takeWhile_eq_self_iff.2 fun _ hb => decide_eq_true fun heq => hlf (heq ▸ hb)

theorem takeWhile_of_line (hlf : lf ∉ line) : (line ++ lf :: rest).takeWhile (· ≠ lf) = line := by
  rw [List.takeWhile_append_of_pos, List.takeWhile_cons_of_neg (by decide), List.append_nil]
  exact fun b hb => decide_eq_true fun heq => hlf (heq ▸ hb)

/-- The next line of the input, if none is queued. -/
theorem takeLine_of_ne_nil (hq : i.queued = []) (hne : i.unread ≠ []) :
    takeLine i = if maxLine < (i.unread.takeWhile (· ≠ lf)).length then
        .error (.rejected .lineTooLong) { i with
          unread := i.unread.drop (maxLine + 1)
          consumed := i.consumed + (maxLine + 1) }
      else
        .ok (some (dropFinalCr (i.unread.takeWhile (· ≠ lf)))) { i with
          unread := (i.unread.drop (i.unread.takeWhile (· ≠ lf)).length).drop 1
          consumed := i.consumed + ((i.unread.takeWhile (· ≠ lf)).length +
            ((i.unread.drop (i.unread.takeWhile (· ≠ lf)).length).take 1).length) } := by
  obtain ⟨unread, queued, consumed⟩ := i
  cases hq
  cases unread with
  | nil => exact absurd rfl hne
  | cons b more => rfl

/-- The bytes up to the first line feed are a line. -/
theorem takeLine_of_line (hq : i.queued = []) (hlf : lf ∉ line) (hshort : line.length ≤ maxLine)
    (hunread : i.unread = line ++ lf :: rest) :
    takeLine i = .ok (some (dropFinalCr line)) { i with
      unread := rest
      consumed := i.consumed + (line.length + 1) } := by
  rw [takeLine_of_ne_nil hq (by simp [hunread]), hunread, takeWhile_of_line hlf,
    if_neg (Nat.not_lt.2 hshort), List.drop_left]
  rfl

/-- The last line may lack its line feed. -/
theorem takeLine_of_last (hq : i.queued = []) (hne : i.unread ≠ []) (hlf : lf ∉ i.unread)
    (hshort : i.unread.length ≤ maxLine) :
    takeLine i = .ok (some (dropFinalCr i.unread)) { i with
      unread := []
      consumed := i.consumed + i.unread.length } := by
  rw [takeLine_of_ne_nil hq hne, takeWhile_of_last hlf, if_neg (Nat.not_lt.2 hshort),
    List.drop_length]
  rfl

/-- A line that is too long is refused at the first byte that is too many. -/
theorem takeLine_of_long (hq : i.queued = [])
    (hlong : maxLine < (i.unread.takeWhile (· ≠ lf)).length) :
    takeLine i = .error (.rejected .lineTooLong) { i with
      unread := i.unread.drop (maxLine + 1)
      consumed := i.consumed + (maxLine + 1) } := by
  have hne : i.unread ≠ [] := by
    intro hnil
    rw [hnil] at hlong
    cases hlong
  rw [takeLine_of_ne_nil hq hne, if_pos hlong]

/-- All that is looked at of a line that is too long is a part of that line. -/
theorem take_of_long {s : Bytes} (hlong : maxLine < (s.takeWhile (· ≠ lf)).length) :
    (s.take (maxLine + 1)).length = maxLine + 1 ∧ lf ∉ s.take (maxLine + 1) := by
  have hline := List.takeWhile_prefix (l := s) (· ≠ lf)
  have hlength : (s.take (maxLine + 1)).length = maxLine + 1 :=
    List.length_take_of_le (Nat.le_trans hlong hline.length_le)
  have hpart : s.take (maxLine + 1) <+: s.takeWhile (· ≠ lf) :=
    List.prefix_of_prefix_length_le (List.take_prefix _ _) hline (by omega)
  refine ⟨hlength, fun hmem => ?_⟩
  have hne := List.mem_takeWhile_imp (hpart.subset hmem)
  exact absurd rfl (of_decide_eq_true hne)

/-- A line that is taken off the input is not too long, whether it is the last one or not. -/
theorem short_of_takeLine (hq : i.queued = []) {line? : Option Bytes}
    (h : takeLine i = .ok line? i') : (i.unread.takeWhile (· ≠ lf)).length ≤ maxLine := by
  by_cases hne : i.unread = []
  · rw [hne]
    exact Nat.zero_le maxLine
  · rw [takeLine_of_ne_nil hq hne] at h
    split at h
    · cases h
    · next hshort => exact Nat.le_of_not_lt hshort

/-- With `rest` behind it, `raw` is the text of the next line and its line feed, which is missing at
most at the end. -/
structure FirstLine (raw text rest : Bytes) : Prop where
  unbroken : lf ∉ text
  ended : raw = text ++ [lf] ∨ raw = text ∧ text ≠ [] ∧ rest = []

namespace FirstLine

theorem takeWhile_eq (h : FirstLine raw text rest) : (raw ++ rest).takeWhile (· ≠ lf) = text := by
  rcases h.ended with rfl | ⟨rfl, _, rfl⟩
  · rw [List.append_assoc]
    exact takeWhile_of_line h.unbroken
  · rw [List.append_nil]
    exact takeWhile_of_last h.unbroken

end FirstLine

/-- Every input that is not empty has a next line. -/
theorem exists_firstLine {s : Bytes} (hne : s ≠ []) :
    ∃ raw text rest, FirstLine raw text rest ∧ s = raw ++ rest := by
  by_cases hlf : lf ∈ s
  · obtain ⟨text, rest, hsplit, htext⟩ := List.eq_append_cons_of_mem hlf
    exact ⟨text ++ [lf], text, rest, ⟨htext, .inl rfl⟩, by rw [List.append_assoc]; exact hsplit⟩
  · exact ⟨s, s, [], ⟨hlf, .inr ⟨rfl, hne, rfl⟩⟩, (List.append_nil s).symm⟩

theorem takeLine_of_firstLine (hq : i.queued = []) (hfirst : FirstLine raw text rest)
    (hshort : text.length ≤ maxLine) (hunread : i.unread = raw ++ rest) :
    takeLine i = .ok (some (dropFinalCr text)) { i with
      unread := rest
      consumed := i.consumed + raw.length } := by
  rcases hfirst.ended with rfl | ⟨rfl, hne, rfl⟩
  · rw [takeLine_of_line hq hfirst.unbroken hshort (by rw [hunread, List.append_assoc]; rfl),
      List.length_append]
    rfl
  · rw [List.append_nil] at hunread
    rw [takeLine_of_last hq (hunread ▸ hne) (hunread ▸ hfirst.unbroken) (hunread ▸ hshort), hunread]

/-- With nothing queued, a line is taken off the input with its line feed, unless it is too long. -/
theorem takeLine_eq_some (hq : i.queued = []) :
    takeLine i = .ok (some line) i' ↔
      ∃ raw text rest, FirstLine raw text rest ∧ i.unread = raw ++ rest ∧
        text.length ≤ maxLine ∧ line = dropFinalCr text ∧
        i' = { i with unread := rest, consumed := i.consumed + raw.length } := by
  constructor
  · intro h
    have hne : i.unread ≠ [] := by
      rintro hnil
      obtain ⟨unread, queued, consumed⟩ := i
      cases hq
      cases hnil
      cases h
    obtain ⟨raw, text, rest, hfirst, hunread⟩ := exists_firstLine hne
    have hshort := short_of_takeLine hq h
    rw [hunread, hfirst.takeWhile_eq] at hshort
    cases (takeLine_of_firstLine hq hfirst hshort hunread).symm.trans h
    exact ⟨raw, text, rest, hfirst, hunread, hshort, rfl, rfl⟩
  · rintro ⟨raw, text, rest, hfirst, hunread, hshort, rfl, rfl⟩
    exact takeLine_of_firstLine hq hfirst hshort hunread

/-! ## Lines as they are sent -/

/-- Lines, each with its line end. -/
def wire (lines : List Bytes) : Bytes := lines.flatMap (· ++ crlf)

/-- A line that can be sent: it has no line feed in it, and with its carriage return it is not too
long. -/
structure Sendable (line : Bytes) : Prop where
  lf : lf ∉ line
  short : line.length < maxLine

@[simp] theorem dropFinalCr_append_cr (line : Bytes) : dropFinalCr (line ++ [cr]) = line := by
  simp [dropFinalCr]

theorem notMem_append_cr (hlf : lf ∉ line) : lf ∉ line ++ [cr] := by
  rw [List.mem_append, List.mem_singleton]
  exact fun h => h.elim hlf (by decide)

/-- A line that is sent is taken as it is, whatever it ends with. -/
theorem takeLine_of_sendable (hq : i.queued = []) (hline : Sendable line)
    (hunread : i.unread = line ++ crlf ++ rest) :
    takeLine i = .ok (some line) { i with
      unread := rest
      consumed := i.consumed + (line.length + 2) } := by
  have hraw : i.unread = (line ++ [cr]) ++ lf :: rest := by
    rw [hunread, crlf, List.append_assoc, List.append_assoc]
    rfl
  have hshort : (line ++ [cr]).length ≤ maxLine := by
    rw [List.length_append]
    exact hline.short
  rw [takeLine_of_line hq (notMem_append_cr hline.lf) hshort hraw, dropFinalCr_append_cr,
    List.length_append]
  rfl

theorem splitOn_wire {lines : List Bytes} (h : ∀ line ∈ lines, lf ∉ line) :
    splitOn lf (wire lines) = lines.map (· ++ [cr]) ++ [[]] := by
  have hwire : wire lines = (lines.map (· ++ [cr])).flatMap (· ++ [lf]) := by
    simp [wire, crlf, List.flatMap_map]
  rw [hwire]
  apply splitOn_flatMap
  intro line hmem
  obtain ⟨line, hline, rfl⟩ := List.mem_map.1 hmem
  exact notMem_append_cr (h line hline)

/-- The lines of a text are those that were written into it. -/
theorem linesOf_wire {lines : List Bytes} (h : ∀ line ∈ lines, lf ∉ line) :
    linesOf (wire lines) = lines := by
  unfold linesOf
  dsimp only
  rw [splitOn_wire h, if_pos (by simp), List.dropLast_concat, List.map_map]
  simp [Function.comp_def]

theorem closed_of_getLast? {lines : List Bytes} (h : lines.getLast? ≠ some []) :
    closed lines = lines ++ [[]] := if_neg h

/-! ## Payloads -/

theorem takeBytes_of_append (hq : i.queued = []) {data : Bytes}
    (hunread : i.unread = data ++ rest) : takeBytes data.length i = .ok data { i with
      unread := rest
      consumed := i.consumed + data.length } := by
  unfold takeBytes
  rw [if_neg (not_not.2 hq)]
  simp only [hunread, List.take_left, List.drop_left, if_neg (Nat.lt_irrefl _)]

/-- There are no payloads among the lines of a sealed block. -/
theorem takeBytes_of_queued {count : Nat} (hq : i.queued ≠ []) :
    takeBytes count i = .error (.rejected .binaryAmongHeaders) i := if_pos hq

/-- All that is left is taken, and is not enough. -/
theorem takeBytes_of_short {count : Nat} (hq : i.queued = []) (hshort : i.unread.length < count) :
    takeBytes count i = .error (.truncated (.insidePayload (count - i.unread.length))) { i with
      unread := []
      consumed := i.consumed + i.unread.length } := by
  unfold takeBytes
  rw [if_neg (not_not.2 hq)]
  simp only [List.take_of_length_le (Nat.le_of_lt hshort),
    List.drop_eq_nil_of_le (Nat.le_of_lt hshort), if_pos hshort]

/-- With nothing queued, bytes are taken if so many are there. -/
theorem takeBytes_eq_ok {count : Nat} {data : Bytes} : takeBytes count i = .ok data i' ↔
    i.queued = [] ∧ ∃ rest, data.length = count ∧ i.unread = data ++ rest ∧
      i' = { i with unread := rest, consumed := i.consumed + count } := by
  constructor
  · intro h
    unfold takeBytes at h
    split at h
    · cases h
    · next hq =>
      dsimp only at h
      split at h
      · cases h
      · next hlong =>
        have hlength : (i.unread.take count).length = count :=
          Nat.le_antisymm (List.length_take_le count i.unread) (Nat.le_of_not_lt hlong)
        cases h
        refine ⟨not_not.1 hq, _, hlength, (List.take_append_drop count i.unread).symm, ?_⟩
        rw [hlength]
  · rintro ⟨hq, rest, rfl, hunread, rfl⟩
    exact takeBytes_of_append hq hunread

/-! ## Sealed blocks -/

/-- A blank line that starts early enough stands before the rest. -/
theorem blankLine_prefix_append {before : Bytes} (hlong : blankLine.length ≤ before.length) :
    blankLine <+: before ++ rest ↔ blankLine <+: before :=
  ⟨fun h => List.prefix_of_prefix_length_le h (List.prefix_append before rest) hlong,
    fun h => h.trans (List.prefix_append before rest)⟩

/-- No blank line starts in the block, so the one behind it ends the block. -/
def Delimited (block : Bytes) : Prop :=
  ∀ done rest, beforeBlankLine done (block ++ blankLine ++ rest) = some (done.reverse ++ block)

theorem delimited_nil : Delimited [] := by
  intro done rest
  have hblank : blankLine.isPrefixOf (blankLine ++ rest) = true :=
    List.isPrefixOf_iff_prefix.2 (List.prefix_append blankLine rest)
  rw [List.nil_append, List.append_nil]
  change (if blankLine.isPrefixOf (blankLine ++ rest) then some done.reverse else _) = _
  exact if_pos hblank

theorem Delimited.cons {b : UInt8} (h : Delimited block)
    (hb : ¬ blankLine <+: b :: block ++ blankLine) : Delimited (b :: block) := by
  intro done rest
  have hlong : blankLine.length ≤ (b :: block ++ blankLine).length := by
    rw [List.length_append]
    exact Nat.le_add_left _ _
  have hnot : ¬ blankLine.isPrefixOf (b :: (block ++ blankLine ++ rest)) = true := by
    rw [List.isPrefixOf_iff_prefix]
    exact fun hprefix => hb ((blankLine_prefix_append hlong).1 hprefix)
  rw [List.cons_append, List.cons_append, beforeBlankLine, if_neg hnot, h (b :: done) rest,
    List.reverse_cons, List.append_assoc]
  rfl

/-- What stands before the first blank line. -/
theorem delimited_of_beforeBlankLine {done s : Bytes}
    (h : beforeBlankLine done s = some block) :
    ∃ passed rest, block = done.reverse ++ passed ∧ s = passed ++ blankLine ++ rest ∧
      Delimited passed := by
  induction s generalizing done with
  | nil => cases h
  | cons b more ih =>
    rw [beforeBlankLine] at h
    split at h
    · next hblank =>
      cases h
      obtain ⟨rest, hrest⟩ := List.isPrefixOf_iff_prefix.1 hblank
      exact ⟨[], rest, (List.append_nil _).symm, hrest.symm, delimited_nil⟩
    · next hblank =>
      obtain ⟨passed, rest, hblock, hmore, hpassed⟩ := ih h
      refine ⟨b :: passed, rest, ?_, by rw [hmore]; rfl, hpassed.cons fun hprefix => hblank ?_⟩
      · rw [hblock, List.reverse_cons, List.append_assoc]
        rfl
      · rw [List.isPrefixOf_iff_prefix, hmore]
        exact hprefix.trans (List.prefix_append _ rest)

/-- There is nothing before the first blank line only if there is none. -/
theorem beforeBlankLine_eq_none {done s : Bytes} :
    beforeBlankLine done s = none ↔ ¬ blankLine <:+: s := by
  induction s generalizing done with
  | nil =>
    rw [List.infix_nil]
    exact ⟨fun _ => by decide, fun _ => rfl⟩
  | cons b more ih =>
    rw [beforeBlankLine, List.infix_cons_iff, ← List.isPrefixOf_iff_prefix]
    split
    · next hblank =>
      constructor
      · intro h
        cases h
      · intro h
        exact absurd (.inl hblank) h
    · next hblank =>
      rw [ih]
      constructor
      · intro h
        exact not_or.2 ⟨hblank, h⟩
      · intro h
        exact (not_or.1 h).2

/-- A blank line is not passed. -/
theorem length_le_of_beforeBlankLine {done before after : Bytes}
    (h : beforeBlankLine done (before ++ blankLine ++ after) = some block) :
    block.length ≤ done.length + before.length := by
  induction before generalizing done with
  | nil =>
    have hnil : beforeBlankLine done ([] ++ blankLine ++ after) = some (done.reverse ++ []) :=
      delimited_nil done after
    cases hnil.symm.trans h
    simp
  | cons b more ih =>
    rw [List.cons_append, List.cons_append, beforeBlankLine] at h
    split at h
    · cases h
      simp
    · have hpassed := ih h
      simp only [List.length_cons] at hpassed ⊢
      omega

/-- The blank line behind a block that is delimited is the first one. -/
theorem Delimited.first (h : Delimited block) (before after : Bytes)
    (heq : block ++ blankLine = before ++ blankLine ++ after) : after = [] := by
  have hfound : beforeBlankLine [] (before ++ blankLine ++ after) = some block := by
    have hblock := h [] []
    rw [List.append_nil, heq] at hblock
    exact hblock
  have hshort := length_le_of_beforeBlankLine hfound
  have hlength := congrArg List.length heq
  simp only [List.length_append, List.length_nil] at hshort hlength
  exact List.eq_nil_of_length_eq_zero (by omega)

/-- Where a block is followed by a blank line and no blank line comes earlier, it is delimited. -/
theorem delimited_of_first
    (h : ∀ before after, block ++ blankLine = before ++ blankLine ++ after → after = []) :
    Delimited block := by
  induction block with
  | nil => exact delimited_nil
  | cons b more ih =>
    refine .cons (ih fun before after heq => ?_) fun ⟨after, hafter⟩ => ?_
    · exact h (b :: before) after (by rw [List.cons_append, heq]; rfl)
    · have hnone : after = [] := h [] after hafter.symm
      have hlength := congrArg List.length hafter
      simp only [hnone, List.length_append, List.length_cons, List.length_nil] at hlength
      omega

/-- Behind a text without carriage returns, the first blank line is the one that was put there. -/
theorem first_of_cr_notMem (h : cr ∉ block) (before after : Bytes)
    (heq : block ++ blankLine = before ++ blankLine ++ after) : after = [] := by
  rw [List.append_assoc] at heq
  rcases List.append_eq_append_iff.1 heq with ⟨c, _, hc⟩ | ⟨c, hblock, hc⟩
  · have hlength := congrArg List.length hc
    simp only [List.length_append] at hlength
    exact List.eq_nil_of_length_eq_zero (by omega)
  · cases c with
    | nil => exact List.append_cancel_left (hc.trans (List.append_nil blankLine).symm)
    | cons b c =>
      have hb : cr = b := (List.cons.inj hc).1
      exact absurd (by rw [hblock, hb]; simp) h

theorem takeSealedBlock_of_clear (he : sealing.enabled = false) :
    takeSealedBlock suite sealing i = .ok () i := by
  unfold takeSealedBlock
  rw [he]
  rfl

/-- A block that is delimited and fits is found. -/
theorem beforeBlankLine_window (hblock : Delimited block)
    (hshort : block.length + blankLine.length ≤ maxSealedBlock + 1)
    (hunread : i.unread = block ++ blankLine ++ rest) :
    beforeBlankLine [] (i.unread.take (maxSealedBlock + 1)) = some block := by
  have hwindow : i.unread.take (maxSealedBlock + 1) = block ++ blankLine ++
      rest.take (maxSealedBlock + 1 - (block ++ blankLine).length) := by
    rw [hunread, List.take_append, List.take_of_length_le]
    rw [List.length_append]
    exact hshort
  rw [hwindow]
  exact hblock [] _

theorem delimited_of_window
    (hfound : beforeBlankLine [] (i.unread.take (maxSealedBlock + 1)) = some block) :
    Delimited block ∧ block.length + blankLine.length ≤ maxSealedBlock + 1 ∧
      ∃ rest, i.unread = block ++ blankLine ++ rest := by
  obtain ⟨_, after, rfl, hwindow, hblock⟩ := delimited_of_beforeBlankLine hfound
  refine ⟨hblock, ?_, ?_⟩
  · have hlength := congrArg List.length hwindow
    rw [List.length_take, List.length_append, List.length_append] at hlength
    change _ + _ ≤ _
    omega
  · have hprefix : block ++ blankLine <+: i.unread :=
      (List.prefix_append _ after).trans (hwindow ▸ List.take_prefix _ i.unread)
    exact hprefix.imp fun _ => Eq.symm

/-- A sealed block that is delimited and opens is taken up to its blank line, and its lines are
queued. -/
theorem takeSealedBlock_of_block (he : sealing.enabled = true) (hblock : Delimited block)
    (hshort : block.length + blankLine.length ≤ maxSealedBlock + 1)
    (hunread : i.unread = block ++ blankLine ++ rest)
    (hopens : sealing.decrypt suite block = .ok text) :
    takeSealedBlock suite sealing i = .ok () { i with
      unread := rest
      consumed := i.consumed + (block.length + blankLine.length)
      queued := closed (i.queued ++ linesOf text) } := by
  have hleft : i.unread.drop (block.length + blankLine.length) = rest := by
    rw [hunread, ← List.length_append, List.drop_left]
  unfold takeSealedBlock
  rw [if_neg (not_not.2 he)]
  simp only [beforeBlankLine_window hblock hshort hunread, hopens, hleft]

/-- One that does not open is taken as well. -/
theorem takeSealedBlock_of_fault {fault : CipherFault} (he : sealing.enabled = true)
    (hblock : Delimited block) (hshort : block.length + blankLine.length ≤ maxSealedBlock + 1)
    (hunread : i.unread = block ++ blankLine ++ rest)
    (hopens : sealing.decrypt suite block = .error fault) :
    takeSealedBlock suite sealing i = .error (.cipher fault) { i with
      unread := rest
      consumed := i.consumed + (block.length + blankLine.length) } := by
  have hleft : i.unread.drop (block.length + blankLine.length) = rest := by
    rw [hunread, ← List.length_append, List.drop_left]
  unfold takeSealedBlock
  rw [if_neg (not_not.2 he)]
  simp only [beforeBlankLine_window hblock hshort hunread, hopens, hleft]

/-- The input ends before a blank line. -/
theorem takeSealedBlock_of_unended (he : sealing.enabled = true)
    (hnone : ¬ blankLine <:+: i.unread) (hshort : i.unread.length ≤ maxSealedBlock) :
    takeSealedBlock suite sealing i = .error (.truncated .insideSealedBlock) { i with
      unread := []
      consumed := i.consumed + i.unread.length } := by
  have hwindow : i.unread.take (maxSealedBlock + 1) = i.unread :=
    List.take_of_length_le (Nat.le_succ_of_le hshort)
  have hleft : i.unread.drop (maxSealedBlock + 1) = [] :=
    List.drop_eq_nil_of_le (Nat.le_succ_of_le hshort)
  unfold takeSealedBlock
  rw [if_neg (not_not.2 he)]
  simp only [hwindow, beforeBlankLine_eq_none.2 hnone, hleft, if_pos hshort]

/-- No blank line comes early enough. -/
theorem takeSealedBlock_of_oversized {slice : Bytes} (he : sealing.enabled = true)
    (hunread : i.unread = slice ++ rest) (hnone : ¬ blankLine <:+: slice)
    (hlong : slice.length = maxSealedBlock + 1) :
    takeSealedBlock suite sealing i = .error (.rejected .sealedBlockTooLarge) { i with
      unread := rest
      consumed := i.consumed + slice.length } := by
  have hwindow : i.unread.take (maxSealedBlock + 1) = slice := by
    rw [hunread, ← hlong, List.take_left]
  have hleft : i.unread.drop (maxSealedBlock + 1) = rest := by
    rw [hunread, ← hlong, List.drop_left]
  have hover : ¬ slice.length ≤ maxSealedBlock := by omega
  unfold takeSealedBlock
  rw [if_neg (not_not.2 he)]
  simp only [hwindow, beforeBlankLine_eq_none.2 hnone, hleft, if_neg hover]

/-- The blocks that are taken are delimited, fit and open. -/
theorem takeSealedBlock_eq_ok (he : sealing.enabled = true) :
    takeSealedBlock suite sealing i = .ok () i' ↔ ∃ block text rest, Delimited block ∧
      block.length + blankLine.length ≤ maxSealedBlock + 1 ∧
      sealing.decrypt suite block = .ok text ∧ i.unread = block ++ blankLine ++ rest ∧
      i' = { i with
        unread := rest
        consumed := i.consumed + (block.length + blankLine.length)
        queued := closed (i.queued ++ linesOf text) } := by
  constructor
  · intro h
    cases hfound : beforeBlankLine [] (i.unread.take (maxSealedBlock + 1)) with
    | none =>
      unfold takeSealedBlock at h
      simp only [if_neg (not_not.2 he), hfound] at h
      cases h
    | some block =>
      obtain ⟨hblock, hshort, rest, hunread⟩ := delimited_of_window hfound
      cases hopens : sealing.decrypt suite block with
      | error fault => cases (takeSealedBlock_of_fault he hblock hshort hunread hopens).symm.trans h
      | ok text =>
        cases (takeSealedBlock_of_block he hblock hshort hunread hopens).symm.trans h
        exact ⟨block, text, rest, hblock, hshort, hopens, hunread, rfl⟩
  · rintro ⟨block, text, rest, hblock, hshort, hopens, hunread, rfl⟩
    exact takeSealedBlock_of_block he hblock hshort hunread hopens

end Gntp.Inbound
