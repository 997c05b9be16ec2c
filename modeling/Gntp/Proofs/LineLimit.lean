import Gntp.Proofs.Consumption

/-!
# How long a line may be

Lines are written one after the other, each ended by LF or by CRLF, and taken off again. They come
back as they were written, and then nothing comes (`takings_written`). The limit is put to what
stands before the line feed, though: a carriage return there counts, so a line of `maxLine` bytes is
taken if it is ended by LF and refused if it is ended by CRLF (`not_taken_of_carriage`).
-/

namespace Gntp.Inbound

open Gntp.Action Bytes

/-- What a line is ended with when it is written. -/
inductive LineEnd where
  | bare
  | full
  deriving DecidableEq

/-- What stands between a line and its line feed. -/
def LineEnd.carriage : LineEnd → Bytes
  | bare => []
  | full => [cr]

/-- A line and what it is ended with. -/
structure Written where
  text : Bytes
  lineEnd : LineEnd

namespace Written

/-- What stands before the line feed. -/
def body (line : Written) : Bytes := line.text ++ line.lineEnd.carriage

/-- The line with its line end. -/
def raw (line : Written) : Bytes := line.body ++ [lf]

/-- The line has no line feed in it, and no carriage return of its own before its line end. -/
structure Plain (line : Written) : Prop where
  noLf : lf ∉ line.text
  noCr : line.text.getLast? ≠ some cr

/-- The line is short enough to be taken, with the carriage return behind it if there is one. -/
def Fits (line : Written) : Prop :=
  line.text.length < maxLine ∨ line.text.length = maxLine ∧ line.lineEnd = .bare

variable {line : Written}

theorem lf_notMem_body (h : lf ∉ line.text) : lf ∉ line.body := by
  obtain ⟨text, lineEnd⟩ := line
  cases lineEnd with
  | bare =>
    change lf ∉ text ++ []
    rwa [List.append_nil]
  | full => exact notMem_append_cr h

theorem dropFinalCr_body (h : line.text.getLast? ≠ some cr) :
    dropFinalCr line.body = line.text := by
  obtain ⟨text, lineEnd⟩ := line
  cases lineEnd with
  | bare =>
    change dropFinalCr (text ++ []) = text
    rw [List.append_nil, dropFinalCr, if_neg h]
  | full => exact dropFinalCr_append_cr text

theorem fits_iff : line.Fits ↔ line.body.length ≤ maxLine := by
  obtain ⟨text, lineEnd⟩ := line
  cases lineEnd with
  | bare => simp [Fits, body, LineEnd.carriage, Nat.le_iff_lt_or_eq]
  | full =>
    simp only [Fits, body, LineEnd.carriage, reduceCtorEq, and_false, or_false, List.length_append]
    exact Nat.lt_iff_add_one_le

end Written

/-- Lines as they are written, one after the other. -/
def written (lines : List Written) : Bytes := lines.flatMap Written.raw

section

variable {line : Written} {lines : List Written} {i : Inbound} {rest : Bytes}

/-- A line that fits is taken. -/
theorem takeLine_of_written (hq : i.queued = []) (hline : line.Plain) (hfits : line.Fits)
    (hunread : i.unread = line.raw ++ rest) : takeLine i = .ok (some line.text) { i with
      unread := rest
      consumed := i.consumed + line.raw.length } := by
  have hsplit : i.unread = line.body ++ lf :: rest := by
    rw [hunread, Written.raw, List.append_assoc]
    rfl
  have htake := takeLine_of_line hq (Written.lf_notMem_body hline.noLf) (Written.fits_iff.1 hfits)
    hsplit
  rw [Written.dropFinalCr_body hline.noCr] at htake
  rw [htake, Written.raw, List.length_append]
  rfl

theorem on_of_written (hq : i.queued = []) (hline : line.Plain) (hfits : line.Fits)
    (hunread : i.unread = line.raw ++ rest) :
    Call.line.on i = {
      call := .line
      before := i
      outcome := .ok (.line (some line.text))
      after := { i with unread := rest, consumed := i.consumed + line.raw.length } } :=
  Call.on_of_ok (bind_of_ok (takeLine_of_written hq hline hfits hunread))

/-- A line that does not fit is refused, whatever it ends with. -/
theorem outcome_of_long (hq : i.queued = []) (hlf : lf ∉ line.text) (hlong : ¬ line.Fits)
    (hunread : i.unread = line.raw ++ rest) :
    (Call.line.on i).outcome = .error (.rejected .lineTooLong) := by
  have hbody : i.unread.takeWhile (· ≠ lf) = line.body := by
    rw [hunread, Written.raw, List.append_assoc]
    exact takeWhile_of_line (Written.lf_notMem_body hlf)
  rw [Written.fits_iff, ← hbody] at hlong
  rw [Call.on_of_error (bind_of_error (takeLine_of_long hq (Nat.lt_of_not_le hlong)))]

theorem on_of_empty (hq : i.queued = []) (hunread : i.unread = []) :
    Call.line.on i = { call := .line, before := i, outcome := .ok (.line none), after := i } := by
  have htake : takeLine i = .ok none i := by
    unfold takeLine
    rw [hq, hunread]
  exact Call.on_of_ok (bind_of_ok htake)

theorem takings_append (i : Inbound) (calls more : List Call) :
    takings i (calls ++ more) = takings i calls ++ takings (left i calls) more := by
  induction calls generalizing i with
  | nil => rfl
  | cons call calls ih => exact congrArg (call.on i :: ·) (ih (call.on i).after)

theorem left_append (i : Inbound) (calls more : List Call) :
    left i (calls ++ more) = left (left i calls) more := by
  induction calls generalizing i with
  | nil => rfl
  | cons call calls ih => exact ih (call.on i).after

/-- Line after line is taken. -/
theorem takings_of_written (hlines : ∀ line ∈ lines, line.Plain ∧ line.Fits) (hq : i.queued = [])
    (hunread : i.unread = written lines ++ rest) :
    (takings i (List.replicate lines.length .line)).map Taking.outcome =
        lines.map (fun line => .ok (.line (some line.text))) ∧
      left i (List.replicate lines.length .line) = { i with
        unread := rest
        consumed := i.consumed + (written lines).length } := by
  induction lines generalizing i with
  | nil =>
    obtain ⟨unread, queued, consumed⟩ := i
    cases hunread
    exact ⟨rfl, rfl⟩
  | cons line lines ih =>
    obtain ⟨hline, hfits⟩ := hlines line List.mem_cons_self
    have hsplit : i.unread = line.raw ++ (written lines ++ rest) := by
      rw [hunread, written, List.flatMap_cons, List.append_assoc]
      rfl
    have hfirst := on_of_written hq hline hfits hsplit
    obtain ⟨houtcomes, hleft⟩ := ih (i := (Call.line.on i).after)
      (fun other hmem => hlines other (List.mem_cons_of_mem line hmem)) (by rw [hfirst]; exact hq)
      (by rw [hfirst])
    constructor
    · rw [List.length_cons, List.replicate_succ, takings, List.map_cons, houtcomes, hfirst]
      rfl
    · rw [List.length_cons, List.replicate_succ, left, hleft, hfirst, written, written,
        List.flatMap_cons, List.length_append, Nat.add_assoc]

end

/-- Lines that fit come back as they were written. Then nothing comes, unless there is a line that
does not fit: it is refused, whatever it ends with. -/
theorem takings_written (lines : List Written) (hlines : ∀ line ∈ lines, line.Plain ∧ line.Fits) :
    let calls := List.replicate (lines.length + 1) Call.line
    let texts : List (Except Failure Yield) := lines.map fun line => .ok (.line (some line.text))
    (takings { unread := written lines } calls).map Taking.outcome = texts ++ [.ok (.line none)] ∧
    (left { unread := written lines } calls).consumed = (written lines).length ∧
    ∀ (line : Written) (rest : Bytes), lf ∉ line.text → ¬ line.Fits →
      (takings { unread := written lines ++ (line.raw ++ rest) } calls).map Taking.outcome =
        texts ++ [.error (.rejected .lineTooLong)] ∧
      Rejection.lineTooLong.code = .invalidRequest := by
  intro calls texts
  have hcalls : calls = List.replicate lines.length .line ++ [.line] := List.replicate_succ'
  obtain ⟨houtcomes, hleft⟩ := takings_of_written (i := { unread := written lines }) hlines rfl
    (List.append_nil _).symm
  rw [hcalls]
  refine ⟨?_, ?_, fun line rest hlf hlong => ⟨?_, rfl⟩⟩
  · rw [takings_append, List.map_append, houtcomes, hleft]
    exact congrArg (texts ++ [·]) (congrArg Taking.outcome (on_of_empty rfl rfl))
  · rw [left_append, hleft, left, on_of_empty rfl rfl]
    exact Nat.zero_add _
  · obtain ⟨houtcomes, hleft⟩ := takings_of_written
      (i := { unread := written lines ++ (line.raw ++ rest) }) hlines rfl rfl
    rw [takings_append, List.map_append, houtcomes, hleft]
    exact congrArg (texts ++ [·]) (outcome_of_long rfl hlf hlong rfl)

/-- A line as long as a line may be. -/
def longest : Bytes := List.replicate maxLine 0x61

theorem plain_longest (lineEnd : LineEnd) : Written.Plain { text := longest, lineEnd } where
  noLf hmem := by
    have hlf := List.eq_of_mem_replicate hmem
    exact absurd hlf (by decide)
  noCr hlast := by
    have hcr := List.eq_of_mem_replicate (List.mem_of_getLast? hlast)
    exact absurd hcr (by decide)

/-- The carriage return behind it is one byte too many. -/
theorem not_fits_longest : ¬ Written.Fits { text := longest, lineEnd := .full } := by
  rintro (hshort | ⟨_, hbare⟩)
  · exact absurd hshort (Nat.not_lt.2 (Nat.le_of_eq List.length_replicate.symm))
  · cases hbare

theorem takings_written_longest :
    let bare : Written := { text := longest, lineEnd := .bare }
    let full : Written := { text := longest, lineEnd := .full }
    bare.Plain ∧ bare.Fits ∧
    (takings { unread := written [bare] } [.line, .line]).map Taking.outcome =
      [.ok (.line (some longest)), .ok (.line none)] ∧
    (takings { unread := written [bare] ++ (full.raw ++ []) } [.line, .line]).map Taking.outcome =
      [.ok (.line (some longest)), .error (.rejected .lineTooLong)] := by
  intro bare full
  have hplain : bare.Plain := plain_longest .bare
  have hfits : bare.Fits := .inr ⟨List.length_replicate, rfl⟩
  obtain ⟨houtcomes, _, hlong⟩ := takings_written [bare] fun line hline => by
    obtain rfl := List.mem_singleton.1 hline
    exact ⟨hplain, hfits⟩
  exact ⟨hplain, hfits, houtcomes, (hlong full [] (plain_longest .full).noLf not_fits_longest).1⟩

/-- A line of `maxLine` bytes that is ended by CRLF does not come back. -/
theorem not_taken_of_carriage : ¬ ∀ lines : List Written,
    (∀ line ∈ lines, line.Plain ∧ line.text.length ≤ maxLine) →
    (takings { unread := written lines } (List.replicate (lines.length + 1) .line)).map
      Taking.outcome =
      lines.map (fun line => .ok (.line (some line.text))) ++ [.ok (.line none)] := by
  intro hall
  let full : Written := { text := longest, lineEnd := .full }
  have hbad := hall [full] fun line hline => by
    obtain rfl := List.mem_singleton.1 hline
    exact ⟨plain_longest .full, Nat.le_of_eq List.length_replicate⟩
  have hunread : written [full] = full.raw ++ [] := rfl
  have hrefused : (Call.line.on { unread := written [full] }).outcome =
      .error (.rejected .lineTooLong) :=
    outcome_of_long rfl (plain_longest .full).noLf not_fits_longest hunread
  have hfirst := (List.cons.inj hbad).1
  rw [hrefused] at hfirst
  cases hfirst

end Gntp.Inbound
