import Gntp.Proofs.Framing
import Gntp.Proofs.ResponseFormat
import Gntp.Proofs.Trimming

/-!
# Responses read back

A response is read back from the bytes that it is sent as, up to the blanks around its values
(`Response.parse_render`), and no more is lost when it is sent on
(`Response.parse_render_of_built`).
-/

namespace Gntp

open Bytes

namespace Headers

variable {h : Headers} {key : Bytes} {entries : List (Bytes × Bytes)}

/-- The text of a header comes apart at the colon behind its key. -/
theorem parseLine_of_isKey (hkey : IsKey key) (value : Bytes) :
    parseLine (key ++ ascii ": " ++ value) = .ok (key, trim value) := by
  have hcut : cutAt 0x3a (key ++ ascii ": " ++ value) = some (key, [0x20] ++ value) := by
    rw [List.append_assoc]
    exact cutAt_append hkey.noColon
  have hspace : Blank [0x20] := List.forall_mem_singleton.2 rfl
  rw [parseLine, hcut, ← trim_blank_append hspace value]
  cases key with
  | nil => exact absurd rfl hkey.nonempty
  | cons b more => rfl

/-- Keys that are all new are added in order. -/
theorem entries_foldl_set (hnew : ((h.entries ++ entries).map Prod.fst).Nodup) :
    (entries.foldl (fun h entry => h.set entry.1 entry.2) h).entries = h.entries ++ entries := by
  induction entries generalizing h with
  | nil => exact (List.append_nil _).symm
  | cons entry entries ih =>
    have hsplit : h.entries ++ entry :: entries = (h.entries ++ [entry]) ++ entries :=
      List.append_cons ..
    rw [hsplit] at hnew
    have hfirst : ((h.entries ++ [entry]).map Prod.fst).Nodup :=
      hnew.sublist ((List.sublist_append_left _ _).map Prod.fst)
    rw [List.map_append] at hfirst
    have hkey : entry.1 ∉ h.entries.map Prod.fst := fun hmem =>
      (List.nodup_append.1 hfirst).2.2 entry.1 hmem entry.1 List.mem_cons_self rfl
    have hset : (h.set entry.1 entry.2).entries = h.entries ++ [entry] := Assoc.set_of_notMem hkey
    rw [List.foldl_cons, ih (by rwa [hset]), hset, hsplit]

end Headers

namespace Response

variable {r : Response} {entries : List (Bytes × Bytes)}

/-- The response without the blanks around its values. -/
def trimmed (r : Response) : Response := { r with
  headers := ⟨r.headers.entries.map fun entry => (entry.1, trim entry.2)⟩ }

@[simp] theorem keys_trimmed (r : Response) :
    r.trimmed.headers.entries.map Prod.fst = r.headers.entries.map Prod.fst := by
  simp [trimmed, Function.comp_def]

@[simp] theorem trimmed_trimmed (r : Response) : r.trimmed.trimmed = r.trimmed := by
  simp [trimmed, Function.comp_def]

/-! ## Lines -/

/-- The lines of what is sent, each with the carriage return of its line end. -/
theorem linesOf_block {lines : List Bytes} (h : ∀ line ∈ lines, Unbroken line) :
    linesOf (block lines) = (lines ++ [[]]).map (· ++ [cr]) := by
  have hwire : block lines = Inbound.wire (lines ++ [[]]) := by
    simp [block, Inbound.wire]
  have hlf : ∀ line ∈ lines ++ [[]], lf ∉ line :=
    List.forall_mem_append.2 ⟨fun line hmem => (h line hmem).noLf, by simp⟩
  rw [hwire, linesOf, Inbound.splitOn_wire hlf, if_pos (by simp), List.dropLast_concat]

/-- The text of a header line. -/
def headerText (entry : Bytes × Bytes) : Bytes := entry.1 ++ ascii ": " ++ entry.2

theorem headerText_ne_nil {entry : Bytes × Bytes} (hkey : IsKey entry.1) :
    headerText entry ≠ [] := by
  simp [headerText, hkey.nonempty]

/-- Header lines are read up to the blank line, whatever follows. -/
theorem parseHeaders_written (hkeys : ∀ entry ∈ entries, IsKey entry.1) (h : Headers) :
    parseHeaders h ((entries.map headerText ++ [[]]).map (· ++ [cr])) =
      .ok ((entries.map fun entry => (entry.1, trim entry.2)).foldl
        (fun h entry => h.set entry.1 entry.2) h) := by
  induction entries generalizing h with
  | nil => rfl
  | cons entry entries ih =>
    have hkey := hkeys entry List.mem_cons_self
    have hrecord : h.record (headerText entry) =
        .ok ((entry.1, trim entry.2), h.set entry.1 (trim entry.2)) := by
      rw [Headers.record, headerText, Headers.parseLine_of_isKey hkey]
      rfl
    rw [List.map_cons, List.cons_append, List.map_cons, parseHeaders,
      Inbound.dropFinalCr_append_cr, if_neg (headerText_ne_nil hkey), hrecord]
    exact ih (fun other hmem => hkeys other (List.mem_cons_of_mem _ hmem)) _

/-! ## Reading back -/

theorem Sound.trimmed (h : r.Sound) : r.trimmed.Sound where
  keys entry hmem := by
    obtain ⟨original, horiginal, rfl⟩ := List.mem_map.1 hmem
    exact h.keys original horiginal
  values entry hmem := by
    obtain ⟨original, horiginal, rfl⟩ := List.mem_map.1 hmem
    obtain ⟨_, before, after, _, _, hsplit⟩ := trim_eq_iff.1 (rfl : trim original.2 = _)
    have hin : ∀ b ∈ trim original.2, b ∈ original.2 := fun b hb => by
      rw [hsplit]
      exact List.mem_append_left _ (List.mem_append_right _ hb)
    have hvalue := h.values original horiginal
    exact ⟨fun hcr => hvalue.noCr (hin _ hcr), fun hlf => hvalue.noLf (hin _ hlf)⟩
  distinct := by
    rw [keys_trimmed]
    exact h.distinct

theorem trim_statusLine (status : Status) : trim (status.line ++ [cr]) = status.line := by
  cases status <;> decide +kernel

/-- A sound response is read back without the blanks around its values. -/
theorem parse_render (h : r.Sound) : parse r.render = .ok r.trimmed := by
  have hlines : linesOf r.render = (r.status.line ++ [cr]) ::
      (r.headers.entries.map headerText ++ [[]]).map (· ++ [cr]) := by
    rw [render_eq_block, linesOf_block]
    · rfl
    · refine List.forall_mem_cons.2 ⟨unbroken_statusLine _, fun line hmem => ?_⟩
      obtain ⟨entry, hentry, rfl⟩ := List.mem_map.1 hmem
      have hcolon : Unbroken (ascii ": ") := ⟨by decide, by decide⟩
      exact ((h.keys entry hentry).unbroken.append hcolon).append (h.values entry hentry)
  have hheaders : parseHeaders {} ((r.headers.entries.map headerText ++ [[]]).map (· ++ [cr])) =
      .ok r.trimmed.headers := by
    have hentries := Headers.entries_foldl_set (h := {}) h.trimmed.distinct
    rw [parseHeaders_written h.keys]
    exact congrArg Except.ok (congrArg Headers.mk hentries)
  unfold parse
  rw [hlines]
  dsimp only
  rw [trim_statusLine, hheaders]
  obtain ⟨status, headers⟩ := r
  cases status with
  | ok => rfl
  | error =>
    have hne : Status.error.line ≠ Status.ok.line := by decide
    rw [if_neg hne]
    rfl

/-- Whatever headers are added to a response, it is read back with its status and its keys in
order, and with its values up to the blanks around them. What was read back is read back again as
it is. -/
theorem parse_render_of_built {start : Response}
    (hstart : (∃ action, start = ok action) ∨ ∃ code description, start = error code description)
    (hkeys : ∀ entry ∈ entries, IsKey entry.1) :
    let r := start.addHeaders entries
    ∃ back, parse r.render = .ok back ∧ back.status = start.status ∧
      back.headers.entries = r.headers.entries.map (fun entry => (entry.1, trim entry.2)) ∧
      parse back.render = .ok back := by
  intro r
  have hsound : start.Sound := by
    rcases hstart with ⟨action, rfl⟩ | ⟨code, description, rfl⟩
    · exact .ok action
    · exact .error code description
  have hr : r.Sound := hsound.addHeaders hkeys
  refine ⟨r.trimmed, parse_render hr, status_addHeaders start entries, rfl, ?_⟩
  rw [parse_render hr.trimmed, trimmed_trimmed]

/-- A value with line breaks and colons, a key that comes twice and one that stood there before. -/
theorem parse_render_of_repeated :
    let entries := [(ascii "X y", ascii "1"), (ascii "Error-Code", ascii " 9\r\n9 "),
      (ascii "X y", ascii "\na: b\t")]
    (∀ entry ∈ entries, IsKey entry.1) ∧
    ∃ back, parse ((error .notAuthorized (ascii " no\r")).addHeaders entries).render = .ok back ∧
      back = { status := .error, headers := ⟨[(ascii "Error-Code", ascii "9  9"),
        (ascii "Error-Description", ascii "no"), (ascii "X y", ascii "a: b")]⟩ } ∧
      parse back.render = .ok back := by
  intro entries
  have hkeys : ∀ entry ∈ entries, IsKey entry.1 := by decide +kernel
  obtain ⟨⟨status, headers⟩, hback, hstatus, hentries, hagain⟩ := parse_render_of_built
    (.inr ⟨.notAuthorized, ascii " no\r", rfl⟩) hkeys
  refine ⟨hkeys, _, hback, ?_, hagain⟩
  obtain rfl : status = .error := hstatus
  have hlist : headers.entries = [(ascii "Error-Code", ascii "9  9"),
      (ascii "Error-Description", ascii "no"), (ascii "X y", ascii "a: b")] :=
    hentries.trans (by decide +kernel)
  rw [← hlist]

end Response

end Gntp
