import Gntp.Proofs.Acting
import Gntp.Proofs.Lines
import Gntp.Proofs.Settled
import Mathlib.Data.List.Nodup

/-!
# What is written

Whatever is sent to a service, it writes nothing or one response, and nothing of what was sent can
add a header to it, break one or end it early (`handle_writes_response`): every value goes into a
response on one line and under a key of the service's own (`Response.Sound`).
-/

namespace Gntp

open Bytes

/-- A key of a header: not empty, and without a colon and line breaks. -/
structure IsKey (key : Bytes) : Prop where
  nonempty : key ≠ []
  noColon : 0x3a ∉ key
  unbroken : Unbroken key

instance (key : Bytes) : Decidable (IsKey key) :=
  decidable_of_iff (key ≠ [] ∧ 0x3a ∉ key ∧ cr ∉ key ∧ lf ∉ key)
    ⟨fun ⟨hne, hcolon, hcr, hlf⟩ => ⟨hne, hcolon, hcr, hlf⟩,
      fun h => ⟨h.nonempty, h.noColon, h.unbroken.noCr, h.unbroken.noLf⟩⟩

/-- A text is one response with a status and headers. -/
structure IsResponse (text statusLine : Bytes) (entries : List (Bytes × Bytes)) : Prop where
  written : text = statusLine ++ [0x0d, 0x0a] ++
    entries.flatMap (fun (key, value) => key ++ ascii ": " ++ value ++ [0x0d, 0x0a]) ++
      [0x0d, 0x0a]
  nonempty : entries ≠ []
  keys : ∀ entry ∈ entries, IsKey entry.1
  values : ∀ entry ∈ entries, Unbroken entry.2
  distinct : (entries.map Prod.fst).Nodup
  /-- Carriage returns and line feeds come as line ends only. -/
  paired : Paired text
  /-- The blank line is the end. -/
  ends : ∀ before after, text = before ++ [0x0d, 0x0a, 0x0d, 0x0a] ++ after → after = []

namespace Response

/-- The headers of a response stand on lines of their own, each with a key of its own. -/
structure Sound (r : Response) : Prop where
  keys : ∀ entry ∈ r.headers.entries, IsKey entry.1
  values : ∀ entry ∈ r.headers.entries, Unbroken entry.2
  distinct : (r.headers.entries.map Prod.fst).Nodup

variable {r : Response} {key value : Bytes}

theorem unbroken_oneLine : Unbroken (oneLine value) where
  noCr h := by
    obtain ⟨b, _, hb⟩ := List.mem_map.1 h
    split at hb
    · cases hb
    · next hne => exact hne (.inl hb)
  noLf h := by
    obtain ⟨b, _, hb⟩ := List.mem_map.1 h
    split at hb
    · cases hb
    · next hne => exact hne (.inr hb)

namespace Sound

theorem empty {status : Status} : Sound { status } where
  keys _ h := nomatch h
  values _ h := nomatch h
  distinct := List.nodup_nil

theorem addHeader (h : r.Sound) (hk : IsKey key) (value : Bytes) : (r.addHeader key value).Sound where
  keys entry hmem := by
    rcases Assoc.mem_of_mem_set hmem with rfl | hmem
    · exact hk
    · exact h.keys entry hmem
  values entry hmem := by
    rcases Assoc.mem_of_mem_set hmem with rfl | hmem
    · exact unbroken_oneLine
    · exact h.values entry hmem
  distinct := Assoc.nodup_keys_set h.distinct key _

theorem addHeaders {entries : List (Bytes × Bytes)} (h : r.Sound)
    (hk : ∀ entry ∈ entries, IsKey entry.1) : (r.addHeaders entries).Sound := by
  induction entries generalizing r with
  | nil => exact h
  | cons entry entries ih =>
    have hfirst : (r.addHeader entry.1 entry.2).Sound :=
      h.addHeader (hk entry List.mem_cons_self) entry.2
    exact ih hfirst fun entry hmem => hk entry (List.mem_cons_of_mem _ hmem)

end Sound

/-! ## Headers -/

theorem get?_addHeader_self : (r.addHeader key value).headers.get? key = some (oneLine value) :=
  Assoc.lookup_set_self key (oneLine value) r.headers.entries

theorem get?_addHeader_of_ne {other : Bytes} (h : other ≠ key) :
    (r.addHeader key value).headers.get? other = r.headers.get? other :=
  Assoc.lookup_set_of_ne h (oneLine value) r.headers.entries

theorem get?_addHeaders_of_notMem {entries : List (Bytes × Bytes)}
    (h : key ∉ entries.map Prod.fst) :
    (r.addHeaders entries).headers.get? key = r.headers.get? key := by
  induction entries generalizing r with
  | nil => rfl
  | cons entry entries ih =>
    have hne : key ≠ entry.1 := fun heq => h (heq ▸ List.mem_cons_self)
    have hrest : key ∉ entries.map Prod.fst := fun hmem => h (List.mem_cons_of_mem _ hmem)
    exact (ih hrest).trans (get?_addHeader_of_ne hne)

theorem get?_addHeaders_of_mem {entries : List (Bytes × Bytes)}
    (h : (entries.map Prod.fst).Nodup) {entry : Bytes × Bytes} (hmem : entry ∈ entries) :
    (r.addHeaders entries).headers.get? entry.1 = some (oneLine entry.2) := by
  induction entries generalizing r with
  | nil => cases hmem
  | cons first entries ih =>
    obtain ⟨hnew, hrest⟩ := List.nodup_cons.1 h
    rcases List.mem_cons.1 hmem with rfl | hmem
    · exact (get?_addHeaders_of_notMem hnew).trans get?_addHeader_self
    · exact ih hrest hmem

/-! ## The bytes -/

theorem render_eq_block : r.render =
    block (r.status.line :: r.headers.entries.map fun entry => entry.1 ++ ascii ": " ++ entry.2) := by
  rw [render, block, List.flatMap_cons, List.flatMap_map]
  rfl

theorem line_ne_nil (status : Status) : status.line ≠ [] := by
  cases status <;> decide

theorem render_ne_nil : r.render ≠ [] := by
  intro h
  rw [render, List.append_assoc, List.append_assoc] at h
  exact line_ne_nil r.status (List.append_eq_nil_iff.1 h).1

theorem unbroken_statusLine (status : Status) : Unbroken status.line := by
  cases status <;> exact ⟨by decide, by decide⟩

theorem Sound.isResponse (h : r.Sound) (hne : r.headers.entries ≠ []) :
    IsResponse r.render r.status.line r.headers.entries := by
  have hlines : ∀ line ∈ r.status.line ::
      r.headers.entries.map (fun entry => entry.1 ++ ascii ": " ++ entry.2),
      Unbroken line ∧ line ≠ [] := by
    intro line hmem
    rcases List.mem_cons.1 hmem with rfl | hmem
    · exact ⟨unbroken_statusLine _, line_ne_nil _⟩
    · obtain ⟨entry, hentry, rfl⟩ := List.mem_map.1 hmem
      have hkey := h.keys entry hentry
      have hcolon : Unbroken (ascii ": ") := ⟨by decide, by decide⟩
      refine ⟨(hkey.unbroken.append hcolon).append (h.values entry hentry), ?_⟩
      intro hnil
      exact hkey.nonempty (List.append_eq_nil_iff.1 (List.append_eq_nil_iff.1 hnil).1).1
  refine ⟨rfl, hne, h.keys, h.values, h.distinct, ?_, ?_⟩
  · rw [render_eq_block]
    exact .block fun line hmem => (hlines line hmem).1
  · intro before after heq
    rw [render_eq_block] at heq
    exact eq_nil_of_block hlines heq

end Response

/-! ## What the responses of a service say -/

namespace Origin

/-- The keys of the origin headers. -/
def keys : List Bytes := [ascii "Origin-Machine-Name", ascii "Origin-Software-Name",
  ascii "Origin-Software-Version", ascii "Origin-Platform-Name", ascii "Origin-Platform-Version"]

theorem keys_of_entries (o : Origin) : o.entries.map Prod.fst = keys := rfl

theorem isKey_of_entries (o : Origin) : ∀ entry ∈ o.entries, IsKey entry.1 := by
  have hkeys : ∀ key ∈ keys, IsKey key := by decide
  intro entry hmem
  exact hkeys entry.1 (List.mem_map_of_mem (f := Prod.fst) hmem)

theorem nodup_keys (o : Origin) : (o.entries.map Prod.fst).Nodup := by
  rw [keys_of_entries]
  decide

end Origin

namespace Response

variable {r : Response} {key value : Bytes} {o : Origin}

theorem Sound.addOrigin (h : r.Sound) (o : Origin) : (r.addOrigin o).Sound :=
  h.addHeaders o.isKey_of_entries

theorem get?_addOrigin (h : key ∉ Origin.keys) :
    (r.addOrigin o).headers.get? key = r.headers.get? key :=
  get?_addHeaders_of_notMem h

/-- Every origin header is there once, with its value on one line. -/
theorem Sound.origin_once (h : r.Sound) {entry : Bytes × Bytes} (hmem : entry ∈ o.entries) :
    (entry.1, oneLine entry.2) ∈ (r.addOrigin o).headers.entries ∧
    ((r.addOrigin o).headers.entries.map Prod.fst).count entry.1 = 1 := by
  have hget : (r.addOrigin o).headers.get? entry.1 = some (oneLine entry.2) :=
    get?_addHeaders_of_mem o.nodup_keys hmem
  have hin : (entry.1, oneLine entry.2) ∈ (r.addOrigin o).headers.entries :=
    Assoc.mem_of_lookup hget
  have hkey : entry.1 ∈ (r.addOrigin o).headers.entries.map Prod.fst :=
    List.mem_map.2 ⟨(entry.1, oneLine entry.2), hin, rfl⟩
  exact ⟨hin, List.count_eq_one_of_mem (h.addOrigin o).distinct hkey⟩

theorem Sound.isResponse_addOrigin (h : r.Sound) (o : Origin) :
    IsResponse (r.addOrigin o).render r.status.line (r.addOrigin o).headers.entries := by
  have hne : (r.addOrigin o).headers.entries ≠ [] := by
    intro hnil
    have hfirst := (h.origin_once (o := o) List.mem_cons_self).1
    rw [hnil] at hfirst
    cases hfirst
  rw [← status_addOrigin r o]
  exact (h.addOrigin o).isResponse hne

theorem Sound.ok (action : MessageType) : (Response.ok action).Sound := by
  have haction : (({ status := .ok } : Response).addHeader actionKey action.name).Sound :=
    empty.addHeader (by decide) _
  unfold Response.ok
  split
  · exact haction.addHeader (by decide) _
  · exact haction

theorem Sound.error (code : ErrorCode) (description : Bytes) :
    (Response.error code description).Sound :=
  (empty.addHeader (by decide) _).addHeader (by decide) _

theorem Sound.ofReport (report : Report) : (Response.ofReport report).Sound := by
  unfold Response.ofReport
  split <;> exact .error _ _

theorem get?_ok (action : MessageType) :
    (Response.ok action).headers.get? actionKey = some action.name := by
  cases action <;> rfl

theorem get?_error {code : ErrorCode} {description : Bytes} :
    (error code description).headers.get? codeKey = some (Decimal.ofNat code.value) ∧
    (error code description).headers.get? descriptionKey = some (oneLine description) := by
  refine ⟨?_, get?_addHeader_self⟩
  rw [error, get?_addHeader_of_ne (by decide), get?_addHeader_self]
  cases code <;> decide +kernel

/-- A refusal names one of the codes and says why. -/
theorem get?_ofReport (report : Report) : ∃ code description,
    (ofReport report).headers.get? codeKey = some (Decimal.ofNat (ErrorCode.value code)) ∧
    (ofReport report).headers.get? descriptionKey = some description := by
  unfold ofReport
  split <;> exact ⟨_, _, get?_error⟩

end Response

/-- How the kinds of message are written. -/
theorem MessageType.mem_names (type : MessageType) :
    (type, type.name) ∈ [(.register, ascii "REGISTER"), (.notify, ascii "NOTIFY"),
      (.subscribe, ascii "SUBSCRIBE")] := by
  cases type <;> decide

namespace Request

variable {request : Request}

theorem sound_answerIgnored : request.answerIgnored.Sound := by
  unfold answerIgnored
  split
  · exact (Response.Sound.ok _).addHeader (by decide) _
  · exact .ok _

theorem get?_answerIgnored :
    request.answerIgnored.headers.get? Response.actionKey = some request.messageType.name := by
  unfold answerIgnored
  split
  · next hm =>
    rw [acceptNotify, Response.get?_addHeader_of_ne (by decide), Response.get?_ok, hm]
  · exact Response.get?_ok _

end Request

namespace Service

open Gntp.Action

variable {service : Service} {world : World} {input : Bytes}

/-- What a service can respond. -/
inductive Responds (service : Service) (input : Bytes) : Option Response → Prop
  | nothing : Responds service input none
  | accepts {line : RequestLine} (request : Request) : Opens input line →
    request.messageType = line.messageType →
    Responds service input (some (request.answerIgnored.addOrigin service.origin))
  | refuses (failure : Failure) : Responds service input (some (service.refuse failure))

theorem responds_of_handle : service.Responds input (service.handle world input).response := by
  cases hp : Reading.parse service.gate (.start input world.store) with
  | error failure r =>
    rw [handle_of_unread hp]
    exact .refuses failure
  | ok request? r =>
    cases request? with
    | none =>
      rw [handle_of_truncated hp]
      exact .nothing
    | some request =>
      cases ha : request.act { registry := world.registry } with
      | error failure after =>
        rw [handle_of_refused hp ha]
        exact .refuses failure
      | ok response after =>
        obtain ⟨line, access, hg, hm, _⟩ := Reading.granted_of_parse hp
        rw [handle_of_accepted hp ha, Request.answerIgnored_of_act ha]
        exact .accepts request hg.opens hm

/-- The values of the Error-Code header. -/
def errorCodes : List Bytes := [ascii "300", ascii "301", ascii "302", ascii "400", ascii "401",
  ascii "402", ascii "500"]

theorem mem_errorCodes (code : ErrorCode) : Decimal.ofNat code.value ∈ errorCodes := by
  cases code <;> decide +kernel

/-- A service writes nothing, or one response that nobody else has a say in. -/
theorem handle_writes_response (service : Service) (world : World) (input : Bytes) :
    ((service.handle world input).handled = false ∧ (service.handle world input).output = []) ∨
    ((service.handle world input).handled = true ∧ (service.handle world input).output ≠ [] ∧
      ∃ statusLine entries,
        IsResponse (service.handle world input).output statusLine entries ∧
        (∀ entry ∈ [
            (ascii "Origin-Machine-Name", service.origin.machineName),
            (ascii "Origin-Software-Name", service.origin.softwareName),
            (ascii "Origin-Software-Version", service.origin.softwareVersion),
            (ascii "Origin-Platform-Name", service.origin.platformName),
            (ascii "Origin-Platform-Version", service.origin.platformVersion)],
          (entry.1, entry.2.map fun b => if b = 0x0d ∨ b = 0x0a then 0x20 else b) ∈ entries ∧
            (entries.map Prod.fst).count entry.1 = 1) ∧
        ((statusLine = ascii "GNTP/1.0 -OK NONE" ∧ ∃ line, Opens input line ∧ ∃ action,
            (line.messageType, action) ∈ [(.register, ascii "REGISTER"),
              (.notify, ascii "NOTIFY"), (.subscribe, ascii "SUBSCRIBE")] ∧
            (ascii "Response-Action", action) ∈ entries) ∨
          (statusLine = ascii "GNTP/1.0 -ERROR NONE" ∧
            (∃ description, (ascii "Error-Description", description) ∈ entries) ∧
            ∃ code ∈ errorCodes, (ascii "Error-Code", code) ∈ entries))) := by
  have hresponds : service.Responds input (service.handle world input).response :=
    responds_of_handle
  unfold Outcome.handled Outcome.output
  generalize (service.handle world input).response = response? at hresponds
  cases hresponds with
  | nothing => exact .inl ⟨rfl, rfl⟩
  | @accepts line request hopens hm =>
    have hsound : request.answerIgnored.Sound := request.sound_answerIgnored
    have haction : (request.answerIgnored.addOrigin service.origin).headers.get?
        Response.actionKey = some line.messageType.name := by
      rw [Response.get?_addOrigin (by decide), request.get?_answerIgnored, hm]
    refine .inr ⟨rfl, Response.render_ne_nil, _, _, hsound.isResponse_addOrigin service.origin,
      fun entry hmem => hsound.origin_once hmem, .inl ⟨?_, line, hopens, _,
        MessageType.mem_names line.messageType, Assoc.mem_of_lookup haction⟩⟩
    rw [Request.status_answerIgnored]
    rfl
  | refuses failure =>
    have hsound : (Response.ofReport failure.report).Sound := .ofReport failure.report
    obtain ⟨code, description, hcode, hdescription⟩ := Response.get?_ofReport failure.report
    have hcode' : (service.refuse failure).headers.get? Response.codeKey =
        some (Decimal.ofNat code.value) := (Response.get?_addOrigin (by decide)).trans hcode
    have hdescription' : (service.refuse failure).headers.get? Response.descriptionKey =
        some description := (Response.get?_addOrigin (by decide)).trans hdescription
    refine .inr ⟨rfl, Response.render_ne_nil, _, _, hsound.isResponse_addOrigin service.origin,
      fun entry hmem => hsound.origin_once hmem,
      .inr ⟨?_, ⟨description, Assoc.mem_of_lookup hdescription'⟩, _, mem_errorCodes code,
        Assoc.mem_of_lookup hcode'⟩⟩
    rw [Response.status_ofReport]
    rfl

end Service

end Gntp
