import Gntp.Proofs.Attaching
import Gntp.Proofs.HeaderLines
import Gntp.Proofs.HeaderText
import Gntp.Proofs.InternalErrors
import Gntp.Proofs.LineLimit
import Gntp.Proofs.Numerals
import Gntp.Proofs.Payloads
import Gntp.Proofs.Placing
import Gntp.Proofs.ResponseReading

/-!
# Resources that are referred to

What a header refers to can be sent: a resource under its identifier is attached in four steps
(`Reading.resolves_of_delivery`). The identifier of a resource is a header value, though, and comes
without the blanks around it, while the one in a reference may begin with blanks. Such a reference
is never resolved, whatever is sent (`Reading.stuck_of_reaches`). `Reading.resolves_of_reference`
puts both together.
-/

namespace Gntp

open Gntp.Action Gntp.Bytes

/-! ## What a line refers to -/

namespace Headers

variable {line key value identifier : Bytes}

/-- An identifier that may stand in a reference. It does not end with a blank, and the line that
announces it is no longer than the one that refers to it. -/
structure Referable (identifier : Bytes) : Prop where
  ne_nil : identifier ≠ []
  noLf : lf ∉ identifier
  last : ∀ b, identifier.getLast? = some b → isBlank b = false
  short : identifier.length + 20 < Inbound.maxLine

theorem referable_of_line (hlf : lf ∉ line) (hshort : line.length ≤ Inbound.maxLine)
    (hparse : parseLine line = .ok (key, value))
    (href : reference? value = .ok (some identifier)) : Referable identifier := by
  obtain ⟨hne, rfl⟩ := reference?_eq_some.1 href
  obtain ⟨hkey, _, htrimmed, before, behind, _, _, rfl⟩ := parseLine_iff.1 hparse
  refine ⟨hne, fun hmem => hlf ?_, fun b hb => htrimmed.last b ?_, ?_⟩
  · simp [hmem]
  · rwa [List.getLast?_append_of_ne_nil _ hne]
  · have hlead : referenceLead.length = 19 := by decide
    have hpos := List.length_pos_iff.2 hkey
    simp only [List.length_append, List.length_cons, hlead] at hshort
    omega

/-- The lines that are taken off an input are short and have no line feeds. -/
theorem referable_of_taken {i i' : Inbound} (hq : i.queued = [])
    (htake : Inbound.takeLine i = .ok (some line) i')
    (hparse : parseLine line = .ok (key, value))
    (href : reference? value = .ok (some identifier)) : Referable identifier := by
  obtain ⟨raw, text, rest, hfirst, _, hshort, rfl, _⟩ := (Inbound.takeLine_eq_some hq).1 htake
  have hpart : dropFinalCr text <+: text := by
    unfold dropFinalCr
    split
    · exact List.dropLast_prefix text
    · exact List.prefix_rfl
  exact referable_of_line (fun hlf => hfirst.unbroken (hpart.subset hlf))
    (hpart.length_le.trans hshort) hparse href

end Headers

/-! ## Stores that keep a payload -/

/-- The store gives a place to a payload and keeps it there. -/
def Store.Serves (suite : Suite) (identifier payload : Bytes) (store : Store) : Prop :=
  ∃ slot opened, acquire suite identifier store = .ok slot opened ∧
    (slot.cached = false → ∃ kept,
      commit (opened.write slot payload).1 (opened.write slot payload).2 = .ok () kept)

/-- In memory there is always a place, and so there is where nothing is kept. -/
theorem Store.Volatile.serves {store : Store} (h : store.Volatile) (suite : Suite)
    (identifier payload : Bytes) : store.Serves suite identifier payload := by
  have hacquire : (acquire suite identifier).Leads store
      (fun slot store' => store' = store ∧ (slot.cached = false → store.Takes slot))
      fun _ => False := acquire_leads h
  cases hx : acquire suite identifier store with
  | error failure store' => exact (hacquire.of_error hx).elim
  | ok slot opened =>
    obtain ⟨rfl, htakes⟩ := hacquire.of_ok hx
    refine ⟨slot, opened, hx, fun huncached => ?_⟩
    obtain ⟨hsame, htakes⟩ := takes_write payload (htakes huncached)
    rw [hsame]
    have hcommit := commit_leads (E := fun _ => False) htakes
    cases hx : commit (opened.write slot payload).1 opened with
    | ok _ kept => exact ⟨kept, rfl⟩
    | error failure kept => exact (hcommit.of_error hx).elim

/-! ## A resource as it is sent -/

namespace Payload

open Inbound

/-- The headers that announce a resource. -/
def announcement (identifier : Bytes) (length : Nat) : Headers :=
  .ofList [(identifierKey, identifier), (lengthKey, Decimal.ofNat length)]

/-- The lines of these headers. -/
def identifierLine (identifier : Bytes) : Bytes := identifierKey ++ ascii ": " ++ identifier

def lengthLine (length : Nat) : Bytes := lengthKey ++ ascii ": " ++ Decimal.ofNat length

/-- A resource with its headers, a blank line, the payload and a blank line. -/
def delivery (identifier data : Bytes) (e₁ e₂ e₃ e₄ : LineEnd) : Bytes :=
  Written.raw ⟨identifierLine identifier, e₁⟩ ++ (Written.raw ⟨lengthLine data.length, e₂⟩ ++
    (Written.raw ⟨[], e₃⟩ ++ (data ++ Written.raw ⟨[], e₄⟩)))

variable {identifier : Bytes} {length : Nat} {lineEnd : LineEnd}

theorem isKey_identifierKey : IsKey identifierKey := by decide

theorem isKey_lengthKey : IsKey lengthKey := by decide

theorem parseLength_ofNat (h : length ≤ maxLength) :
    parseLength (Decimal.ofNat length) = .ok length := by
  have hshort : (Decimal.ofNat length).length ≤ 19 :=
    Decimal.length_ofNat_le (h.trans_lt (by decide))
  rw [parseLength, if_neg (by simp [Decimal.isNumeral_ofNat, hshort]), Decimal.value_ofNat,
    if_neg (Nat.not_lt.2 h)]

theorem announced_announcement (hne : identifier ≠ []) (h : length ≤ maxLength) :
    announced (announcement identifier length) = .ok (identifier, length) :=
  announced_eq_ok.2 ⟨rfl, hne, _, rfl, parseLength_ofNat h⟩

theorem plain_identifierLine (h : Headers.Referable identifier) :
    Written.Plain ⟨identifierLine identifier, lineEnd⟩ where
  noLf hmem := by
    have hlead : lf ∉ identifierKey ++ ascii ": " := by decide
    exact (List.mem_append.1 hmem).elim hlead h.noLf
  noCr hlast := by
    rw [identifierLine, List.getLast?_append_of_ne_nil _ h.ne_nil] at hlast
    cases h.last cr hlast

theorem fits_identifierLine (h : Headers.Referable identifier) :
    Written.Fits ⟨identifierLine identifier, lineEnd⟩ := by
  have hlead : (identifierKey ++ ascii ": ").length = 12 := by decide
  have hshort := h.short
  refine .inl ?_
  rw [identifierLine, List.length_append, hlead]
  omega

theorem isDigit_of_mem_ofNat {b : UInt8} (h : b ∈ Decimal.ofNat length) :
    Decimal.isDigit b = true := by
  have hall := Decimal.isNumeral_ofNat length
  rw [Decimal.isNumeral, Bool.and_eq_true] at hall
  exact List.all_eq_true.1 hall.2 b h

theorem trimmed_ofNat (n : Nat) : Trimmed (Decimal.ofNat n) := by
  have hblank {b : UInt8} (h : b ∈ Decimal.ofNat n) : isBlank b = false :=
    Decimal.isBlank_of_digit (Decimal.isDigit_iff.1 (isDigit_of_mem_ofNat h))
  exact ⟨fun _ h => hblank (List.mem_of_head? h), fun _ h => hblank (List.mem_of_getLast? h)⟩

theorem plain_lengthLine : Written.Plain ⟨lengthLine length, lineEnd⟩ where
  noLf hmem := by
    have hlead : lf ∉ lengthKey ++ ascii ": " := by decide
    rcases List.mem_append.1 hmem with hmem | hmem
    · exact hlead hmem
    · exact absurd (isDigit_of_mem_ofNat hmem) (by decide)
  noCr hlast := by
    have hlead : cr ∉ lengthKey ++ ascii ": " := by decide
    rcases List.mem_append.1 (List.mem_of_getLast? hlast) with hmem | hmem
    · exact hlead hmem
    · exact absurd (isDigit_of_mem_ofNat hmem) (by decide)

theorem fits_lengthLine (h : length ≤ maxLength) :
    Written.Fits ⟨lengthLine length, lineEnd⟩ := by
  have hlead : (lengthKey ++ ascii ": ").length = 8 := by decide
  have hshort : (Decimal.ofNat length).length ≤ 19 :=
    Decimal.length_ofNat_le (h.trans_lt (by decide))
  refine .inl ?_
  rw [lengthLine, List.length_append, hlead]
  exact Nat.lt_of_le_of_lt (Nat.add_le_add_left hshort 8) (by decide)

theorem plain_blank : Written.Plain ⟨[], lineEnd⟩ := ⟨by simp, by simp⟩

theorem fits_blank : Written.Fits ⟨[], lineEnd⟩ := .inl (by decide : 0 < maxLine)

/-- Behind a payload any blank line will do. -/
theorem takePayload_of_delivery (identifier : Bytes) {i : Inbound} {data rest : Bytes}
    (hq : i.queued = []) (hunread : i.unread = data ++ Written.raw ⟨[], lineEnd⟩ ++ rest) :
    ∃ consumed, takePayload identifier data.length i =
      .ok data { i with unread := rest, consumed } := by
  have hblank : ∀ b ∈ lineEnd.carriage, isBlank b = true :=
    List.all_eq_true.1 (by cases lineEnd <;> rfl)
  have hlf : lf ∉ lineEnd.carriage := by cases lineEnd <;> decide
  have hshort : lineEnd.carriage.length ≤ maxLine := by cases lineEnd <;> decide
  refine ⟨_, takePayload_eq_ok.2 ⟨hq, _, lineEnd.carriage, rest, rfl, ⟨hlf, .inl rfl⟩, hshort,
    List.forall_mem_append.2 ⟨hblank, List.forall_mem_singleton.2 rfl⟩, hunread, rfl⟩⟩

end Payload

/-! ## The steps -/

namespace Reading

variable {gate : Gate} {r r' r₁ : Reading} {identifier line data rest : Bytes}

theorem advance_of_step {phase : Phase} (h : step gate r = .ok phase r₁) :
    advance gate r = .ok () { r₁ with phase } := bind_of_ok h

theorem nextLine_of_taken {i : Inbound} (htake : Inbound.takeLine r.inbound = .ok (some line) i) :
    nextLine r = .ok line { r with inbound := i } :=
  bind_of_ok (onInbound_eq_ok.2 ⟨i, htake, rfl⟩)

theorem step_of_resourceHeaders (hp : r.phase = .resourceHeaders) :
    step gate r = (nextLine >>= resourceHeader) r := by
  have hread : read gate r.phase = readResourceHeader := by
    rw [hp]
    rfl
  rw [step_eq, hread]
  rfl

/-- The reading after a line, in a phase and with a block. -/
def beyond (r : Reading) (line : Inbound.Written) (rest : Bytes) (phase : Phase)
    (block : Headers) : Reading := { r with
  phase
  inbound := { r.inbound with
    unread := rest
    consumed := r.inbound.consumed + line.raw.length }
  block }

section

variable {written : Inbound.Written}

/-- A header of a resource is noted. -/
theorem advance_of_header {key value : Bytes} (hp : r.phase = .resourceHeaders)
    (hq : r.inbound.queued = []) (hplain : written.Plain) (hfits : written.Fits)
    (hparse : Headers.parseLine written.text = .ok (key, value))
    (hunread : r.inbound.unread = written.raw ++ rest) : advance gate r =
      .ok () (r.beyond written rest .resourceHeaders (r.block.set key value)) := by
  have htake := Inbound.takeLine_of_written hq hplain hfits hunread
  have hrecord : r.block.record written.text = .ok ((key, value), r.block.set key value) :=
    Headers.record_eq_ok.2 ⟨hparse, rfl⟩
  have hstep : step gate r = .ok .resourceHeaders
      (r.beyond written rest r.phase (r.block.set key value)) := by
    rw [step_of_resourceHeaders hp, bind_of_ok (nextLine_of_taken htake), resourceHeader,
      if_pos (Headers.ne_nil_of_parseLine hparse)]
    exact bind_eq_ok.2 ⟨_, _, rfl, bind_eq_ok.2 ⟨_, _, check_eq_ok.2 ⟨hrecord, rfl⟩, rfl⟩⟩
  exact advance_of_step hstep

/-- A blank line behind headers closes them. -/
theorem advance_of_blank (hp : r.phase = .resourceHeaders) (hq : r.inbound.queued = [])
    (hplain : written.Plain) (hfits : written.Fits) (hblank : written.text = [])
    (hblock : r.block.isEmpty = false) (hunread : r.inbound.unread = written.raw ++ rest) :
    advance gate r = .ok () (r.beyond written rest .resourceData r.block) := by
  have htake := Inbound.takeLine_of_written hq hplain hfits hunread
  have hstep : step gate r = .ok .resourceData (r.beyond written rest r.phase r.block) := by
    rw [step_of_resourceHeaders hp, bind_of_ok (nextLine_of_taken htake), hblank, resourceHeader,
      if_neg (not_not.2 rfl)]
    refine bind_eq_ok.2 ⟨_, _, rfl, ?_⟩
    dsimp only
    rw [hblock]
    rfl
  exact advance_of_step hstep

end

/-- A resource that is new is attached when it has been received. -/
theorem advance_of_payload {resource : Resource} {left : Receiving} (hp : r.phase = .resourceData)
    (hidentifier : r.block.get? Payload.identifierKey = some resource.identifier)
    (hnew : r.request.attachments.find? resource.identifier = none)
    (hreceive : Payload.receive gate.suite r.sealing r.block r.receiving = .ok resource left) :
    let attachments : Attachments :=
      ⟨Attachments.insert resource.identifier (some resource) r.request.attachments.entries⟩
    let r₁ : Reading := { r.resume left with
      request := { r.request with attachments }
      block := {} }
    advance gate r = .ok () { r₁ with phase := r₁.afterTypes } := by
  intro attachments r₁
  have hcheck : r.checkNew = .ok () := by
    rw [checkNew, hidentifier]
    dsimp only
    rw [hnew]
    rfl
  have hreceived : receive gate.suite r = .ok resource (r.resume left) := by
    rw [receive, hreceive]
  have hattach : r.request.attachments.attach resource = .ok attachments :=
    Attachments.attach_eq_ok.2 ⟨hnew, rfl⟩
  have hattached : attach resource (r.resume left) = .ok r₁.afterTypes r₁ :=
    bind_eq_ok.2 ⟨_, _, rfl, bind_eq_ok.2 ⟨_, _, check_eq_ok.2 ⟨hattach, rfl⟩, rfl⟩⟩
  have hread : read gate r.phase = readResourceData gate.suite := by
    rw [hp]
    rfl
  have hstep : step gate r = .ok r₁.afterTypes r₁ := by
    rw [step_eq, hread]
    exact bind_eq_ok.2 ⟨_, _, rfl, bind_eq_ok.2 ⟨_, _, check_eq_ok.2 ⟨hcheck, rfl⟩,
      bind_eq_ok.2 ⟨_, _, hreceived, hattached⟩⟩⟩
  exact advance_of_step hstep

/-! ## References that are resolved -/

/-- What is referred to is pending unless it has come. -/
theorem lookup_refer {a : Attachments} (h : a.find? identifier = none) :
    (a.refer identifier).entries.lookup identifier = some none := by
  unfold Attachments.refer
  split
  · next hin =>
    obtain ⟨entry, hentry⟩ := Option.isSome_iff_exists.1 hin
    rw [Attachments.find?, hentry] at h
    have hnone : entry = none := h
    rw [hentry, hnone]
  · exact Attachments.lookup_insert_self none _

/-- The header makes its identifier pending. -/
theorem noteReference_of_reference {value : Bytes}
    (href : Headers.reference? value = .ok (some identifier))
    (hnew : r.request.attachments.find? identifier = none) :
    ∃ r', noteReference value r = .ok () r' ∧
      r'.request.attachments.entries.lookup identifier = some none :=
  ⟨_, bind_of_ok (check_eq_ok.2 ⟨href, rfl⟩), lookup_refer hnew⟩

/-- A reading in the clear that is before the headers of a resource, with this identifier
pending. -/
structure Awaits (r : Reading) (identifier : Bytes) : Prop where
  phase : r.phase = .resourceHeaders
  block : r.block = {}
  queued : r.inbound.queued = []
  sealing : r.sealing.enabled = false
  pending : r.request.attachments.entries.lookup identifier = some none

/-- The store that takes the payloads of the request keeps this one. -/
def Serves (suite : Suite) (r : Reading) (identifier data : Bytes) : Prop :=
  r.request.ignored = true ∨ r.store.Serves suite identifier data

/-- The reading has come to this one, with the resource attached under its identifier, the others as
they were, and nothing taken of what is behind it. -/
structure Resolves (gate : Gate) (r : Reading) (identifier data rest : Bytes) (r' : Reading)
    (resource : Resource) : Prop where
  reaches : Reaches gate r r'
  found : r'.request.attachments.entries.lookup identifier = some (some resource)
  named : resource.identifier = identifier
  length : resource.length = data.length
  others : ∀ other, other ≠ identifier → r'.request.attachments.entries.lookup other =
    r.request.attachments.entries.lookup other
  unread : r'.inbound.unread = rest
  phase : r'.phase = r'.afterTypes

theorem find?_of_pending (h : r.request.attachments.entries.lookup identifier = some none) :
    r.request.attachments.find? identifier = none := by
  rw [Attachments.find?, h]
  rfl

theorem receiving_serves (hserves : r.Serves gate.suite identifier data) :
    r.receiving.store.Serves gate.suite identifier data := by
  unfold receiving
  dsimp only
  split
  · exact Store.Volatile.serves (by exact trivial) _ _ _
  · next hi => exact hserves.resolve_left hi

theorem receive_of_delivery {e : Inbound.LineEnd}
    (hblock : r.block = Payload.announcement identifier data.length)
    (hne : identifier ≠ []) (hlength : data.length ≤ Payload.maxLength)
    (hsealing : r.sealing.enabled = false) (hq : r.inbound.queued = [])
    (hserves : r.Serves gate.suite identifier data)
    (hunread : r.inbound.unread = data ++ Inbound.Written.raw ⟨[], e⟩ ++ rest) :
    ∃ resource left, Payload.receive gate.suite r.sealing r.block r.receiving = .ok resource left ∧
      resource.identifier = identifier ∧ resource.length = data.length ∧
      left.inbound.unread = rest := by
  obtain ⟨consumed, htake⟩ := Payload.takePayload_of_delivery identifier hq hunread
  obtain ⟨slot, opened, hacquire, hcommit⟩ := receiving_serves hserves
  have hopens : r.sealing.decrypt gate.suite data = .ok data := by
    rw [Sealing.decrypt, hsealing, if_neg Bool.false_ne_true]
  obtain ⟨kept, hstored⟩ : ∃ kept,
      Payload.Stored gate.suite r.sealing slot data opened kept := by
    cases hcached : slot.cached with
    | true => exact ⟨opened, (Payload.stored_of_cached hcached).2 rfl⟩
    | false =>
      obtain ⟨kept, hcommit⟩ := hcommit hcached
      exact ⟨kept, (Payload.stored_of_missed hcached).2 ⟨data, hopens, hcommit⟩⟩
  refine ⟨_, ⟨{ r.inbound with unread := rest, consumed }, kept⟩,
    Payload.receive_eq_ok.2 ⟨identifier, data.length, slot, opened, data, ?_, hacquire, htake,
      hstored, rfl⟩, rfl, rfl, rfl⟩
  rw [hblock]
  exact Payload.announced_announcement hne hlength

section

open Inbound

variable {e₁ e₂ e₃ e₄ : LineEnd}

/-- The headers of a delivery are read up to its payload. -/
theorem reaches_of_headers (gate : Gate) (href : Headers.Referable identifier)
    (htrimmed : Trimmed identifier) (hr : r.Awaits identifier)
    (hlength : data.length ≤ Payload.maxLength)
    (hunread : r.inbound.unread = Payload.delivery identifier data e₁ e₂ e₃ e₄ ++ rest) :
    ∃ consumed, Reaches gate r { r with
      phase := .resourceData
      inbound := { r.inbound with unread := data ++ Written.raw ⟨[], e₄⟩ ++ rest, consumed }
      block := Payload.announcement identifier data.length } := by
  rw [Payload.delivery, List.append_assoc, List.append_assoc, List.append_assoc] at hunread
  have hidentifier := Headers.parseLine_of_isKey Payload.isKey_identifierKey identifier
  rw [trim_of_trimmed htrimmed] at hidentifier
  have hcount := Headers.parseLine_of_isKey Payload.isKey_lengthKey (Decimal.ofNat data.length)
  rw [trim_of_trimmed (Payload.trimmed_ofNat _)] at hcount
  let behind := data ++ Written.raw ⟨[], e₄⟩ ++ rest
  let r₁ := r.beyond ⟨Payload.identifierLine identifier, e₁⟩
    (Written.raw ⟨Payload.lengthLine data.length, e₂⟩ ++ (Written.raw ⟨[], e₃⟩ ++ behind))
    .resourceHeaders (r.block.set Payload.identifierKey identifier)
  let r₂ := r₁.beyond ⟨Payload.lengthLine data.length, e₂⟩ (Written.raw ⟨[], e₃⟩ ++ behind)
    .resourceHeaders (r₁.block.set Payload.lengthKey (Decimal.ofNat data.length))
  let r₃ := r₂.beyond ⟨[], e₃⟩ behind .resourceData r₂.block
  have hblock : r₂.block = Payload.announcement identifier data.length := by
    simp only [r₂, r₁, beyond, hr.block]
    rfl
  have h₁ : advance gate r = .ok () r₁ := advance_of_header hr.phase hr.queued
    (Payload.plain_identifierLine href) (Payload.fits_identifierLine href) hidentifier hunread
  have h₂ : advance gate r₁ = .ok () r₂ := advance_of_header rfl hr.queued
    Payload.plain_lengthLine (Payload.fits_lengthLine hlength) hcount rfl
  have h₃ : advance gate r₂ = .ok () r₃ := advance_of_blank rfl hr.queued
    Payload.plain_blank Payload.fits_blank rfl (by rw [hblock]; rfl) rfl
  have hreaches : Reaches gate r r₃ := .head h₁ (.head h₂ (.single h₃))
  refine ⟨r₃.inbound.consumed, ?_⟩
  rw [← hblock]
  exact hreaches

/-- Two headers, a blank line and a payload: four steps, and the resource is there. -/
theorem resolves_of_delivery (href : Headers.Referable identifier)
    (htrimmed : Trimmed identifier) (hr : r.Awaits identifier)
    (hlength : data.length ≤ Payload.maxLength)
    (hserves : r.Serves gate.suite identifier data)
    (hunread : r.inbound.unread = Payload.delivery identifier data e₁ e₂ e₃ e₄ ++ rest) :
    ∃ r' resource, Resolves gate r identifier data rest r' resource := by
  obtain ⟨consumed, hreaches⟩ := reaches_of_headers gate href htrimmed hr hlength hunread
  generalize hr₁ : ({ r with
      phase := .resourceData
      inbound := { r.inbound with unread := data ++ Written.raw ⟨[], e₄⟩ ++ rest, consumed }
      block := Payload.announcement identifier data.length } : Reading) = r₁ at hreaches
  have hblock : r₁.block = Payload.announcement identifier data.length := by rw [← hr₁]
  have hunread₁ : r₁.inbound.unread = data ++ Written.raw ⟨[], e₄⟩ ++ rest := by rw [← hr₁]
  have hserves₁ : r₁.Serves gate.suite identifier data := hr₁ ▸ hserves
  obtain ⟨resource, left, hreceive, rfl, hlength', hunread'⟩ := receive_of_delivery hblock
    href.ne_nil hlength (hr₁ ▸ hr.sealing) (hr₁ ▸ hr.queued) hserves₁ hunread₁
  have hnone : r₁.request.attachments.find? resource.identifier = none :=
    find?_of_pending (hr₁ ▸ hr.pending)
  have hnamed : r₁.block.get? Payload.identifierKey = some resource.identifier := by
    rw [← hr₁]
    rfl
  have hlast : advance gate r₁ = _ := advance_of_payload (by rw [← hr₁]) hnamed hnone hreceive
  refine ⟨_, resource, hreaches.tail hlast, Attachments.lookup_insert_self _ _, rfl, hlength',
    fun other hother => ?_, hunread', rfl⟩
  rw [← hr₁]
  exact Attachments.lookup_insert_of_ne hother _ _

end

/-! ## References that are not resolved -/

/-- The headers of a resource are read, or its payload is. The identifier is pending, and the
headers name none but a trimmed one. -/
structure Stuck (r : Reading) (identifier : Bytes) : Prop where
  phase : r.phase = .resourceHeaders ∨ r.phase = .resourceData
  pending : r.request.attachments.entries.lookup identifier = some none
  named : ∀ value, r.block.get? Payload.identifierKey = some value → Trimmed value

theorem Awaits.stuck (h : r.Awaits identifier) : r.Stuck identifier where
  phase := .inl h.phase
  pending := h.pending
  named := by
    rw [h.block]
    exact nofun

/-- As long as something is pending, resources are wanted. -/
theorem afterTypes_of_pending (h : r.request.attachments.entries.lookup identifier = some none) :
    r.afterTypes = .resourceHeaders := by
  have hpending : r.request.attachments.hasPending = true := by
    rw [Attachments.hasPending, decide_eq_true_iff, Attachments.pendingCount, List.countP_pos_iff]
    exact ⟨_, Assoc.mem_of_lookup h, rfl⟩
  exact if_pos hpending

theorem resourceHeader_stuck (hr : r.Stuck identifier) : (resourceHeader line).Leads r
    (fun phase r' => ({ r' with phase } : Reading).Stuck identifier) fun _ => True := by
  unfold resourceHeader
  split
  · refine .get_bind (.check_bind (fun ((key, value), block) hrecord =>
      .modify_bind (.pure ⟨.inl rfl, hr.pending, fun named hnamed => ?_⟩)) fun _ _ => trivial)
    obtain ⟨hparse, rfl⟩ := Headers.record_eq_ok.1 hrecord
    by_cases hkey : Payload.identifierKey = key
    · subst hkey
      obtain rfl := Option.some.inj ((Assoc.lookup_set_self _ _ _).symm.trans hnamed)
      exact (Headers.parseLine_iff.1 hparse).value_trimmed
    · exact hr.named named ((Assoc.lookup_set_of_ne hkey _ _).symm.trans hnamed)
  · refine .get_bind (.pure ⟨?_, hr.pending, hr.named⟩)
    dsimp only
    split
    · exact .inl rfl
    · exact .inr rfl

theorem receive_leads {suite : Suite} : (receive suite).Leads r (fun resource r' =>
    r'.request = r.request ∧
      r.block.get? Payload.identifierKey = some resource.identifier) fun _ => True := by
  refine .intro (fun resource r' h => ⟨receive_keeps_request.of_ok h, ?_⟩) fun _ _ _ => trivial
  unfold receive at h
  split at h
  · next left hreceive =>
    cases h
    obtain ⟨_, _, _, _, _, hannounced, _, _, _, rfl⟩ := Payload.receive_eq_ok.1 hreceive
    exact (Payload.announced_eq_ok.1 hannounced).1
  · cases h

/-- What comes does not have the identifier, as that would be trimmed. -/
theorem readResourceData_stuck {suite : Suite} (huntrimmed : ¬ Trimmed identifier)
    (hr : r.Stuck identifier) : (readResourceData suite).Leads r
      (fun phase r' => ({ r' with phase } : Reading).Stuck identifier) fun _ => True := by
  refine .get_bind (.check_bind (fun _ _ => ?_) fun _ _ => trivial)
  refine .bind receive_leads fun resource r₁ ⟨hsame, hnamed⟩ => .get_bind (.check_bind
    (fun attachments hattach => .modify_bind (.get_bind (.pure ?_))) fun _ _ => trivial)
  obtain ⟨_, rfl⟩ := Attachments.attach_eq_ok.1 hattach
  have hother : identifier ≠ resource.identifier :=
    fun heq => huntrimmed (heq ▸ hr.named _ hnamed)
  have hpending : (Attachments.insert resource.identifier (some resource)
      r₁.request.attachments.entries).lookup identifier = some none := by
    rw [Attachments.lookup_insert_of_ne hother, hsame, hr.pending]
  exact ⟨.inl (afterTypes_of_pending hpending), hpending, nofun⟩

theorem advance_stuck (huntrimmed : ¬ Trimmed identifier) (hr : r.Stuck identifier)
    (h : advance gate r = .ok () r') : r'.Stuck identifier := by
  have hread : (read gate r.phase).Leads r
      (fun phase r' => ({ r' with phase } : Reading).Stuck identifier) fun _ => True := by
    rcases hr.phase with hp | hp
    · have hline : Leads (nextLine >>= resourceHeader) r
          (fun phase r' => ({ r' with phase } : Reading).Stuck identifier) fun _ => True := by
        refine .bind (nextLine_leads trivial fun _ => trivial) fun line r₁ ⟨_, h₁⟩ =>
          resourceHeader_stuck ?_
        rw [h₁]
        exact ⟨hr.phase, hr.pending, hr.named⟩
      rw [hp]
      exact hline
    · rw [hp]
      exact readResourceData_stuck huntrimmed hr
  obtain ⟨phase, r₁, hstep, h⟩ := bind_eq_ok.1 h
  cases h
  rw [step_eq] at hstep
  exact hread.of_ok hstep

/-- Whatever is sent, the identifier is still pending. -/
theorem stuck_of_reaches (huntrimmed : ¬ Trimmed identifier) (hr : r.Stuck identifier)
    (h : Reaches gate r r') : r'.Stuck identifier := by
  induction h with
  | refl => exact hr
  | tail _ hstep ih => exact advance_stuck huntrimmed ih hstep

/-! ## Both kinds of references -/

open Inbound in
/-- A header line refers to a resource, which makes it pending, and the reading waits for it. If the
identifier does not begin with a blank, the resource can be sent under it, in as many bytes as a
payload may have. If it does, nothing that is sent will do. -/
theorem resolves_of_reference {i i' : Inbound} {key value : Bytes} (hq : i.queued = [])
    (htake : takeLine i = .ok (some line) i') (hparse : Headers.parseLine line = .ok (key, value))
    (href : Headers.reference? value = .ok (some identifier)) (hr : r.Awaits identifier)
    (gate : Gate) :
    (∀ before : Reading, before.request.attachments.find? identifier = none →
      ∃ noted, noteReference value before = .ok () noted ∧
        noted.request.attachments.entries.lookup identifier = some none) ∧
    (Trimmed identifier ↔ ∀ b, identifier.head? = some b → isBlank b = false) ∧
    (Trimmed identifier → ∀ (data rest : Bytes) (e₁ e₂ e₃ e₄ : LineEnd),
      data.length ≤ Payload.maxLength → r.Serves gate.suite identifier data →
      r.inbound.unread = Payload.delivery identifier data e₁ e₂ e₃ e₄ ++ rest →
      ∃ r' resource, Resolves gate r identifier data rest r' resource) ∧
    (¬ Trimmed identifier → ∀ r', Reaches gate r r' →
      r'.request.attachments.entries.lookup identifier = some none ∧
        r'.phase.isUnderWay = true) := by
  have hreferable := Headers.referable_of_taken hq htake hparse href
  refine ⟨fun before => noteReference_of_reference href,
    ⟨Trimmed.first, fun hfirst => ⟨hfirst, hreferable.last⟩⟩, ?_, ?_⟩
  · intro htrimmed data rest e₁ e₂ e₃ e₄ hlength hserves hunread
    exact resolves_of_delivery hreferable htrimmed hr hlength hserves hunread
  · intro huntrimmed r' hreaches
    have hstuck := stuck_of_reaches huntrimmed hr.stuck hreaches
    refine ⟨hstuck.pending, ?_⟩
    rcases hstuck.phase with hp | hp <;> rw [hp] <;> rfl

/-- A reading with one reference pending, and what it takes to resolve it. -/
def awaiting (identifier : Bytes) : Reading where
  phase := .resourceHeaders
  inbound := { unread := Payload.delivery identifier (ascii "X") .full .bare .full .full }
  store := .discard
  request := { attachments := ⟨[(identifier, none)]⟩ }

theorem awaits_awaiting (identifier : Bytes) : (awaiting identifier).Awaits identifier :=
  ⟨rfl, rfl, rfl, rfl, List.lookup_cons_self⟩

theorem serves_awaiting (suite : Suite) (identifier data : Bytes) :
    (awaiting identifier).Serves suite identifier data :=
  .inr (Store.Volatile.serves (by exact trivial) _ _ _)

theorem not_trimmed_of_blank : ¬ Trimmed (ascii " a") := fun h => by
  cases h.first 0x20 rfl

/-- A reference without blanks, and one with a blank in front. -/
theorem resolves_of_reference_icon :
    (∃ r' resource, Resolves { suite := .full } (awaiting (ascii "a")) (ascii "a") (ascii "X") [] r'
      resource) ∧
    ∀ r', Reaches { suite := .full } (awaiting (ascii " a")) r' →
      r'.request.attachments.entries.lookup (ascii " a") = some none ∧
        r'.phase.isUnderWay = true := by
  have htrimmed : Trimmed (ascii "a") :=
    ⟨fun b hb => Option.some.inj hb ▸ rfl, fun b hb => Option.some.inj hb ▸ rfl⟩
  obtain ⟨-, -, hresolves, -⟩ := resolves_of_reference
    (i := { unread := ascii "Icon: x-growl-resource://a\r\n" }) rfl rfl rfl rfl
    (awaits_awaiting (ascii "a")) { suite := .full }
  obtain ⟨-, -, -, hstuck⟩ := resolves_of_reference
    (i := { unread := ascii "Icon: x-growl-resource:// a\r\n" }) rfl rfl rfl rfl
    (awaits_awaiting (ascii " a")) { suite := .full }
  exact ⟨hresolves htrimmed (ascii "X") [] .full .bare .full .full (by decide)
    (serves_awaiting _ _ _) (List.append_nil _).symm, hstuck not_trimmed_of_blank⟩

open Inbound in
/-- What is referred to with a blank in front does not come when it is sent. -/
theorem not_resolves_of_blank : ¬ ∀ (i i' : Inbound) (line key value identifier : Bytes),
    i.queued = [] → takeLine i = .ok (some line) i' → Headers.parseLine line = .ok (key, value) →
    Headers.reference? value = .ok (some identifier) →
    ∀ (gate : Gate) (r : Reading) (data rest : Bytes) (e₁ e₂ e₃ e₄ : LineEnd),
      r.Awaits identifier → data.length ≤ Payload.maxLength → r.Serves gate.suite identifier data →
      r.inbound.unread = Payload.delivery identifier data e₁ e₂ e₃ e₄ ++ rest →
      ∃ r' resource, Resolves gate r identifier data rest r' resource := by
  intro hall
  obtain ⟨r', resource, hresolves⟩ := hall
    { unread := ascii "Icon: x-growl-resource:// a\r\n" } _ _ _ _ _ rfl rfl rfl rfl
    { suite := .full } (awaiting (ascii " a")) (ascii "X") [] .full .bare .full .full
    (awaits_awaiting _) (by decide) (serves_awaiting _ _ _) (List.append_nil _).symm
  have hstuck := stuck_of_reaches not_trimmed_of_blank (awaits_awaiting _).stuck hresolves.reaches
  cases hresolves.found.symm.trans hstuck.pending

end Reading

end Gntp
