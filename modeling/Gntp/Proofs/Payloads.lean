import Gntp.Proofs.SoundStores
import Gntp.Proofs.Transparency
import Gntp.Proofs.Trimming
import Gntp.Proofs.Truncation

/-!
# What the receiving of a payload takes and keeps

A payload is received when its bytes and a line of blanks behind them are there and the store makes
something of it (`Payload.receive_eq_ok`), and the one has nothing to do with the other: exactly
that much is taken whether the payload is kept or not, and what is kept depends on its bytes only
(`Payload.receive_takes`).
-/

namespace Gntp

open Gntp.Action Gntp.Bytes

/-! ## Blanks -/

namespace Bytes

variable {s : Bytes}

/-- A line is blank with its line end or without. -/
theorem blank_dropFinalCr : trim (dropFinalCr s) = [] ↔ ∀ b ∈ s, isBlank b = true := by
  rw [trim_eq_nil]
  unfold dropFinalCr
  split
  · next hcr =>
    obtain ⟨text, rfl⟩ := List.getLast?_eq_some_iff.1 hcr
    rw [List.dropLast_concat, List.forall_mem_append]
    have hblank : ∀ b ∈ [cr], isBlank b = true := List.forall_mem_singleton.2 rfl
    exact ⟨fun h => ⟨h, hblank⟩, fun h => h.1⟩
  · exact Iff.rfl

end Bytes

namespace Inbound.FirstLine

variable {raw text rest : Bytes}

theorem blank_iff (h : FirstLine raw text rest) :
    (∀ b ∈ raw, isBlank b = true) ↔ ∀ b ∈ text, isBlank b = true := by
  rcases h.ended with rfl | ⟨rfl, _, _⟩
  · rw [List.forall_mem_append]
    have hblank : ∀ b ∈ [lf], isBlank b = true := List.forall_mem_singleton.2 rfl
    exact ⟨fun h => h.1, fun h => ⟨h, hblank⟩⟩
  · exact Iff.rfl

end Inbound.FirstLine

/-! ## Receiving -/

namespace Payload

open Inbound

variable {suite : Suite} {sealing : Sealing} {headers : Headers} {identifier data : Bytes}
  {length : Nat} {slot : Slot} {i i' : Inbound} {r r' : Receiving} {before after : Store}
  {resource : Resource}

/-- What becomes of a payload that was taken: if the store does not have it yet, it is opened,
written to the slot and committed. -/
def Stored (suite : Suite) (sealing : Sealing) (slot : Slot) (data : Bytes)
    (before after : Store) : Prop :=
  if slot.cached then after = before
  else ∃ payload, sealing.decrypt suite data = .ok payload ∧
    Store.commit (before.write slot payload).1 (before.write slot payload).2 = .ok () after

theorem stored_of_cached (h : slot.cached = true) :
    Stored suite sealing slot data before after ↔ after = before := by
  rw [Stored, if_pos h]

theorem stored_of_missed (h : slot.cached = false) :
    Stored suite sealing slot data before after ↔
      ∃ payload, sealing.decrypt suite data = .ok payload ∧
        Store.commit (before.write slot payload).1 (before.write slot payload).2 = .ok () after := by
  rw [Stored, if_neg (by simp [h])]

/-- Takes a payload and the blank line behind it. -/
def takePayload (identifier : Bytes) (length : Nat) : Action Inbound Bytes := do
  let data ← takeBytes length
  takeBlankLine identifier
  return data

theorem takeBlankLine_eq_ok : takeBlankLine identifier i = .ok () i' ↔
    ∃ line, takeLine i = .ok (some line) i' ∧ trim line = [] := by
  unfold takeBlankLine
  cases takeLine i with
  | error failure i₁ => exact ⟨nofun, nofun⟩
  | ok line? i₁ =>
    cases line? with
    | none => exact ⟨nofun, nofun⟩
    | some line =>
      dsimp only
      split
      · next hne =>
        refine ⟨nofun, ?_⟩
        rintro ⟨_, h, hnil⟩
        cases h
        exact absurd hnil hne
      · next hnil =>
        constructor
        · intro h
          cases h
          exact ⟨line, rfl, not_not.1 hnil⟩
        · rintro ⟨_, h, _⟩
          cases h
          rfl

theorem takePayload_eq_take : takePayload identifier length i = .ok data i' ↔
    ∃ i₁, takeBytes length i = .ok data i₁ ∧ takeBlankLine identifier i₁ = .ok () i' := by
  unfold takePayload
  simp only [bind_eq_ok]
  constructor
  · rintro ⟨found, i₁, hdata, _, i₂, hblank, h⟩
    cases h
    exact ⟨i₁, hdata, hblank⟩
  · rintro ⟨i₁, hdata, hblank⟩
    exact ⟨data, i₁, hdata, (), i', hblank, rfl⟩

/-- A payload is taken if nothing is queued, its bytes are there, and the line behind them is blank
and not too long. -/
theorem takePayload_eq_ok : takePayload identifier length i = .ok data i' ↔
    i.queued = [] ∧ ∃ raw text rest, data.length = length ∧ FirstLine raw text rest ∧
      text.length ≤ maxLine ∧ (∀ b ∈ raw, isBlank b = true) ∧ i.unread = data ++ raw ++ rest ∧
      i' = { i with unread := rest, consumed := i.consumed + (length + raw.length) } := by
  rw [takePayload_eq_take]
  constructor
  · rintro ⟨i₁, hdata, hblank⟩
    obtain ⟨hq, rest₁, hlength, hunread, rfl⟩ := takeBytes_eq_ok.1 hdata
    obtain ⟨line, hline, htrim⟩ := takeBlankLine_eq_ok.1 hblank
    have hq₁ : ({ i with unread := rest₁, consumed := i.consumed + length } : Inbound).queued = [] :=
      hq
    obtain ⟨raw, text, rest, hfirst, hrest, hshort, rfl, rfl⟩ := (takeLine_eq_some hq₁).1 hline
    have hrest : rest₁ = raw ++ rest := hrest
    refine ⟨hq, raw, text, rest, hlength, hfirst, hshort,
      hfirst.blank_iff.2 (blank_dropFinalCr.1 htrim), ?_, ?_⟩
    · rw [hunread, hrest, List.append_assoc]
    · rw [Nat.add_assoc]
  · rintro ⟨hq, raw, text, rest, hlength, hfirst, hshort, hblank, hunread, rfl⟩
    rw [List.append_assoc] at hunread
    refine ⟨_, takeBytes_eq_ok.2 ⟨hq, _, hlength, hunread, rfl⟩, takeBlankLine_eq_ok.2 ?_⟩
    have hq₁ : ({ i with unread := raw ++ rest, consumed := i.consumed + length } :
      Inbound).queued = [] := hq
    refine ⟨dropFinalCr text, (takeLine_eq_some hq₁).2 ?_,
      blank_dropFinalCr.2 (hfirst.blank_iff.1 hblank)⟩
    exact ⟨raw, text, rest, hfirst, rfl, hshort, rfl, by rw [Nat.add_assoc]⟩

theorem onInbound_eq_ok {α : Type} {action : Action Inbound α} {a : α} :
    Receiving.onInbound action r = .ok a r' ↔
      action r.inbound = .ok a r'.inbound ∧ r'.store = r.store := by
  unfold Receiving.onInbound
  obtain ⟨inbound', store'⟩ := r'
  cases action r.inbound with
  | error failure inbound => exact ⟨nofun, nofun⟩
  | ok b inbound =>
    constructor
    · intro h
      cases h
      exact ⟨rfl, rfl⟩
    · rintro ⟨h, rfl⟩
      cases h
      rfl

theorem onStore_eq_ok {α : Type} {action : Action Store α} {a : α} :
    Receiving.onStore action r = .ok a r' ↔
      action r.store = .ok a r'.store ∧ r'.inbound = r.inbound := by
  unfold Receiving.onStore
  obtain ⟨inbound', store'⟩ := r'
  cases action r.store with
  | error failure store => exact ⟨nofun, nofun⟩
  | ok b store =>
    constructor
    · intro h
      cases h
      exact ⟨rfl, rfl⟩
    · rintro ⟨h, rfl⟩
      cases h
      rfl

theorem write_eq_ok {slot' : Slot} : write suite sealing slot data r = .ok slot' r' ↔
    ∃ payload, sealing.decrypt suite data = .ok payload ∧
      r.store.write slot payload = (slot', r'.store) ∧ r'.inbound = r.inbound := by
  unfold write
  obtain ⟨inbound', store'⟩ := r'
  cases sealing.decrypt suite data with
  | error fault => exact ⟨nofun, nofun⟩
  | ok payload =>
    constructor
    · intro h
      cases h
      exact ⟨payload, rfl, rfl, rfl⟩
    · rintro ⟨_, h, hwrite, rfl⟩
      cases h
      dsimp only
      rw [hwrite]

/-- A slot is held when the payload was taken and stored. -/
theorem keep_eq_stored : keep suite sealing length slot r = .ok () r' ↔
    ∃ data, takeBytes length r.inbound = .ok data r'.inbound ∧
      Stored suite sealing slot data r.store r'.store := by
  rw [keep_eq_ok]
  unfold hold
  split
  · next hcached =>
    simp only [stored_of_cached hcached, bind_eq_ok, onInbound_eq_ok]
    constructor
    · rintro ⟨data, r₁, ⟨htake, hstore⟩, h⟩
      cases h
      exact ⟨data, htake, hstore⟩
    · rintro ⟨data, htake, hstore⟩
      exact ⟨data, r', ⟨htake, hstore⟩, rfl⟩
  · next hmissed =>
    simp only [stored_of_missed (Bool.eq_false_iff.2 hmissed), fill_eq, bind_eq_ok,
      onInbound_eq_ok, onStore_eq_ok, write_eq_ok]
    constructor
    · rintro ⟨filled, r₂, ⟨data, r₁, ⟨htake, hstore⟩, payload, hopens, hfilled, hinbound⟩, hcommit,
        hinbound'⟩
      rw [hstore] at hfilled
      refine ⟨data, by rw [hinbound', hinbound]; exact htake, payload, hopens, ?_⟩
      rw [hfilled]
      exact hcommit
    · rintro ⟨data, htake, payload, hopens, hcommit⟩
      exact ⟨_, ⟨r'.inbound, (r.store.write slot payload).2⟩,
        ⟨data, ⟨r'.inbound, r.store⟩, ⟨htake, rfl⟩, payload, hopens, rfl, rfl⟩, hcommit, rfl⟩

/-- A payload is received if it is announced, the store gives a slot for it, it is there with a
blank line behind it, and the store keeps it. -/
theorem receive_eq_ok : receive suite sealing headers r = .ok resource r' ↔
    ∃ identifier length slot opened data, announced headers = .ok (identifier, length) ∧
      Store.acquire suite identifier r.store = .ok slot opened ∧
      takePayload identifier length r.inbound = .ok data r'.inbound ∧
      Stored suite sealing slot data opened r'.store ∧
      resource = { identifier, length, cached := slot.cached, location := slot.location, headers } := by
  constructor
  · intro h
    obtain ⟨⟨identifier, length⟩, r₀, h₀, h⟩ := bind_eq_ok.1 h
    obtain ⟨slot, r₁, h₁, h⟩ := bind_eq_ok.1 h
    obtain ⟨_, r₂, h₂, h⟩ := bind_eq_ok.1 h
    obtain ⟨_, r₃, h₃, h⟩ := bind_eq_ok.1 h
    cases h
    obtain ⟨hannounced, rfl⟩ := check_eq_ok.1 h₀
    obtain ⟨hacquire, hinbound⟩ := onStore_eq_ok.1 h₁
    obtain ⟨data, htake, hstored⟩ := keep_eq_stored.1 h₂
    obtain ⟨hblank, hstore⟩ := onInbound_eq_ok.1 h₃
    rw [hinbound] at htake
    rw [← hstore] at hstored
    exact ⟨identifier, length, slot, r₁.store, data, hannounced, hacquire,
      takePayload_eq_take.2 ⟨r₂.inbound, htake, hblank⟩, hstored, rfl⟩
  · rintro ⟨identifier, length, slot, opened, data, hannounced, hacquire, htake, hstored, rfl⟩
    obtain ⟨i₁, hdata, hblank⟩ := takePayload_eq_take.1 htake
    have h₁ : Receiving.onStore (Store.acquire suite identifier) r = .ok slot ⟨r.inbound, opened⟩ :=
      onStore_eq_ok.2 ⟨hacquire, rfl⟩
    have h₂ : keep suite sealing length slot ⟨r.inbound, opened⟩ = .ok () ⟨i₁, r'.store⟩ :=
      keep_eq_stored.2 ⟨data, hdata, hstored⟩
    have h₃ : Receiving.onInbound (takeBlankLine identifier) ⟨i₁, r'.store⟩ = .ok () r' :=
      onInbound_eq_ok.2 ⟨hblank, rfl⟩
    exact bind_eq_ok.2 ⟨_, r, check_eq_ok.2 ⟨hannounced, rfl⟩,
      bind_eq_ok.2 ⟨_, _, h₁, bind_eq_ok.2 ⟨_, _, h₂, bind_eq_ok.2 ⟨_, _, h₃, rfl⟩⟩⟩⟩

/-- What headers announce is what they say. -/
theorem announced_eq_ok : announced headers = .ok (identifier, length) ↔
    headers.get? identifierKey = some identifier ∧ identifier ≠ [] ∧
      ∃ text, headers.get? lengthKey = some text ∧ parseLength text = .ok length := by
  unfold announced
  cases hidentifier : headers.get? identifierKey with
  | none => exact ⟨nofun, nofun⟩
  | some found =>
    cases found with
    | nil =>
      refine ⟨nofun, ?_⟩
      rintro ⟨heq, hne, _⟩
      cases heq
      exact absurd rfl hne
    | cons b more =>
      cases hlength : headers.get? lengthKey with
      | none => exact ⟨nofun, nofun⟩
      | some text =>
        dsimp only
        cases hparse : parseLength text with
        | error reason =>
          refine ⟨nofun, ?_⟩
          rintro ⟨_, _, _, heq, h⟩
          cases heq
          cases hparse.symm.trans h
        | ok n =>
          constructor
          · intro h
            cases h
            exact ⟨rfl, List.cons_ne_nil b more, text, rfl, hparse⟩
          · rintro ⟨heq, _, _, heq', h⟩
            cases heq
            cases heq'
            cases hparse.symm.trans h
            rfl

/-- Of what has arrived, the bytes of the payload are taken and one line of blanks behind them, and
nothing more, be the payload known or new, sealed or in the clear. The resource is the one that the
headers announce. A store that has the payload is left as it is; any other one gives a slot, gets
the payload opened into the sink of the slot, if there is one, and commits the slot. -/
theorem receive_takes (hsound : r.store.Sound)
    (h : receive suite sealing headers r = .ok resource r') :
    (headers.get? identifierKey = some resource.identifier ∧ resource.identifier ≠ [] ∧
      (∃ text, headers.get? lengthKey = some text ∧ parseLength text = .ok resource.length) ∧
      resource.headers = headers) ∧
    ∃ data blank, data.length = resource.length ∧
      ((∃ text, FirstLine blank text r'.inbound.unread) ∧ ∀ b ∈ blank, isBlank b = true) ∧
      r.inbound.unread = data ++ blank ++ r'.inbound.unread ∧
      r'.inbound.consumed = r.inbound.consumed + (data.length + blank.length) ∧
      r.inbound.queued = [] ∧ r'.inbound.queued = [] ∧
      ∃ slot opened, Store.acquire suite resource.identifier r.store = .ok slot opened ∧
        resource.cached = slot.cached ∧ resource.location = slot.location ∧
        (slot.cached = true → r'.store = r.store) ∧
        (slot.cached = false → ∃ payload filled full, sealing.decrypt suite data = .ok payload ∧
          opened.write slot payload = (filled, full) ∧
          (slot.sink ≠ none → full.received? filled = some payload) ∧
          Store.commit filled full = .ok () r'.store) := by
  obtain ⟨identifier, length, slot, opened, data, hannounced, hacquire, htake, hstored, rfl⟩ :=
    receive_eq_ok.1 h
  obtain ⟨hidentifier, hne, hlength⟩ := announced_eq_ok.1 hannounced
  obtain ⟨hq, blank, text, rest, rfl, hfirst, _, hblank, hunread, hi'⟩ := takePayload_eq_ok.1 htake
  rw [hi']
  refine ⟨⟨hidentifier, hne, hlength, rfl⟩, data, blank, rfl, ⟨⟨text, hfirst⟩, hblank⟩, hunread, rfl,
    hq, hq, slot, opened, hacquire, rfl, rfl, ?_, ?_⟩
  · intro hcached
    rw [(stored_of_cached hcached).1 hstored]
    exact Store.eq_of_acquire_cached hacquire hcached
  · intro hmissed
    obtain ⟨payload, hopens, hcommit⟩ := (stored_of_missed hmissed).1 hstored
    exact ⟨payload, _, _, hopens, rfl,
      Store.received?_of_write hsound hmissed hacquire payload, hcommit⟩

/-! ## A sealed payload -/

open Envelope (exampleBlock exampleBlock_decrypted exampleLines exampleSealing)

/-- The headers of a payload of eight bytes. -/
def exampleHeaders : Headers :=
  .ofList [(identifierKey, ascii "id"), (lengthKey, ascii "8")]

/-- A sealed payload, a line of blanks, and what comes after that. -/
def exampleArrival : Receiving where
  inbound := { unread := exampleBlock ++ ascii " \r\n" ++ ascii "\nGNTP" }
  store := .memory { limit := 64 }

/-- What is left of it. -/
def exampleLeft : Receiving where
  inbound := { unread := ascii "\nGNTP", consumed := 11 }
  store := .memory {
    limit := 64
    payloads := [(ascii "id", wire exampleLines)]
    order := [ascii "id"]
    total := 5 }

def exampleResource : Resource where
  identifier := ascii "id"
  length := 8
  location := ascii "memory://id"
  headers := exampleHeaders

theorem receive_example :
    receive .full exampleSealing exampleHeaders exampleArrival =
      .ok exampleResource exampleLeft := by
  refine receive_eq_ok.2 ⟨ascii "id", 8, { identifier := ascii "id", location := ascii "memory://id"
                                           sink := some (.buffer [] false) },
    exampleArrival.store, exampleBlock, by decide +kernel, rfl, takePayload_eq_ok.2 ?_,
    (stored_of_missed rfl).2 ⟨_, exampleBlock_decrypted, rfl⟩, rfl⟩
  refine ⟨rfl, ascii " \r\n", ascii " \r", ascii "\nGNTP", by decide +kernel, ?_, by decide,
    by decide +kernel, rfl, rfl⟩
  exact ⟨by decide, .inl rfl⟩

/-- The line feed behind the blank line is left, and what the store has got is in the clear. -/
theorem receive_takes_sealed : ∃ data blank payload filled full,
    data.length = 8 ∧ exampleArrival.inbound.unread = data ++ blank ++ ascii "\nGNTP" ∧
      exampleSealing.decrypt .full data = .ok payload ∧
      Store.received? full filled = some payload ∧
      Store.commit filled full = .ok () exampleLeft.store := by
  have hsound : exampleArrival.store.Sound := trivial
  obtain ⟨_, data, blank, hlength, _, hunread, _, _, _, slot, opened, hacquire, hcached, _, _,
    hmiss⟩ := receive_takes hsound receive_example
  obtain ⟨payload, filled, full, hopens, _, hsink, hcommit⟩ := hmiss hcached.symm
  cases hacquire
  exact ⟨data, blank, payload, filled, full, hlength, hunread, hopens, hsink nofun, hcommit⟩

end Payload

end Gntp
