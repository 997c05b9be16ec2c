import Gntp.Proofs.Settled

/-!
# A registration declares what it announces

`Tally.At` says what a registration has declared of the types that its Notifications-Count
announces, phase by phase. Every step preserves it (`tally_of_step`), so a complete registration
carries exactly as many types as it announces (`announced_of_parse`).
-/

namespace Gntp

open Gntp.Action

/-- What a reading has collected of a registration. -/
structure Tally where
  messageType : MessageType
  headers : Headers
  types : List TypeDeclaration
  typeCount : Nat

namespace Tally

/-- The count that is kept is the one that is announced. -/
def Announced (t : Tally) : Prop :=
  Reading.parseTypeCount (t.headers.getD Key.notificationsCount []) = .ok t.typeCount

/-- How many types were declared when a phase begins. -/
def At (t : Tally) (phase : Phase) : Prop :=
  t.messageType = .register → match phase with
    | .requestHeaders => t.types = []
    | .typeHeaders => t.Announced ∧ t.types.length < t.typeCount
    | .resourceHeaders | .resourceData | .complete => t.Announced ∧ t.types.length = t.typeCount
    | .requestLine | .answered => False

end Tally

namespace Reading

variable {gate : Gate} {suite : Suite} {r r' : Reading} {phase : Phase} {line : Bytes}

def tally (r : Reading) : Tally where
  messageType := r.request.messageType
  headers := r.request.headers
  types := r.request.types
  typeCount := r.typeCount

theorem tally_afterTypes {t : Tally} (h : t.At .complete) (r : Reading) : t.At r.afterTypes := by
  unfold afterTypes
  split <;> exact h

/-- A header leaves the types alone. -/
theorem tally_of_recordRequestHeader (hr : r.tally.At .requestHeaders)
    (h : recordRequestHeader line r = .ok phase r') : r'.tally.At phase := by
  obtain ⟨_, r₁, h₁, h⟩ := bind_eq_ok.1 h
  obtain ⟨⟨⟨_, value⟩, headers⟩, r₂, h₂, h⟩ := bind_eq_ok.1 h
  obtain ⟨_, r₃, h₃, h⟩ := bind_eq_ok.1 h
  obtain ⟨_, r₄, h₄, h⟩ := bind_eq_ok.1 h
  cases h
  have ht := (noteReference_keeps (fun _ _ => rfl) value : Keeps tally _).of_ok h₄
  rw [ht]
  cases h₁
  obtain ⟨_, rfl⟩ := check_eq_ok.1 h₂
  cases h₃
  exact hr

/-- The count is read behind the last header of the request. -/
theorem tally_of_closeRequestHeaders (hr : r.tally.At .requestHeaders)
    (h : closeRequestHeaders r = .ok phase r') : r'.tally.At phase := by
  obtain ⟨_, r₁, h₁, h⟩ := bind_eq_ok.1 h
  cases h₁
  split at h
  · next hm =>
    cases h
    exact fun hm' => absurd hm' hm
  · obtain ⟨_, r₁, h₁, h⟩ := bind_eq_ok.1 h
    cases h₁
    obtain ⟨typeCount, r₂, h₂, h⟩ := bind_eq_ok.1 h
    obtain ⟨_, r₃, h₃, h⟩ := bind_eq_ok.1 h
    obtain ⟨hcount, rfl⟩ := check_eq_ok.1 h₂
    cases h₃
    split at h
    · next hz =>
      cases h
      have hnone : Tally.At (tally { r₂ with typeCount }) .complete := by
        intro hm
        refine ⟨hcount, ?_⟩
        change r₂.request.types.length = typeCount
        rw [show r₂.request.types = [] from hr hm, hz]
        rfl
      exact tally_afterTypes hnone _
    · next hz =>
      cases h
      intro hm
      refine ⟨hcount, ?_⟩
      change r₂.request.types.length < typeCount
      rw [show r₂.request.types = [] from hr hm]
      exact Nat.pos_of_ne_zero hz

theorem tally_of_requestHeader (hr : r.tally.At .requestHeaders)
    (h : requestHeader line r = .ok phase r') : r'.tally.At phase := by
  unfold requestHeader at h
  split at h
  · exact tally_of_recordRequestHeader hr h
  · obtain ⟨_, r₁, h₁, h⟩ := bind_eq_ok.1 h
    cases h₁
    split at h
    · cases h
      exact hr
    · exact tally_of_closeRequestHeaders hr h

/-- The last type that is announced ends the types. -/
theorem tally_of_closeType (hr : r.tally.At .typeHeaders) (h : closeType r = .ok phase r') :
    r'.tally.At phase := by
  obtain ⟨_, r₁, h₁, h⟩ := bind_eq_ok.1 h
  obtain ⟨type, r₂, h₂, h⟩ := bind_eq_ok.1 h
  obtain ⟨_, r₃, h₃, h⟩ := bind_eq_ok.1 h
  obtain ⟨_, r₄, h₄, h⟩ := bind_eq_ok.1 h
  cases h₁
  obtain ⟨_, rfl⟩ := check_eq_ok.1 h₂
  cases h₃
  cases h₄
  cases h
  have hlength : (r₂.request.types ++ [type]).length = r₂.request.types.length + 1 :=
    List.length_append
  split
  · next hmore => exact fun hm => ⟨(hr hm).1, hmore⟩
  · next hmore =>
    have hlast : Tally.At (tally { r₂ with
        request := { r₂.request with types := r₂.request.types ++ [type] } }) .complete := by
      intro hm
      have hlt : r₂.request.types.length < r₂.typeCount := (hr hm).2
      change ¬ (r₂.request.types ++ [type]).length < r₂.typeCount at hmore
      refine ⟨(hr hm).1, ?_⟩
      change (r₂.request.types ++ [type]).length = r₂.typeCount
      omega
    exact tally_afterTypes hlast _

theorem tally_of_typeHeader (hr : r.tally.At .typeHeaders)
    (h : typeHeader line r = .ok phase r') : r'.tally.At phase := by
  unfold typeHeader at h
  split at h
  · obtain ⟨_, r₁, h₁, h⟩ := bind_eq_ok.1 h
    obtain ⟨⟨⟨_, value⟩, block⟩, r₂, h₂, h⟩ := bind_eq_ok.1 h
    obtain ⟨_, r₃, h₃, h⟩ := bind_eq_ok.1 h
    obtain ⟨_, r₄, h₄, h⟩ := bind_eq_ok.1 h
    cases h
    have ht := (noteReference_keeps (fun _ _ => rfl) value : Keeps tally _).of_ok h₄
    rw [ht]
    cases h₁
    obtain ⟨_, rfl⟩ := check_eq_ok.1 h₂
    cases h₃
    exact hr
  · exact tally_of_closeType hr h

theorem tally_of_resourceHeader (hr : r.tally.At .resourceHeaders)
    (h : resourceHeader line r = .ok phase r') : r'.tally.At phase := by
  unfold resourceHeader at h
  split at h
  · obtain ⟨_, r₁, h₁, h⟩ := bind_eq_ok.1 h
    obtain ⟨⟨_, block⟩, r₂, h₂, h⟩ := bind_eq_ok.1 h
    obtain ⟨_, r₃, h₃, h⟩ := bind_eq_ok.1 h
    cases h₁
    obtain ⟨_, rfl⟩ := check_eq_ok.1 h₂
    cases h₃
    cases h
    exact hr
  · cases h
    split <;> exact hr

/-- Receiving a payload has nothing to do with the types. -/
theorem receive_keeps_tally : Keeps tally (receive suite) := by
  intro r
  unfold final receive
  cases Payload.receive suite r.sealing r.block r.receiving <;> rfl

theorem tally_of_readResourceData (hr : r.tally.At .resourceData)
    (h : readResourceData suite r = .ok phase r') : r'.tally.At phase := by
  obtain ⟨_, r₁, h₁, h⟩ := bind_eq_ok.1 h
  obtain ⟨_, r₂, h₂, h⟩ := bind_eq_ok.1 h
  obtain ⟨resource, r₃, h₃, h⟩ := bind_eq_ok.1 h
  obtain ⟨_, r₄, h₄, h⟩ := bind_eq_ok.1 h
  obtain ⟨attachments, r₅, h₅, h⟩ := bind_eq_ok.1 h
  obtain ⟨_, r₆, h₆, h⟩ := bind_eq_ok.1 h
  cases h
  cases h₆
  obtain ⟨_, rfl⟩ := check_eq_ok.1 h₅
  cases h₄
  have ht : tally r₃ = tally r₂ := receive_keeps_tally.of_ok h₃
  cases h₁
  obtain ⟨_, rfl⟩ := check_eq_ok.1 h₂
  have hsame : (tally r₃).At .complete := by
    rw [ht]
    exact hr
  exact tally_afterTypes hsame _

/-! ## The whole reading -/

theorem tally_of_step (hr : r.tally.At r.phase) (hp : r.phase.isUnderWay)
    (h : step gate r = .ok phase r') : r'.tally.At phase := by
  have hn : Keeps tally nextLine := nextLine_keeps fun _ _ => rfl
  rw [step_eq] at h
  generalize r.phase = p at h hp hr
  cases p with
  | requestLine | complete | answered => cases hp
  | requestHeaders =>
    obtain ⟨line, r₁, h₁, h⟩ := bind_eq_ok.1 h
    exact tally_of_requestHeader (by rw [hn.of_ok h₁]; exact hr) h
  | typeHeaders =>
    obtain ⟨line, r₁, h₁, h⟩ := bind_eq_ok.1 h
    exact tally_of_typeHeader (by rw [hn.of_ok h₁]; exact hr) h
  | resourceHeaders =>
    obtain ⟨line, r₁, h₁, h⟩ := bind_eq_ok.1 h
    exact tally_of_resourceHeader (by rw [hn.of_ok h₁]; exact hr) h
  | resourceData => exact tally_of_readResourceData hr h

theorem tally_of_advance (hr : r.tally.At r.phase) (hp : r.phase.isUnderWay)
    (h : advance gate r = .ok () r') : r'.tally.At r'.phase := by
  obtain ⟨phase, r₁, h₁, h⟩ := bind_eq_ok.1 h
  have ht : r₁.tally.At phase := tally_of_step hr hp h₁
  cases h
  exact ht

/-- A complete registration carries as many types as it announces. -/
theorem announced_of_parse {input : Bytes} {s : Store} {request : Request}
    (h : parse gate (start input s) = .ok (some request) r)
    (hm : request.messageType = .register) :
    parseTypeCount (request.headers.getD Key.notificationsCount []) = .ok request.types.length := by
  obtain ⟨phase, r₁, h₁, h₂, rfl⟩ := (finish_eq_ok rfl).1 (parse_eq_some.1 h)
  obtain ⟨rfl, line, access, _, hr⟩ := granted_of_readRequestLine rfl h₁
  have hbegin : Tally.At (tally { r₁ with phase := .requestHeaders }) .requestHeaders := by
    intro _
    change r₁.request.types = []
    rw [hr]
    rfl
  have hend : r.tally.At r.phase :=
    proceed_preserves (P := fun r => r.tally.At r.phase)
      (fun _ _ => tally_of_advance) hbegin h₂
  have hover : ¬ r.phase.isUnderWay := over_of_proceed h₂
  generalize r.phase = p at hend hover
  cases p with
  | requestLine | answered => exact absurd (hend hm) id
  | requestHeaders | typeHeaders | resourceHeaders | resourceData => exact absurd rfl hover
  | complete =>
    obtain ⟨hcount, hlength⟩ := hend hm
    rw [show r.request.types.length = r.typeCount from hlength]
    exact hcount

end Reading

end Gntp
