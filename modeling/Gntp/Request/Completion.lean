import Gntp.Request.Reading

/-! Reading a request to its end. After the request line every step takes at least one byte or
one queued line off the input (`Reading.remaining_lt_of_advance`), so there is an end. -/

namespace Gntp.Reading

open Gntp.Action

/-- A view of a reading that does not look at what is collected from headers: the headers of the
request, the types, the resources, and the block that is being read. -/
def Bystander {τ : Type} (view : Reading → τ) : Prop :=
  ∀ (r : Reading) (headers : Headers) (types : List TypeDeclaration) (attachments : Attachments)
    (block : Headers) (typeCount : Nat),
    view { r with
      request := { r.request with headers, types, attachments }
      block, typeCount } = view r

theorem bystander_inbound : Bystander inbound := fun _ _ _ _ _ _ => rfl

section

variable {τ : Type} {view : Reading → τ}

theorem noteReference_keeps (hv : ∀ (r : Reading) (attachments : Attachments),
    view { r with request := { r.request with attachments } } = view r) (value : Bytes) :
    Keeps view (noteReference value) :=
  .bind (.check _) fun reference => by
    cases reference
    · exact .pure _
    · exact .modify fun r => hv r _

theorem recordRequestHeader_keeps (hv : Bystander view) (line : Bytes) :
    Keeps view (recordRequestHeader line) :=
  .bind .get fun _ => .bind (.check _) fun _ => .bind (.modify fun r => hv r _ _ _ _ _) fun _ =>
    .bind (noteReference_keeps (fun r _ => hv r _ _ _ _ _) _) fun _ => .pure _

theorem closeRequestHeaders_keeps (hv : Bystander view) : Keeps view closeRequestHeaders :=
  .bind .get fun _ => by
    split
    · exact .bind .get fun _ => .pure _
    · refine .bind .get fun _ => .bind (.check _) fun _ =>
        .bind (.modify fun r => hv r _ _ _ _ _) fun _ => ?_
      split
      · exact .bind .get fun _ => .pure _
      · exact .bind (.modify fun r => hv r _ _ _ _ _) fun _ => .pure _

theorem recordTypeHeader_keeps (hv : Bystander view) (line : Bytes) :
    Keeps view (recordTypeHeader line) :=
  .bind .get fun _ => .bind (.check _) fun _ => .bind (.modify fun r => hv r _ _ _ _ _) fun _ =>
    .bind (noteReference_keeps (fun r _ => hv r _ _ _ _ _) _) fun _ => .pure _

theorem closeType_keeps (hv : Bystander view) : Keeps view closeType :=
  .bind .get fun _ => .bind (.check _) fun _ => .bind (.modify fun r => hv r _ _ _ _ _) fun _ =>
    .bind .get fun _ => .pure _

theorem attach_keeps (hv : Bystander view) (resource : Resource) : Keeps view (attach resource) :=
  .bind .get fun _ => .bind (.check _) fun _ => .bind (.modify fun r => hv r _ _ _ _ _) fun _ =>
    .bind .get fun _ => .pure _

theorem requestHeader_keeps (hv : Bystander view) (line : Bytes) :
    Keeps view (requestHeader line) := by
  unfold requestHeader
  split
  · exact recordRequestHeader_keeps hv line
  · refine .bind .get fun _ => ?_
    split
    · exact .pure _
    · exact closeRequestHeaders_keeps hv

theorem typeHeader_keeps (hv : Bystander view) (line : Bytes) : Keeps view (typeHeader line) := by
  unfold typeHeader
  split
  · exact recordTypeHeader_keeps hv line
  · exact closeType_keeps hv

theorem resourceHeader_keeps (hv : Bystander view) (line : Bytes) :
    Keeps view (resourceHeader line) := by
  unfold resourceHeader
  split
  · exact .bind .get fun _ => .bind (.check _) fun _ =>
      .bind (.modify fun r => hv r _ _ _ _ _) fun _ => .pure _
  · exact .bind .get fun _ => .pure _

end

theorem remaining_lt_of_nextLine {r r' : Reading} {line : Bytes} (h : nextLine r = .ok line r') :
    r'.inbound.remaining < r.inbound.remaining := by
  obtain ⟨line?, r₁, h₁, h⟩ := bind_eq_ok.1 h
  cases line? with
  | none =>
    obtain ⟨_, _, _, h⟩ := bind_eq_ok.1 h
    cases h
  | some line =>
    cases h
    simp only [onInbound] at h₁
    split at h₁ <;> cases h₁
    exact Inbound.remaining_lt_of_takeLine (by assumption)

/-- A step that takes a line and then leaves the input alone. -/
theorem remaining_lt_of_line {f : Bytes → Action Reading Phase}
    (hf : ∀ line, Keeps inbound (f line)) {r r' : Reading} {phase : Phase}
    (h : (nextLine >>= f) r = .ok phase r') : r'.inbound.remaining < r.inbound.remaining := by
  obtain ⟨line, r₁, h₁, h⟩ := bind_eq_ok.1 h
  rw [(hf line).of_ok h]
  exact remaining_lt_of_nextLine h₁

theorem remaining_lt_of_readResourceData {suite : Suite} {r r' : Reading} {phase : Phase}
    (h : readResourceData suite r = .ok phase r') :
    r'.inbound.remaining < r.inbound.remaining := by
  obtain ⟨_, r₁, h₁, h⟩ := bind_eq_ok.1 h
  obtain ⟨_, r₂, h₂, h⟩ := bind_eq_ok.1 h
  obtain ⟨resource, r₃, h₃, h⟩ := bind_eq_ok.1 h
  rw [(attach_keeps bystander_inbound _).of_ok h]
  cases h₁
  have h₂ := (Keeps.check _ : Keeps inbound _).of_ok h₂
  simp only [receive] at h₃
  split at h₃ <;> cases h₃
  rw [← h₂]
  exact Payload.remaining_lt_of_receive (by assumption)

/-- What a step does depends on the phase. -/
theorem step_eq {gate : Gate} {r : Reading} : step gate r = read gate r.phase r := rfl

theorem remaining_lt_of_step {gate : Gate} {r r' : Reading} {phase : Phase}
    (h : step gate r = .ok phase r') (hp : r.phase.isUnderWay) :
    r'.inbound.remaining < r.inbound.remaining := by
  rw [step_eq] at h
  generalize r.phase = p at h hp
  cases p with
  | requestLine | complete | answered => cases hp
  | requestHeaders => exact remaining_lt_of_line (requestHeader_keeps bystander_inbound) h
  | typeHeaders => exact remaining_lt_of_line (typeHeader_keeps bystander_inbound) h
  | resourceHeaders => exact remaining_lt_of_line (resourceHeader_keeps bystander_inbound) h
  | resourceData => exact remaining_lt_of_readResourceData h

theorem remaining_lt_of_advance {gate : Gate} {r r' : Reading} (h : advance gate r = .ok () r')
    (hp : r.phase.isUnderWay) : r'.inbound.remaining < r.inbound.remaining := by
  obtain ⟨phase, r₁, h₁, h⟩ := bind_eq_ok.1 h
  have hlt := remaining_lt_of_step h₁ hp
  cases h
  exact hlt

/-- Takes steps as long as the request is under way. -/
def proceed (gate : Gate) : Action Reading Unit := fun r =>
  if _hp : r.phase.isUnderWay then
    match _h : advance gate r with
    | .ok _ r' => proceed gate r'
    | .error failure r' => .error failure r'
  else .ok () r
termination_by r => r.inbound.remaining
decreasing_by exact remaining_lt_of_advance _h _hp

theorem proceed_of_advance {gate : Gate} {r r' : Reading} (hp : r.phase.isUnderWay)
    (h : advance gate r = .ok () r') : proceed gate r = proceed gate r' := by
  rw [proceed, dif_pos hp]
  split
  · next h' => cases h.symm.trans h'; rfl
  · next h' => cases h.symm.trans h'

theorem proceed_of_failure {gate : Gate} {r r' : Reading} {failure : Failure}
    (hp : r.phase.isUnderWay) (h : advance gate r = .error failure r') :
    proceed gate r = .error failure r' := by
  rw [proceed, dif_pos hp]
  split
  · next h' => cases h.symm.trans h'
  · next h' => cases h.symm.trans h'; rfl

theorem proceed_of_over {gate : Gate} {r : Reading} (hp : ¬ r.phase.isUnderWay) :
    proceed gate r = .ok () r := by
  rw [proceed, dif_neg hp]

/-- Reads a request to its end, from wherever the reading is. -/
def finish (gate : Gate) : Action Reading Request := do
  if ¬ (← get).phase.isUnderWay ∧ (← get).phase ≠ .complete then
    advance gate
  proceed gate
  pure (← get).request

/-- A reading of which nothing was taken yet. -/
def start (input : Bytes) (store : Store) : Reading := { inbound := { unread := input }, store }

/-- Reads a request to its end. There is no request if the input ends first. -/
def parse (gate : Gate) : Action Reading (Option Request) := fun r =>
  match finish gate r with
  | .ok request r' => .ok (some request) r'
  | .error (.truncated _) r' => .ok none r'
  | .error failure r' => .error failure r'

end Gntp.Reading
