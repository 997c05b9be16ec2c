import Gntp.Request.Completion

/-!
# Runs of a reading

What the loop of a reading leaves alone (`proceed_keeps`), and how a whole reading comes apart into
its request line and the steps after it (`finish_eq_ok`, `final_finish`, `parse_eq_some`).
-/

namespace Gntp.Reading

open Gntp.Action

variable {gate : Gate} {τ : Type} {view : Reading → τ}

theorem onInbound_eq_ok {α : Type} {action : Action Inbound α} {r r' : Reading} {a : α} :
    onInbound action r = .ok a r' ↔
      ∃ inbound, action r.inbound = .ok a inbound ∧ r' = { r with inbound } := by
  unfold onInbound
  cases action r.inbound with
  | ok b inbound =>
    constructor
    · intro h
      cases h
      exact ⟨inbound, rfl, rfl⟩
    · rintro ⟨_, h, rfl⟩
      cases h
      rfl
  | error failure inbound => exact ⟨nofun, nofun⟩

theorem decide_eq_ok {line : RequestLine} {access : Access} {r r' : Reading} :
    decide gate line r = .ok access r' ↔
      Access.decide gate.suite gate.keyring gate.policy line = .ok access ∧ r' = r := by
  unfold decide
  cases Access.decide gate.suite gate.keyring gate.policy line with
  | ok granted =>
    constructor
    · intro h
      cases h
      exact ⟨rfl, rfl⟩
    · rintro ⟨h, rfl⟩
      cases h
      rfl
  | error failure => exact ⟨nofun, nofun⟩

/-- What is done on the way past the request line. -/
theorem readRequestLine_eq_ok {phase : Phase} {r r' : Reading} :
    readRequestLine gate r = .ok phase r' ↔ ∃ text inbound line access r₁,
      Inbound.takeLine r.inbound = .ok (some text) inbound ∧
      RequestLine.parse text = .ok line ∧
      Access.decide gate.suite gate.keyring gate.policy line = .ok access ∧
      grant gate line access { r with inbound } = .ok () r₁ ∧
      openHeaders gate r₁ = .ok () r' ∧ phase = .requestHeaders := by
  constructor
  · intro h
    obtain ⟨text?, r₁, h₁, h⟩ := bind_eq_ok.1 h
    obtain ⟨inbound, htake, rfl⟩ := onInbound_eq_ok.1 h₁
    cases text? with
    | none => cases h
    | some text =>
      obtain ⟨line, r₂, h₂, h⟩ := bind_eq_ok.1 h
      obtain ⟨access, r₃, h₃, h⟩ := bind_eq_ok.1 h
      obtain ⟨_, r₄, hgrant, h⟩ := bind_eq_ok.1 h
      obtain ⟨_, r₅, hopen, h⟩ := bind_eq_ok.1 h
      cases h
      obtain ⟨hparse, rfl⟩ := check_eq_ok.1 h₂
      obtain ⟨hdecide, rfl⟩ := decide_eq_ok.1 h₃
      exact ⟨text, inbound, line, access, r₄, htake, hparse, hdecide, hgrant, hopen, rfl⟩
  · rintro ⟨text, inbound, line, access, r₁, htake, hparse, hdecide, hgrant, hopen, rfl⟩
    exact bind_eq_ok.2 ⟨some text, _, onInbound_eq_ok.2 ⟨inbound, htake, rfl⟩,
      bind_eq_ok.2 ⟨line, _, check_eq_ok.2 ⟨hparse, rfl⟩,
        bind_eq_ok.2 ⟨access, _, decide_eq_ok.2 ⟨hdecide, rfl⟩,
          bind_eq_ok.2 ⟨(), r₁, hgrant, bind_eq_ok.2 ⟨(), r', hopen, rfl⟩⟩⟩⟩⟩

/-- A view that does not look at the input. -/
theorem onInbound_keeps {α : Type} (hv : ∀ (r : Reading) inbound, view { r with inbound } = view r)
    (action : Action Inbound α) : Keeps view (onInbound action) := by
  intro r
  unfold final onInbound
  cases action r.inbound with
  | ok a inbound => exact hv r inbound
  | error failure inbound => exact hv r inbound

theorem nextLine_keeps (hv : ∀ (r : Reading) inbound, view { r with inbound } = view r) :
    Keeps view nextLine :=
  .bind (onInbound_keeps hv _) fun line? => by
    cases line? with
    | none => exact .bind .get fun _ => .throw _
    | some line => exact .pure _

theorem decide_keeps (line : RequestLine) : Keeps view (decide gate line) := by
  unfold decide
  cases Access.decide gate.suite gate.keyring gate.policy line with
  | ok access => exact .pure _
  | error failure => exact .throw _

/-- A view that looks neither at the request nor at the sealing. -/
theorem grant_keeps (hv : ∀ (r : Reading) request sealing,
    view { r with request, sealing } = view r) (line : RequestLine) (access : Access) :
    Keeps view (grant gate line access) :=
  .bind (.modify fun r => hv r _ r.sealing) fun _ => by
    split
    · exact .bind (.check _) fun _ => .modify fun r => hv r r.request _
    · exact .pure ()

/-! ## The loop -/

/-- What every step leaves alone, the loop leaves alone. -/
theorem proceed_keeps
    (hstep : ∀ r : Reading, r.phase.isUnderWay → view ((advance gate).final r) = view r) :
    Keeps view (proceed gate) := by
  intro r
  induction r using proceed.induct gate with
  | case1 r hp _ r' h ih =>
    rw [final_congr (proceed_of_advance hp h), ih, ← hstep r hp, final_of_ok h]
  | case2 r hp failure r' h =>
    rw [final_of_error (proceed_of_failure hp h), ← hstep r hp, final_of_error h]
  | case3 r hp => rw [final_of_ok (proceed_of_over hp)]

/-- What holds before a step holds after it, so what holds before the loop holds after it. -/
theorem proceed_preserves {P : Reading → Prop}
    (hstep : ∀ r r' : Reading, P r → r.phase.isUnderWay → advance gate r = .ok () r' → P r')
    {r r' : Reading} (hr : P r) (h : proceed gate r = .ok () r') : P r' := by
  induction r using proceed.induct gate with
  | case1 r hp _ r₁ h₁ ih =>
    rw [proceed_of_advance hp h₁] at h
    exact ih (hstep r r₁ hr hp h₁) h
  | case2 r hp failure r₁ h₁ =>
    rw [proceed_of_failure hp h₁] at h
    cases h
  | case3 r hp =>
    rw [proceed_of_over hp] at h
    cases h
    exact hr

/-- The loop ends outside the phases that are under way. -/
theorem over_of_proceed {r r' : Reading} (h : proceed gate r = .ok () r') :
    ¬ r'.phase.isUnderWay := by
  induction r using proceed.induct gate with
  | case1 r hp _ r₁ h₁ ih =>
    rw [proceed_of_advance hp h₁] at h
    exact ih h
  | case2 r hp failure r₁ h₁ =>
    rw [proceed_of_failure hp h₁] at h
    cases h
  | case3 r hp =>
    rw [proceed_of_over hp] at h
    cases h
    exact hp

/-! ## The whole reading -/

variable {r r' : Reading}

theorem advance_of_requestLine (hp : r.phase = .requestLine) :
    advance gate r = (readRequestLine gate >>= fun phase => modify fun r => { r with phase }) r := by
  obtain ⟨phase, inbound, store, request, sealing, block, typeCount⟩ := r
  cases hp
  rfl

theorem advance_of_readRequestLine {r₁ : Reading} {phase : Phase} (hp : r.phase = .requestLine)
    (h : readRequestLine gate r = .ok phase r₁) : advance gate r = .ok () { r₁ with phase } := by
  rw [advance_of_requestLine hp, bind_of_ok h]
  rfl

theorem finish_of_requestLine (hp : r.phase = .requestLine) :
    finish gate r = (advance gate >>= fun _ => proceed gate >>= fun _ =>
      get >>= fun r => pure r.request) r := by
  obtain ⟨phase, inbound, store, request, sealing, block, typeCount⟩ := r
  cases hp
  rfl

/-- The request line is taken first, and then the loop takes the rest. -/
theorem finish_eq (hp : r.phase = .requestLine) :
    finish gate r = match readRequestLine gate r with
      | .error failure r₁ => .error failure r₁
      | .ok phase r₁ => match proceed gate { r₁ with phase } with
        | .error failure r₂ => .error failure r₂
        | .ok _ r₂ => .ok r₂.request r₂ := by
  rw [finish_of_requestLine hp]
  cases hline : readRequestLine gate r with
  | error failure r₁ =>
    have hadvance : advance gate r = .error failure r₁ := by
      rw [advance_of_requestLine hp, bind_of_error hline]
    rw [bind_of_error hadvance]
  | ok phase r₁ =>
    rw [bind_of_ok (advance_of_readRequestLine hp hline)]
    dsimp only
    cases hloop : proceed gate { r₁ with phase } with
    | error failure r₂ => rw [bind_of_error hloop]
    | ok _ r₂ =>
      rw [bind_of_ok hloop]
      rfl

/-- A request is complete when its request line was taken and the loop has come to its end. -/
theorem finish_eq_ok (hp : r.phase = .requestLine) {request : Request} :
    finish gate r = .ok request r' ↔
      ∃ phase r₁, readRequestLine gate r = .ok phase r₁ ∧
        proceed gate { r₁ with phase } = .ok () r' ∧ request = r'.request := by
  rw [finish_eq hp]
  cases readRequestLine gate r with
  | error failure r₁ =>
    constructor
    · intro h
      cases h
    · rintro ⟨_, _, h, _⟩
      cases h
  | ok phase r₁ =>
    dsimp only
    cases hloop : proceed gate { r₁ with phase } with
    | error failure r₂ =>
      constructor
      · intro h
        cases h
      · rintro ⟨_, _, h, h', _⟩
        cases h
        cases hloop.symm.trans h'
    | ok _ r₂ =>
      constructor
      · intro h
        cases h
        exact ⟨phase, r₁, rfl, hloop, rfl⟩
      · rintro ⟨_, _, h, h', rfl⟩
        cases h
        cases hloop.symm.trans h'
        rfl

theorem final_finish (hp : r.phase = .requestLine) :
    (finish gate).final r = match readRequestLine gate r with
      | .ok phase r₁ => (proceed gate).final { r₁ with phase }
      | .error _ r₁ => r₁ := by
  unfold final
  rw [finish_eq hp]
  cases readRequestLine gate r with
  | error failure r₁ => rfl
  | ok phase r₁ =>
    dsimp only
    cases proceed gate { r₁ with phase } <;> rfl

theorem final_parse : (parse gate).final r = (finish gate).final r := by
  unfold final parse
  cases finish gate r with
  | ok request r' => rfl
  | error failure r' => cases failure <;> rfl

theorem parse_eq_some {request : Request} :
    parse gate r = .ok (some request) r' ↔ finish gate r = .ok request r' := by
  unfold parse
  cases finish gate r with
  | ok request r' => simp
  | error failure r' => cases failure <;> simp

/-- A test of an outcome: a request was completed, and the request and the reading pass it. -/
def Completes (test : Request → Reading → Bool) :
    EStateM.Result Failure Reading (Option Request) → Bool
  | .ok (some request) r => test request r
  | _ => false

theorem eq_some_of_completes {test : Request → Reading → Bool}
    {outcome : EStateM.Result Failure Reading (Option Request)} (h : Completes test outcome) :
    ∃ request r, outcome = .ok (some request) r ∧ test request r = true := by
  cases outcome with
  | ok request? r =>
    cases request? with
    | some request => exact ⟨request, r, rfl, h⟩
    | none => cases h
  | error => cases h

/-- A test of an outcome: the loop has come to its end, and the reading passes it. -/
def Ends (test : Reading → Bool) : EStateM.Result Failure Reading Unit → Bool
  | .ok _ r => test r
  | _ => false

theorem eq_ok_of_ends {test : Reading → Bool} {outcome : EStateM.Result Failure Reading Unit}
    (h : Ends test outcome) : ∃ r, outcome = .ok () r ∧ test r = true := by
  cases outcome with
  | ok _ r => exact ⟨r, rfl, h⟩
  | error => cases h

end Gntp.Reading
