import Gntp.Proofs.Mirroring

/-!
# What the clock has a bearing on

Nothing but the time in the request: every reading is the one without a clock, up to that time
(`parse_timeless`). So gates that differ in their time only read the same request from the same
input, with the same effect on the store and as much left unread (`parse_at_other_time`).
-/

namespace Gntp

open Gntp.Action

/-- A gate without a clock. -/
def Gate.timeless (gate : Gate) : Gate := { gate with now := 0 }

namespace Reading

variable {gate gate' : Gate} {input : Bytes} {s : Store}

/-! ## The request line -/

/-- A reading without the time, with another store. -/
def recast (g : Store → Store) (r : Reading) : Reading := { r with
  store := g r.store
  request := r.request.undated }

section

variable (g : Store → Store)

theorem decide_mirrors (line : RequestLine) :
    Mirrors (recast g) (decide gate line) (decide gate.timeless line) := by
  have hsame : Access.decide gate.timeless.suite gate.timeless.keyring gate.timeless.policy line =
      Access.decide gate.suite gate.keyring gate.policy line := rfl
  unfold decide
  rw [hsame]
  cases Access.decide gate.suite gate.keyring gate.policy line with
  | ok access => exact .pure access
  | error failure => exact .throw failure

theorem grant_mirrors (line : RequestLine) (access : Access) :
    Mirrors (recast g) (grant gate line access) (grant gate.timeless line access) :=
  .bind (.modify fun _ => rfl) fun _ => .ite Iff.rfl
    (.bind (.check (Access.sealing line access.key)) fun _ => .modify fun _ => rfl) (.pure ())

theorem openHeaders_mirrors :
    Mirrors (recast g) (openHeaders gate) (openHeaders gate.timeless) :=
  .get_bind fun r => onInbound_mirrors (recast g) (fun _ => rfl) (fun _ _ => rfl)
    (Inbound.takeSealedBlock gate.suite r.sealing)

/-- Neither the time nor the store has a bearing on how the request line is read. -/
theorem readRequestLine_mirrors :
    Mirrors (recast g) (readRequestLine gate) (readRequestLine gate.timeless) :=
  .bind (onInbound_mirrors (recast g) (fun _ => rfl) (fun _ _ => rfl) _) fun text? => by
    cases text? with
    | none => exact .throw _
    | some text =>
      exact .bind (.check _) fun line => .bind (decide_mirrors g line) fun access =>
        .bind (grant_mirrors g line access) fun _ => .bind (openHeaders_mirrors g) fun _ => .pure _

end

/-! ## The whole reading -/

/-- What a reading comes to, without the time. -/
def timelessly : EStateM.Result Failure Reading (Option Request) →
    EStateM.Result Failure Reading (Option Request)
  | .ok request? r => .ok (request?.map Request.undated) r.untimed
  | .error failure r => .error failure r.untimed

/-- Without a clock, everything but the time is read alike. -/
theorem parse_timeless :
    parse gate.timeless (start input s) = timelessly (parse gate (start input s)) := by
  have hline : readRequestLine gate.timeless (start input s) =
      seen untimed (readRequestLine gate (start input s)) :=
    readRequestLine_mirrors id (start input s)
  unfold parse
  rw [finish_eq rfl, finish_eq rfl, hline]
  cases readRequestLine gate (start input s) with
  | error failure r₁ => cases failure <;> rfl
  | ok phase r₁ =>
    have hmirrors : Mirrors untimed (proceed gate) (proceed gate.timeless) :=
      proceed_mirrors shows_untimed rfl
    have hloop : proceed gate.timeless { r₁.untimed with phase } =
        seen untimed (proceed gate { r₁ with phase }) := hmirrors { r₁ with phase }
    simp only [seen]
    rw [hloop]
    cases proceed gate { r₁ with phase } with
    | error failure r₂ => cases failure <;> rfl
    | ok _ r₂ => rfl

/-- Only the time in a request depends on the time. -/
theorem parse_at_other_time (now : Int) :
    timelessly (parse { gate with now } (start input s)) =
      timelessly (parse gate (start input s)) := by
  rw [← parse_timeless, ← parse_timeless]
  rfl

theorem eq_some_of_timelessly {outcome : EStateM.Result Failure Reading (Option Request)}
    {request : Request} {r : Reading} (h : timelessly outcome = .ok (some request) r) :
    ∃ request' r', outcome = .ok (some request') r' ∧ request'.undated = request ∧
      r'.untimed = r := by
  cases outcome with
  | error failure r' => cases h
  | ok request? r' =>
    cases request? with
    | none => cases h
    | some request' =>
      cases h
      exact ⟨request', r', rfl, rfl, rfl⟩

end Reading

end Gntp
