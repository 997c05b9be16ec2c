import Gntp.Proofs.Run

/-!
# What a view of the state is enough for

An action mirrors another one along a view if it does on the view of a state what the other one
does on the state itself, results and failures included. The actions on headers mirror themselves
along every view that is faithful to the headers (`Reading.Faithful`), above all those that change
nothing but what surrounds them (`Reading.Secluded`), and reading a request after its request line
does along every view that shows what has a bearing on it (`Reading.Shows`, `proceed_mirrors`). The
time has none (`untimed`), and if the request is ignored neither has the store (`visible`).
-/

namespace Gntp

namespace Action

variable {σ τ α β : Type} {view : σ → τ}

/-- A result with the view of its state. -/
def seen (view : σ → τ) : EStateM.Result Failure σ α → EStateM.Result Failure τ α
  | .ok a s => .ok a (view s)
  | .error failure s => .error failure (view s)

/-- The second action does on the view of a state what the first one does on the state. -/
def Mirrors (view : σ → τ) (x : Action σ α) (y : Action τ α) : Prop :=
  ∀ s, y (view s) = seen view (x s)

namespace Mirrors

theorem pure (a : α) : Mirrors view (pure a) (pure a) := fun _ => rfl

theorem throw (failure : Failure) : Mirrors view (throw failure : Action σ α) (throw failure) :=
  fun _ => rfl

theorem check (outcome : Except Rejection α) :
    Mirrors view (check outcome) (check outcome) := by
  cases outcome <;> exact fun _ => rfl

theorem modify {f : σ → σ} {g : τ → τ} (h : ∀ s, g (view s) = view (f s)) :
    Mirrors view (modify f) (modify g) := fun s => congrArg (EStateM.Result.ok ()) (h s)

theorem bind {x : Action σ α} {y : Action τ α} {f : α → Action σ β} {g : α → Action τ β}
    (hx : Mirrors view x y) (hf : ∀ a, Mirrors view (f a) (g a)) :
    Mirrors view (x >>= f) (y >>= g) := by
  intro s
  simp only [Bind.bind, EStateM.bind]
  rw [hx s]
  cases x s with
  | ok a s₁ => exact hf a s₁
  | error failure s₁ => rfl

/-- Looking at the state is fine as long as nothing but the view of it has a bearing. -/
theorem get_bind {f : σ → Action σ β} {g : τ → Action τ β}
    (h : ∀ s, Mirrors view (f s) (g (view s))) :
    Mirrors view (get >>= f) (get >>= g) := fun s => h s s

theorem ite {p q : Prop} [Decidable p] [Decidable q] {x x' : Action σ α} {y y' : Action τ α}
    (hpq : p ↔ q) (hx : Mirrors view x y) (hx' : Mirrors view x' y') :
    Mirrors view (if p then x else x') (if q then y else y') := by
  by_cases hp : p
  · rw [if_pos hp, if_pos (hpq.1 hp)]
    exact hx
  · rw [if_neg hp, if_neg (hp ∘ hpq.2)]
    exact hx'

end Mirrors

end Action

open Gntp.Action

/-- A request without the time at which it was received. -/
def Request.undated (request : Request) : Request := { request with receivedAt := 0 }

namespace Reading

variable {gate gate' : Gate}

/-! ## Headers -/

/-- A view that shows what has a bearing on how headers are collected. Whether resources are pending
is all that it has to show of them. -/
structure Faithful (view : Reading → Reading) : Prop where
  messageType : ∀ r, (view r).request.messageType = r.request.messageType
  headers : ∀ r, (view r).request.headers = r.request.headers
  types : ∀ r, (view r).request.types = r.request.types
  hasPending : ∀ r, (view r).request.attachments.hasPending = r.request.attachments.hasPending
  block : ∀ r, (view r).block = r.block
  typeCount : ∀ r, (view r).typeCount = r.typeCount
  withHeaders : ∀ (r : Reading) headers,
    { view r with request := { (view r).request with headers := headers } } =
      view { r with request := { r.request with headers := headers } }
  withType : ∀ (r : Reading) types,
    { view r with request := { (view r).request with types := types }, block := {} } =
      view { r with request := { r.request with types := types }, block := {} }
  withBlock : ∀ (r : Reading) block, { view r with block := block } = view { r with block := block }
  withTypeCount : ∀ (r : Reading) typeCount,
    { view r with typeCount := typeCount } = view { r with typeCount := typeCount }
  refer : ∀ (r : Reading) identifier,
    { view r with request := { (view r).request with
        attachments := (view r).request.attachments.refer identifier } } =
      view { r with request := { r.request with
        attachments := r.request.attachments.refer identifier } }

section

variable {view : Reading → Reading} (hv : Faithful view)
include hv

theorem Faithful.afterTypes (r : Reading) : (view r).afterTypes = r.afterTypes := by
  unfold Reading.afterTypes
  rw [hv.hasPending]

theorem afterTypes_mirrors : Mirrors view (get >>= fun r => Pure.pure r.afterTypes)
    (get >>= fun r => Pure.pure r.afterTypes) :=
  .get_bind fun r => by
    rw [hv.afterTypes]
    exact .pure _

theorem noteReference_mirrors (value : Bytes) :
    Mirrors view (noteReference value) (noteReference value) :=
  .bind (.check _) fun reference => by
    cases reference with
    | none => exact .pure ()
    | some identifier => exact .modify fun r => hv.refer r identifier

theorem recordRequestHeader_mirrors (line : Bytes) :
    Mirrors view (recordRequestHeader line) (recordRequestHeader line) := by
  refine .get_bind fun r => ?_
  rw [hv.headers]
  exact .bind (.check _) fun _ => .bind (.modify fun r => hv.withHeaders r _) fun _ =>
    .bind (noteReference_mirrors hv _) fun _ => .pure _

theorem closeRequestHeaders_mirrors :
    Mirrors view closeRequestHeaders closeRequestHeaders := by
  refine .get_bind fun r => .ite (by rw [hv.messageType]) (afterTypes_mirrors hv) ?_
  refine .get_bind fun r => ?_
  rw [hv.headers]
  refine .bind (.check _) fun typeCount => .bind (.modify fun r => hv.withTypeCount r _) fun _ =>
    .ite Iff.rfl (afterTypes_mirrors hv) ?_
  exact .bind (.modify fun r => hv.withBlock r _) fun _ => .pure _

theorem requestHeader_mirrors (line : Bytes) :
    Mirrors view (requestHeader line) (requestHeader line) :=
  .ite Iff.rfl (recordRequestHeader_mirrors hv line) <|
    .get_bind fun r => .ite (by rw [hv.headers]) (.pure _) (closeRequestHeaders_mirrors hv)

theorem recordTypeHeader_mirrors (line : Bytes) :
    Mirrors view (recordTypeHeader line) (recordTypeHeader line) := by
  refine .get_bind fun r => ?_
  rw [hv.block]
  exact .bind (.check _) fun _ => .bind (.modify fun r => hv.withBlock r _) fun _ =>
    .bind (noteReference_mirrors hv _) fun _ => .pure _

theorem closeType_mirrors : Mirrors view closeType closeType := by
  refine .get_bind fun r => ?_
  rw [hv.block]
  refine .bind (.check _) fun type => .bind (.modify fun r => ?_) fun _ => .get_bind fun r => ?_
  · rw [hv.types]
    exact hv.withType r _
  · rw [hv.types, hv.typeCount, hv.afterTypes]
    exact .pure _

theorem typeHeader_mirrors (line : Bytes) : Mirrors view (typeHeader line) (typeHeader line) :=
  .ite Iff.rfl (recordTypeHeader_mirrors hv line) (closeType_mirrors hv)

theorem resourceHeader_mirrors (line : Bytes) :
    Mirrors view (resourceHeader line) (resourceHeader line) := by
  refine .ite Iff.rfl (.get_bind fun r => ?_) (.get_bind fun r => ?_)
  · rw [hv.block]
    exact .bind (.check _) fun _ => .bind (.modify fun r => hv.withBlock r _) fun _ => .pure _
  · rw [hv.block]
    exact .pure _

end

/-- What surrounds the headers that are collected: everything in a reading that has no bearing on
them. -/
structure Surroundings where
  phase : Phase
  inbound : Inbound
  store : Store
  ignored : Bool
  receivedAt : Int
  sealing : Sealing

def surroundings (r : Reading) : Surroundings where
  phase := r.phase
  inbound := r.inbound
  store := r.store
  ignored := r.request.ignored
  receivedAt := r.request.receivedAt
  sealing := r.sealing

/-- The same headers in other surroundings. -/
def amid (c : Surroundings) (r : Reading) : Reading := { r with
  phase := c.phase
  inbound := c.inbound
  store := c.store
  request := { r.request with ignored := c.ignored, receivedAt := c.receivedAt }
  sealing := c.sealing }

/-- An action on headers: it does the same in all surroundings. -/
def Secluded {α : Type} (x : Action Reading α) : Prop := ∀ c, Mirrors (amid c) x x

/-- An action on headers leaves its surroundings as they are. -/
theorem Secluded.keeps {α : Type} {x : Action Reading α} (hx : Secluded x) :
    Keeps surroundings x := by
  intro r
  have hsame : x r = seen (amid r.surroundings) (x r) := hx r.surroundings r
  unfold final
  cases h : x r with
  | ok a r' =>
    rw [h] at hsame
    injection hsame with _ heq
    rw [heq]
    rfl
  | error failure r' =>
    rw [h] at hsame
    injection hsame with _ heq
    rw [heq]
    rfl

/-- An action on headers mirrors itself along every view that shows the headers. -/
theorem Secluded.mirrors {α : Type} {x : Action Reading α} {view : Reading → Reading}
    (hx : Secluded x) (g : Surroundings → Surroundings)
    (hview : ∀ r, view r = amid (g r.surroundings) r) : Mirrors view x x := by
  intro r
  have hkeeps := hx.keeps r
  rw [hview, hx (g r.surroundings) r]
  cases h : x r with
  | ok a r' =>
    rw [final_of_ok h] at hkeeps
    rw [seen, seen, hview, hkeeps]
  | error failure r' =>
    rw [final_of_error h] at hkeeps
    rw [seen, seen, hview, hkeeps]

theorem faithful_amid (c : Surroundings) : Faithful (amid c) where
  messageType _ := rfl
  headers _ := rfl
  types _ := rfl
  hasPending _ := rfl
  block _ := rfl
  typeCount _ := rfl
  withHeaders _ _ := rfl
  withType _ _ := rfl
  withBlock _ _ := rfl
  withTypeCount _ _ := rfl
  refer _ _ := rfl

theorem requestHeader_secluded (line : Bytes) : Secluded (requestHeader line) := fun c =>
  requestHeader_mirrors (faithful_amid c) line

theorem typeHeader_secluded (line : Bytes) : Secluded (typeHeader line) := fun c =>
  typeHeader_mirrors (faithful_amid c) line

theorem resourceHeader_secluded (line : Bytes) : Secluded (resourceHeader line) := fun c =>
  resourceHeader_mirrors (faithful_amid c) line

theorem attach_secluded (resource : Resource) : Secluded (attach resource) := fun _ =>
  .get_bind fun r => .bind (.check (r.request.attachments.attach resource)) fun _ =>
    .bind (.modify fun _ => rfl) fun _ => .get_bind fun r => .pure r.afterTypes

/-! ## Steps after the request line -/

theorem onInbound_mirrors (view : Reading → Reading) {α : Type}
    (hread : ∀ r, (view r).inbound = r.inbound)
    (hwrite : ∀ (r : Reading) inbound,
      { view r with inbound := inbound } = view { r with inbound := inbound })
    (action : Action Inbound α) : Mirrors view (onInbound action) (onInbound action) := by
  intro r
  unfold onInbound
  rw [hread r]
  cases action r.inbound with
  | ok a inbound => exact congrArg _ (hwrite r inbound)
  | error failure inbound => exact congrArg _ (hwrite r inbound)

/-- A view that shows where a reading is and what is left to take. -/
structure ShowsPlace (view : Reading → Reading) : Prop where
  phase : ∀ r, (view r).phase = r.phase
  inbound : ∀ r, (view r).inbound = r.inbound
  withPhase : ∀ (r : Reading) phase, { view r with phase := phase } = view { r with phase := phase }
  withInbound : ∀ (r : Reading) inbound,
    { view r with inbound := inbound } = view { r with inbound := inbound }

theorem nextLine_mirrors {view : Reading → Reading} (hv : ShowsPlace view) :
    Mirrors view nextLine nextLine :=
  .bind (onInbound_mirrors view hv.inbound hv.withInbound _) fun line? => by
    cases line? with
    | none =>
      refine .get_bind fun r => ?_
      rw [hv.phase]
      exact .throw _
    | some line => exact .pure line

/-- A view that shows everything that has a bearing on the steps after the request line. -/
structure Shows (view : Reading → Reading) : Prop extends ShowsPlace view where
  headers : ∃ g : Surroundings → Surroundings, ∀ r, view r = amid (g r.surroundings) r
  sealing : ∀ r, (view r).sealing = r.sealing
  receiving : ∀ r, (view r).receiving = r.receiving
  resume : ∀ (r : Reading) left, (view r).resume left = view (r.resume left)

section

variable {view : Reading → Reading} (hv : Shows view)
include hv

theorem Secluded.mirrors_shown {α : Type} {x : Action Reading α} (hx : Secluded x) :
    Mirrors view x x := by
  obtain ⟨g, hview⟩ := hv.headers
  exact hx.mirrors g hview

theorem line_mirrors {f : Bytes → Action Reading Phase} (hf : ∀ line, Secluded (f line)) :
    Mirrors view (nextLine >>= f) (nextLine >>= f) :=
  .bind (nextLine_mirrors hv.toShowsPlace) fun line => (hf line).mirrors_shown hv

theorem receive_mirrors (suite : Suite) : Mirrors view (receive suite) (receive suite) := by
  intro r
  have hblock : (view r).block = r.block := by
    obtain ⟨g, hview⟩ := hv.headers
    rw [hview]
    rfl
  unfold receive
  rw [hv.sealing, hblock, hv.receiving]
  cases Payload.receive suite r.sealing r.block r.receiving with
  | ok resource left => exact congrArg _ (hv.resume r left)
  | error failure left => exact congrArg _ (hv.resume r left)

theorem readResourceData_mirrors (suite : Suite) :
    Mirrors view (readResourceData suite) (readResourceData suite) := by
  refine .get_bind fun r => ?_
  have hnew : (view r).checkNew = r.checkNew := by
    obtain ⟨g, hview⟩ := hv.headers
    rw [hview]
    rfl
  rw [hnew]
  exact .bind (.check _) fun _ => .bind (receive_mirrors hv suite) fun resource =>
    (attach_secluded resource).mirrors_shown hv

theorem step_mirrors {r : Reading} (hp : r.phase.isUnderWay) (hsuite : gate'.suite = gate.suite) :
    step gate' (view r) = seen view (step gate r) := by
  rw [step_eq, step_eq, hv.phase]
  cases h : r.phase with
  | requestLine | complete | answered => rw [h] at hp; cases hp
  | requestHeaders => exact line_mirrors hv requestHeader_secluded r
  | typeHeaders => exact line_mirrors hv typeHeader_secluded r
  | resourceHeaders => exact line_mirrors hv resourceHeader_secluded r
  | resourceData =>
    unfold read
    rw [hsuite]
    exact readResourceData_mirrors hv gate.suite r

theorem advance_mirrors {r : Reading} (hp : r.phase.isUnderWay)
    (hsuite : gate'.suite = gate.suite) :
    advance gate' (view r) = seen view (advance gate r) := by
  have hs : step gate' (view r) = seen view (step gate r) := step_mirrors hv hp hsuite
  unfold advance
  simp only [bind, EStateM.bind]
  rw [hs]
  cases step gate r with
  | ok phase r₁ => exact congrArg _ (hv.withPhase r₁ phase)
  | error failure r₁ => rfl

/-- Reading to the end takes no notice of what is not shown. -/
theorem proceed_mirrors (hsuite : gate'.suite = gate.suite) :
    Mirrors view (proceed gate) (proceed gate') := by
  intro r
  have hsame (r : Reading) : (view r).phase.isUnderWay = r.phase.isUnderWay := by rw [hv.phase]
  induction r using proceed.induct gate with
  | case1 r hp _ r₁ h₁ ih =>
    have ha : advance gate' (view r) = .ok () (view r₁) := by
      rw [advance_mirrors hv hp hsuite, h₁]
      rfl
    rw [proceed_of_advance ((hsame r).trans hp) ha, ih, proceed_of_advance hp h₁]
  | case2 r hp failure r₁ h₁ =>
    have ha : advance gate' (view r) = .error failure (view r₁) := by
      rw [advance_mirrors hv hp hsuite, h₁]
      rfl
    rw [proceed_of_failure ((hsame r).trans hp) ha, proceed_of_failure hp h₁]
    rfl
  | case3 r hp =>
    rw [proceed_of_over (fun h => hp ((hsame r).symm.trans h)), proceed_of_over hp]
    rfl

end

/-! ## What has a bearing -/

/-- A reading without the time. -/
def untimed (r : Reading) : Reading := { r with request := r.request.undated }

theorem shows_untimed : Shows untimed where
  headers := ⟨fun c => { c with receivedAt := 0 }, fun _ => rfl⟩
  phase _ := rfl
  inbound _ := rfl
  sealing _ := rfl
  receiving _ := rfl
  withPhase _ _ := rfl
  withInbound _ _ := rfl
  resume _ _ := rfl

/-- What has a bearing on how a request is read: not the time, and not the store if the request is
ignored. -/
def visible (r : Reading) : Reading := { r with
  store := if r.request.ignored then .discard else r.store
  request := r.request.undated }

/-- The payload of an ignored request goes into a store of its own. -/
theorem shows_visible : Shows visible where
  headers := ⟨fun c => { c with
    store := if c.ignored then .discard else c.store
    receivedAt := 0 }, fun _ => rfl⟩
  phase _ := rfl
  inbound _ := rfl
  sealing _ := rfl
  receiving r := by
    unfold receiving visible Request.undated
    cases r.request.ignored <;> rfl
  withPhase _ _ := rfl
  withInbound _ _ := rfl
  resume r left := by
    unfold resume visible Request.undated
    dsimp only
    cases r.request.ignored <;> rfl

end Reading

end Gntp
