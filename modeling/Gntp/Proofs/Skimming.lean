import Gntp.Proofs.Clock
import Gntp.Proofs.InternalErrors

/-!
# Reading without a store

A payload is taken off the input whether the store has it already, keeps it or drops it, so where
payloads are kept has no bearing on how a reading goes on. A view of a reading that opens no payload
and keeps none (`Reading.Skims`), such as `Reading.skimmed`, succeeds wherever the reading does,
with the same request up to what a store says of a resource; a reading fails otherwise only if a
payload cannot be opened or kept (`Reading.proceed_traces`), which does not happen as long as
nothing is sealed and no payload goes to a disk (`Reading.Smooth`).
-/

namespace Gntp

open Gntp.Action

/-! ## Resources without a place -/

/-- A resource without what a store says of it. -/
def Resource.unplaced (resource : Resource) : Resource :=
  { resource with cached := false, location := [] }

namespace Attachments

variable {a : Attachments} {identifier : Bytes}

def unplaced (a : Attachments) : Attachments :=
  ⟨a.entries.map fun entry => (entry.1, entry.2.map Resource.unplaced)⟩

theorem insert_unplaced (entry : Option Resource) (entries : List (Bytes × Option Resource)) :
    (insert identifier entry entries).map (fun e => (e.1, e.2.map Resource.unplaced)) =
      insert identifier (entry.map Resource.unplaced)
        (entries.map fun e => (e.1, e.2.map Resource.unplaced)) := by
  fun_induction insert identifier entry entries with
  | case1 => rfl
  | case2 id e rest hlt => simp only [List.map_cons, insert, if_pos hlt]
  | case3 e rest hlt => simp only [List.map_cons, insert, if_neg hlt, if_true]
  | case4 id e rest hlt hne ih => simp only [List.map_cons, insert, if_neg hlt, if_neg hne, ih]

@[simp] theorem find?_unplaced :
    a.unplaced.find? identifier = (a.find? identifier).map Resource.unplaced := by
  rw [find?, unplaced, Assoc.lookup_map_values, find?]
  cases a.entries.lookup identifier with
  | none => rfl
  | some entry => rfl

@[simp] theorem mentions_unplaced : a.unplaced.mentions identifier = a.mentions identifier := by
  rw [mentions, unplaced, Assoc.lookup_map_values, Option.isSome_map, mentions]

theorem refer_unplaced : (a.refer identifier).unplaced = a.unplaced.refer identifier := by
  unfold refer
  rw [mentions_unplaced]
  split
  · rfl
  · exact congrArg mk (insert_unplaced none a.entries)

theorem attach_unplaced (resource : Resource) :
    a.unplaced.attach resource.unplaced = (a.attach resource).map unplaced := by
  have hfound : (a.unplaced.find? resource.unplaced.identifier).isSome =
      (a.find? resource.identifier).isSome := by
    rw [find?_unplaced, Option.isSome_map]
    rfl
  unfold attach
  rw [hfound]
  split
  · rfl
  · exact congrArg (fun entries => Except.ok (mk entries))
      (insert_unplaced (some resource) a.entries).symm

@[simp] theorem pendingCount_unplaced : a.unplaced.pendingCount = a.pendingCount := by
  simp [pendingCount, unplaced, List.countP_map, Function.comp_def]

@[simp] theorem hasPending_unplaced : a.unplaced.hasPending = a.hasPending := by
  rw [hasPending, pendingCount_unplaced, hasPending]

@[simp] theorem attached_unplaced : a.unplaced.attached = a.attached.map Resource.unplaced := by
  simp [attached, unplaced, List.filterMap_map, List.map_filterMap]

end Attachments

def Request.unplaced (request : Request) : Request :=
  { request with attachments := request.attachments.unplaced }

/-! ## Outcomes told from others -/

namespace Action

variable {σ τ α β γ δ : Type} {f : α → β} {g : γ → δ} {view : σ → τ} {strict : Prop}

/-- The second outcome is the first one in view. Unless strict, the first one may also be a failure
that the second one knows nothing of. -/
inductive Traces (f : α → β) (view : σ → τ) (strict : Prop) :
    EStateM.Result Failure σ α → EStateM.Result Failure τ β → Prop
  | ok (a : α) (s : σ) : Traces f view strict (.ok a s) (.ok (f a) (view s))
  | error (failure : Failure) (s : σ) :
    Traces f view strict (.error failure s) (.error failure (view s))
  | missed {failure : Failure} {s : σ} {outcome : EStateM.Result Failure τ β} : ¬ strict →
    Traces f view strict (.error failure s) outcome

/-- The trace of an outcome of which nothing is missed. -/
def trace (f : α → β) (view : σ → τ) : EStateM.Result Failure σ α → EStateM.Result Failure τ β
  | .ok a s => .ok (f a) (view s)
  | .error failure s => .error failure (view s)

/-- Outcomes with the same trace differ in what the trace does not show only. -/
theorem of_trace_eq {outcome outcome' : EStateM.Result Failure σ α}
    (h : trace f view outcome = trace f view outcome') :
    (∃ a a' s s', outcome = .ok a s ∧ outcome' = .ok a' s' ∧ f a = f a' ∧ view s = view s') ∨
      ∃ failure s s', outcome = .error failure s ∧ outcome' = .error failure s' ∧
        view s = view s' := by
  cases outcome with
  | ok a s =>
    cases outcome' with
    | ok a' s' =>
      injection h with ha hs
      exact .inl ⟨a, a', s, s', rfl, rfl, ha, hs⟩
    | error failure' s' => cases h
  | error failure s =>
    cases outcome' with
    | ok a' s' => cases h
    | error failure' s' =>
      injection h with hfailure hs
      subst hfailure
      exact .inr ⟨failure, s, s', rfl, rfl, hs⟩

namespace Traces

theorem eq_trace {outcome : EStateM.Result Failure σ α} {outcome' : EStateM.Result Failure τ β}
    (h : Traces f view strict outcome outcome') (hstrict : strict) :
    outcome' = trace f view outcome := by
  cases h with
  | ok | error => rfl
  | missed hno => exact absurd hstrict hno

theorem eq_ok {a : α} {s : σ} {outcome : EStateM.Result Failure τ β}
    (h : Traces f view strict (.ok a s) outcome) : outcome = .ok (f a) (view s) := by
  cases h
  rfl

theorem relax {strict' : Prop} {outcome : EStateM.Result Failure σ α}
    {outcome' : EStateM.Result Failure τ β} (h : Traces f view strict outcome outcome')
    (hstrict : strict' → strict) : Traces f view strict' outcome outcome' := by
  cases h with
  | ok a s => exact .ok a s
  | error failure s => exact .error failure s
  | missed hno => exact .missed (hno ∘ hstrict)

theorem of_mirrors {x : Action σ α} {y : Action τ α} (h : Mirrors view x y) (s : σ) :
    Traces id view strict (x s) (y (view s)) := by
  rw [h s]
  cases x s with
  | ok a s' => exact .ok a s'
  | error failure s' => exact .error failure s'

theorem bind {x : Action σ α} {y : Action τ β} {k : α → Action σ γ} {l : β → Action τ δ} {s : σ}
    (hx : Traces f view strict (x s) (y (view s)))
    (hk : ∀ a s', x s = .ok a s' → Traces g view strict (k a s') (l (f a) (view s'))) :
    Traces g view strict ((x >>= k) s) ((y >>= l) (view s)) := by
  simp only [Bind.bind, EStateM.bind]
  generalize hxs : x s = outcome at hx
  generalize y (view s) = outcome' at hx
  cases hx with
  | ok a s' => exact hk a s' hxs
  | error failure s' => exact .error failure s'
  | missed h => exact .missed h

end Traces

end Action

/-! ## Payloads -/

namespace Payload

variable {suite suite' : Suite} {sealing : Sealing} {length : Nat} {slot : Slot} {r : Receiving}
  {inbound : Inbound} {strict : Prop}

def storeless (r : Receiving) : Receiving := { r with store := .discard }

theorem onInbound_mirrors {α : Type} (action : Action Inbound α) :
    Mirrors storeless (Receiving.onInbound action) (Receiving.onInbound action) := by
  intro r
  unfold Receiving.onInbound storeless
  cases action r.inbound <;> rfl

/-- A payload that was taken off the input is opened and goes into its slot. -/
theorem keep_of_taken {data : Bytes} (hslot : slot.cached = false)
    (htake : Inbound.takeBytes length r.inbound = .ok data inbound) :
    keep suite sealing length slot r = match sealing.decrypt suite data with
      | .error fault => .error (.cipher fault) ⟨inbound, r.store.abandon slot⟩
      | .ok payload => Receiving.onStore (Store.commit (r.store.write slot payload).1)
        ⟨inbound, (r.store.write slot payload).2⟩ := by
  unfold keep fill
  simp only [hslot, Receiving.onInbound, htake]
  cases sealing.decrypt suite data <;> rfl

theorem commit_traces {payload : Bytes} (htakes : strict → r.store.Takes slot) :
    Traces id storeless strict
      (Receiving.onStore (Store.commit (r.store.write slot payload).1)
        ⟨inbound, (r.store.write slot payload).2⟩)
      (.ok () ⟨inbound, .discard⟩) := by
  have hcommit (h : strict) : (Store.commit (r.store.write slot payload).1).Leads
      (r.store.write slot payload).2 (fun _ _ => True) (fun _ => False) := by
    obtain ⟨hsame, ht⟩ := Store.takes_write payload (htakes h)
    rw [hsame]
    exact (Store.commit_leads ht).mono fun _ _ _ => trivial
  unfold Receiving.onStore
  dsimp only
  cases hc : Store.commit (r.store.write slot payload).1 (r.store.write slot payload).2 with
  | ok _ store => exact .ok () (Receiving.mk inbound store)
  | error failure store => exact .missed fun h => (hcommit h).of_error hc

/-- A payload is taken off the input in any case. It may be that it cannot be opened or kept. -/
theorem keep_traces (hsealing : strict → sealing = .clear)
    (htakes : strict → slot.cached = false → r.store.Takes slot) {slot' : Slot}
    (hslot' : slot'.cached = false) :
    Traces id storeless strict (keep suite sealing length slot r)
      (keep suite' .clear length slot' (storeless r)) := by
  cases htake : Inbound.takeBytes length r.inbound with
  | error failure inbound =>
    have hskimmed : keep suite' .clear length slot' (storeless r) =
        .error failure ⟨inbound, .discard⟩ := by
      simp only [keep, fill, hslot', Receiving.onInbound, storeless, htake]
      rfl
    have hkept : ∃ store, keep suite sealing length slot r = .error failure ⟨inbound, store⟩ := by
      simp only [keep, fill, Receiving.onInbound, htake]
      split <;> exact ⟨_, rfl⟩
    obtain ⟨store, hkept⟩ := hkept
    rw [hskimmed, hkept]
    exact .error failure (Receiving.mk inbound store)
  | ok data inbound =>
    have hskimmed : keep suite' .clear length slot' (storeless r) =
        .ok () ⟨inbound, .discard⟩ := by
      have hagain : Inbound.takeBytes length (storeless r).inbound = .ok data inbound := htake
      rw [keep_of_taken hslot' hagain]
      rfl
    rw [hskimmed]
    cases hslot : slot.cached with
    | true =>
      have hkept : keep suite sealing length slot r = .ok () ⟨inbound, r.store⟩ := by
        simp only [keep, hslot, if_true, Receiving.onInbound, htake]
      rw [hkept]
      exact .ok () (Receiving.mk inbound r.store)
    | false =>
      rw [keep_of_taken hslot htake]
      cases hdecrypt : sealing.decrypt suite data with
      | error fault =>
        refine .missed fun h => ?_
        rw [hsealing h] at hdecrypt
        cases hdecrypt
      | ok payload => exact commit_traces fun h => htakes h hslot

theorem acquire_traces {identifier : Bytes} (hstore : strict → r.store.Volatile) :
    Traces (fun _ => ({ identifier } : Slot)) storeless strict
      (Receiving.onStore (Store.acquire suite identifier) r)
      (Receiving.onStore (Store.acquire suite' identifier) (storeless r)) := by
  have hacquire (h : strict) : (Store.acquire suite identifier).Leads r.store
      (fun _ _ => True) (fun _ => False) :=
    (Store.acquire_leads (hstore h)).mono fun _ _ _ => trivial
  have hskimmed : Receiving.onStore (Store.acquire suite' identifier) (storeless r) =
      .ok { identifier } (storeless r) := rfl
  rw [hskimmed]
  unfold Receiving.onStore
  cases hacquired : Store.acquire suite identifier r.store with
  | ok slot store => exact .ok slot (Receiving.mk r.inbound store)
  | error failure store => exact .missed fun h => (hacquire h).of_error hacquired

/-- What a store says of a resource is all that it has to do with it. -/
theorem receive_traces {headers : Headers} (hsealing : strict → sealing = .clear)
    (hstore : strict → r.store.Volatile) :
    Traces Resource.unplaced storeless strict (receive suite sealing headers r)
      (receive suite' .clear headers (storeless r)) := by
  refine .bind (.of_mirrors (.check _) r) fun (identifier, length) r₁ hcheck => ?_
  obtain ⟨_, rfl⟩ := check_eq_ok.1 hcheck
  refine .bind (acquire_traces hstore) fun slot r₂ hacquire => ?_
  have htakes (h : strict) : slot.cached = false → r₂.store.Takes slot := by
    obtain ⟨hsame, ht⟩ := (onStore_leads (E := fun _ => True)
      (Store.acquire_leads (hstore h))).of_ok hacquire
    rw [hsame]
    exact ht
  refine .bind (keep_traces hsealing htakes rfl) fun _ r₃ _ => ?_
  exact .bind (.of_mirrors (onInbound_mirrors _) r₃) fun _ r₄ _ => .ok _ r₄

end Payload

/-! ## The reading -/

namespace Reading

variable {gate gate' : Gate} {suite suite' : Suite} {r r' : Reading}

/-- A reading without its store and without the time; it opens no payloads. -/
def skimmed (r : Reading) : Reading := { r with
  store := .discard
  sealing := .clear
  request := r.request.undated.unplaced }

/-- Nothing can go wrong with a payload that is there. -/
structure Smooth (r : Reading) : Prop where
  sealing : r.sealing = .clear
  store : r.store.Volatile

/-- A view that opens no payloads and keeps none. -/
structure Skims (view : Reading → Reading) : Prop extends ShowsPlace view, Faithful view where
  sealing : ∀ r, (view r).sealing = .clear
  attachments : ∀ r, (view r).request.attachments = r.request.attachments.unplaced
  withAttachments : ∀ (r : Reading) attachments,
    { view r with
      request := { (view r).request with attachments := attachments.unplaced }, block := {} } =
      view { r with request := { r.request with attachments := attachments }, block := {} }
  receiving : ∀ r, (view r).receiving = Payload.storeless r.receiving
  resume : ∀ (r : Reading) left,
    (view r).resume (Payload.storeless left) = view (r.resume left)

theorem skims_skimmed : Skims skimmed where
  phase _ := rfl
  inbound _ := rfl
  withPhase _ _ := rfl
  withInbound _ _ := rfl
  messageType _ := rfl
  headers _ := rfl
  types _ := rfl
  hasPending _ := Attachments.hasPending_unplaced
  block _ := rfl
  typeCount _ := rfl
  withHeaders _ _ := rfl
  withType _ _ := rfl
  withBlock _ _ := rfl
  withTypeCount _ _ := rfl
  refer r identifier := by
    simp only [skimmed, Request.unplaced, Request.undated, Attachments.refer_unplaced]
  sealing _ := rfl
  attachments _ := rfl
  withAttachments _ _ := rfl
  receiving r := congrArg (Receiving.mk r.inbound) (ite_self Store.discard)
  resume r left := by
    unfold resume skimmed Payload.storeless
    simp only [ite_self]

theorem Smooth.receiving (h : r.Smooth) : r.receiving.store.Volatile := by
  unfold Reading.receiving
  split
  · trivial
  · exact h.store

theorem Smooth.advance (h : r.Smooth) (hp : r.phase.isUnderWay)
    (ha : Reading.advance gate r = .ok () r') : r'.Smooth where
  sealing := by
    have hs : settled ((Reading.advance gate).final r) = settled r := advance_keeps_settled hp
    rw [final_of_ok ha] at hs
    exact (congrArg Settled.sealing hs).trans h.sealing
  store := (advance_blames h.store hp).of_ok ha

section

variable {view : Reading → Reading} (hv : Skims view)
include hv

theorem Skims.checkNew (r : Reading) : (view r).checkNew = r.checkNew := by
  unfold Reading.checkNew
  rw [hv.block, hv.attachments]
  simp only [Attachments.find?_unplaced, Option.isSome_map]

theorem attach_mirrors (resource : Resource) :
    Mirrors view (attach resource) (attach resource.unplaced) := by
  refine .get_bind fun r => ?_
  rw [hv.attachments, Attachments.attach_unplaced]
  cases r.request.attachments.attach resource with
  | error reason => exact fun _ => rfl
  | ok attachments =>
    have hrest : Mirrors view
        (modify (fun r => { r with request := { r.request with attachments }, block := {} }) >>=
          fun _ => get >>= fun r => pure r.afterTypes)
        (modify (fun r => { r with
            request := { r.request with attachments := attachments.unplaced }, block := {} }) >>=
          fun _ => get >>= fun r => pure r.afterTypes) :=
      .bind (.modify fun r => hv.withAttachments r attachments) fun _ =>
        afterTypes_mirrors hv.toFaithful
    exact hrest

theorem receive_traces :
    Traces Resource.unplaced view r.Smooth (receive suite r) (receive suite' (view r)) := by
  have hpayload : Traces Resource.unplaced Payload.storeless r.Smooth
      (Payload.receive suite r.sealing r.block r.receiving)
      (Payload.receive suite' (view r).sealing (view r).block (view r).receiving) := by
    rw [hv.sealing, hv.block, hv.receiving]
    exact Payload.receive_traces Smooth.sealing Smooth.receiving
  unfold receive
  generalize Payload.receive suite r.sealing r.block r.receiving = outcome at hpayload
  generalize Payload.receive suite' (view r).sealing (view r).block (view r).receiving =
    outcome' at hpayload
  cases hpayload with
  | ok resource left =>
    dsimp only
    rw [hv.resume]
    exact .ok resource (r.resume left)
  | error failure left =>
    dsimp only
    rw [hv.resume]
    exact .error failure (r.resume left)
  | missed h => exact .missed h

theorem readResourceData_traces :
    Traces id view r.Smooth (readResourceData suite r) (readResourceData suite' (view r)) := by
  have hnew : Traces id view r.Smooth ((check r.checkNew : Action Reading Unit) r)
      ((check (view r).checkNew : Action Reading Unit) (view r)) := by
    rw [hv.checkNew]
    exact .of_mirrors (.check _) r
  refine .bind (f := id) (x := check r.checkNew) hnew fun _ r₁ hcheck => ?_
  obtain ⟨_, rfl⟩ := check_eq_ok.1 hcheck
  exact .bind (receive_traces hv) fun resource r₂ _ => .of_mirrors (attach_mirrors hv resource) r₂

theorem line_traces {f : Bytes → Action Reading Phase}
    (hf : ∀ line, Mirrors view (f line) (f line)) :
    Traces id view r.Smooth ((nextLine >>= f) r) ((nextLine >>= f) (view r)) :=
  .of_mirrors (.bind (nextLine_mirrors hv.toShowsPlace) hf) r

theorem step_traces (hp : r.phase.isUnderWay) :
    Traces id view r.Smooth (step gate r) (step gate' (view r)) := by
  rw [step_eq, step_eq, hv.phase]
  cases h : r.phase with
  | requestLine | complete | answered => rw [h] at hp; cases hp
  | requestHeaders => exact line_traces hv (requestHeader_mirrors hv.toFaithful)
  | typeHeaders => exact line_traces hv (typeHeader_mirrors hv.toFaithful)
  | resourceHeaders => exact line_traces hv (resourceHeader_mirrors hv.toFaithful)
  | resourceData => exact readResourceData_traces hv

theorem advance_traces (hp : r.phase.isUnderWay) :
    Traces id view r.Smooth (advance gate r) (advance gate' (view r)) := by
  refine .bind (step_traces hv hp) fun phase r₁ _ => ?_
  have hphase : Mirrors view (modify fun r => { r with phase })
      (modify fun r => { r with phase }) := .modify fun r => hv.withPhase r phase
  exact .of_mirrors hphase r₁

/-- Up to failures with a payload, reading to the end goes the same way without a store. -/
theorem proceed_traces :
    Traces id view r.Smooth (proceed gate r) (proceed gate' (view r)) := by
  have hsame (r : Reading) : (view r).phase.isUnderWay = r.phase.isUnderWay := by rw [hv.phase]
  induction r using proceed.induct gate with
  | case1 r hp _ r₁ h₁ ih =>
    have ha : Traces id view r.Smooth (advance gate r) (advance gate' (view r)) :=
      advance_traces hv hp
    rw [h₁] at ha
    rw [proceed_of_advance hp h₁, proceed_of_advance ((hsame r).trans hp) ha.eq_ok]
    exact ih.relax fun h => h.advance hp h₁
  | case2 r hp failure r₁ h₁ =>
    have ha : Traces id view r.Smooth (advance gate r) (advance gate' (view r)) :=
      advance_traces hv hp
    rw [h₁] at ha
    rw [proceed_of_failure hp h₁]
    generalize hout : advance gate' (view r) = outcome at ha
    cases ha with
    | error failure r₁ =>
      rw [proceed_of_failure ((hsame r).trans hp) hout]
      exact .error failure r₁
    | missed h => exact .missed h
  | case3 r hp =>
    rw [proceed_of_over hp, proceed_of_over fun h => hp ((hsame r).symm.trans h)]
    exact .ok () r

end

/-! ## The whole reading -/

variable {input : Bytes} {s : Store}

/-- A request line without a cipher seals nothing. -/
theorem sealing_of_readRequestLine {phase : Phase}
    (hclear : ∀ line, Opens input line → line.cipher = .none)
    (h : readRequestLine gate (start input s) = .ok phase r) : r.sealing = .clear := by
  obtain ⟨text, inbound, line, access, r₁, htake, hparsed, _, hgrant, hopen, _⟩ :=
    readRequestLine_eq_ok.1 h
  obtain ⟨hshort, rfl⟩ := Inbound.firstLine_of_takeLine rfl htake
  have hopens : Keeps sealing (openHeaders gate) :=
    .bind .get fun _ => onInbound_keeps (fun _ _ => rfl) _
  have hgranted : Keeps sealing (grant gate line access) := by
    refine .bind (.modify fun _ => rfl) fun _ => ?_
    rw [if_neg (not_not_intro (hclear line ⟨hshort, hparsed⟩))]
    exact .pure ()
  rw [hopens.of_ok hopen, hgranted.of_ok hgrant]
  rfl

/-- Skims an input from its request line to its end. -/
def skim (gate : Gate) (input : Bytes) : EStateM.Result Failure Reading Request :=
  match readRequestLine gate (start input .discard) with
  | .error failure r => .error failure r.skimmed
  | .ok phase r => match proceed gate { r with phase }.skimmed with
    | .error failure r => .error failure r
    | .ok _ r => .ok r.request r

/-- Nothing can go wrong with a payload of this input. -/
structure SmoothInput (input : Bytes) (s : Store) : Prop where
  clear : ∀ line, Opens input line → line.cipher = .none
  store : s.Volatile

theorem finish_traces (gate : Gate) (input : Bytes) (s : Store) :
    Traces (fun request => request.undated.unplaced) skimmed (SmoothInput input s)
      (finish gate (start input s)) (skim gate.timeless input) := by
  have hline : readRequestLine gate.timeless (start input .discard) =
      seen (recast fun _ => .discard) (readRequestLine gate (start input s)) :=
    readRequestLine_mirrors (fun _ => .discard) (start input s)
  rw [finish_eq rfl]
  unfold skim
  rw [hline]
  cases h : readRequestLine gate (start input s) with
  | error failure r₁ => exact .error failure r₁
  | ok phase r₁ =>
    have hstore : r₁.store = s := readRequestLine_keeps_store.of_ok h
    have hsmooth (hs : SmoothInput input s) : { r₁ with phase }.Smooth := by
      have hsealing : r₁.sealing = .clear := sealing_of_readRequestLine hs.clear h
      exact ⟨hsealing, hstore.symm ▸ hs.store⟩
    have hloop : Traces id skimmed (SmoothInput input s) (proceed gate { r₁ with phase })
        (proceed gate.timeless { r₁ with phase }.skimmed) :=
      (proceed_traces skims_skimmed).relax hsmooth
    have hskimmed : { recast (fun _ => Store.discard) r₁ with phase }.skimmed =
        { r₁ with phase }.skimmed := rfl
    simp only [seen]
    rw [hskimmed]
    generalize proceed gate { r₁ with phase } = outcome at hloop
    generalize proceed gate.timeless { r₁ with phase }.skimmed = outcome' at hloop
    cases hloop with
    | ok _ r₂ => exact .ok r₂.request r₂
    | error failure r₂ => exact .error failure r₂
    | missed hno => exact .missed hno

/-- However the payloads of a request are kept, and whenever it is read, it is the same request up
to the time and to what the stores say of its resources. -/
theorem unplaced_of_parse {s' : Store} {request request' : Request}
    (hgates : gate'.timeless = gate.timeless)
    (h : parse gate (start input s) = .ok (some request) r)
    (h' : parse gate' (start input s') = .ok (some request') r') :
    request'.undated.unplaced = request.undated.unplaced := by
  have hskim := finish_traces gate input s
  have hskim' := finish_traces gate' input s'
  rw [parse_eq_some.1 h] at hskim
  rw [parse_eq_some.1 h', hgates] at hskim'
  have heq := hskim'.eq_ok.symm.trans hskim.eq_ok
  injection heq

end Reading

end Gntp
