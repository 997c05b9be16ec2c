import Gntp.Proofs.Registering

/-!
# Registrations at the same time

The registry is locked for one call at a time, so the calls of registrations that are acted on at
the same time stand in any order that keeps the order within each of them. Whatever that order is,
no call fails, nothing is registered twice, no number is given away twice, and every entry is as
the last call about it says (`Dispatching.run_registers`). A registration that has the registry to
itself is the case of one dispatch (`Dispatching.register_alone`).
-/

namespace Gntp

open Gntp.Action

/-- How far acting on a registration has come. -/
inductive Dispatch where
  | begun (g : Registration)
  /-- The application is registered, and these types are not yet. -/
  | entering (application : Application) (types : List TypeDeclaration)
  deriving DecidableEq

namespace Dispatch

/-- The calls that are still to come. The types are entered for the application that the first call
has given back. -/
def remaining : Dispatch → List Registry.Call
  | begun g => g.calls
  | entering application types => types.map (.type application.name)

/-- Makes the next call. -/
def advance : Dispatch → Action Registry Dispatch
  | begun g => fun r =>
    let (application, r) := r.registerApplication g.name g.icon
    .ok (.entering application g.types) r
  | entering application (type :: types) => fun r =>
    match r.registerType application.name type.name type.displayName type.enabled type.icon with
    | .ok (_, r) => .ok (.entering application types) r
    | .error failure => .error failure r
  | entering application [] => pure (.entering application [])

/-- The application whose types are entered is registered. -/
def Ready (r : Registry) : Dispatch → Prop
  | begun _ => True
  | entering application _ => (r.application? application.name).isSome

theorem Ready.within {dispatch : Dispatch} {r r' : Registry} (h : dispatch.Ready r)
    (hr : r.Within r') : dispatch.Ready r' := by
  cases dispatch with
  | begun g => trivial
  | entering application types => exact hr.has (.application application.name) h

/-- The next call succeeds, and the ones after it are still to come. -/
theorem advance_of_ready {dispatch : Dispatch} {r : Registry} (hr : r.Orderly)
    (h : dispatch.Ready r) :
    ∃ dispatch' r', dispatch.advance r = .ok dispatch' r' ∧
      Registry.performAll (dispatch.remaining.take 1) r = .ok () r' ∧
      dispatch'.remaining = dispatch.remaining.drop 1 ∧ dispatch'.Ready r' := by
  match dispatch with
  | begun g =>
    let registered := r.registerApplication g.name g.icon
    have hname : registered.1.name = g.name :=
      Registry.name_registerApplication fun _ => hr.applicationNames
    refine ⟨.entering registered.1 g.types, registered.2, rfl, rfl, ?_, ?_⟩
    · exact congrArg (fun name => g.types.map (Registry.Call.type name)) hname
    · rw [Ready, hname, Registry.application?_registerApplication_self]
      rfl
  | entering application [] => exact ⟨_, r, rfl, rfl, rfl, h⟩
  | entering application (type :: types) =>
    obtain ⟨entered, r', h₁⟩ := Registry.registerType_of_registered h type.name type.displayName
      type.enabled type.icon
    have hperform : Registry.perform (.type application.name type) r = .ok () r' := by
      simp only [Registry.perform, h₁]
    refine ⟨.entering application types, r', by simp only [advance, h₁],
      Registry.performAll_cons.2 ⟨r', hperform, rfl⟩, rfl, ?_⟩
    have hwithin := (Registry.does_of_perform hperform).within
    exact hwithin.has (.application application.name) h

end Dispatch

/-- A registry and those who register. -/
structure Dispatching where
  registry : Registry
  dispatches : List Dispatch
  /-- The calls so far, each with the number of its dispatch. -/
  log : List (Nat × Registry.Call) := []
  deriving DecidableEq

namespace Dispatching

def start (before : Registry) (gs : List Registration) : Dispatching where
  registry := before
  dispatches := gs.map .begun

/-- Makes the next call of a dispatch, if there is one. -/
def step (n : Nat) : Action Dispatching Unit := fun d =>
  match d.dispatches[n]? with
  | none => .ok () d
  | some dispatch =>
    match dispatch.advance d.registry with
    | .ok dispatch' registry => .ok () {
        registry
        dispatches := d.dispatches.set n dispatch'
        log := d.log ++ (dispatch.remaining.take 1).map (n, ·) }
    | .error failure registry => .error failure { d with registry }

/-- Lets dispatches make their next calls in some order, up to a call that fails. -/
def run : List Nat → Action Dispatching Unit
  | [] => pure ()
  | n :: schedule => do
    step n
    run schedule

/-- The calls so far. -/
def calls (d : Dispatching) : List Registry.Call := d.log.map (·.2)

/-- The calls of one dispatch among some calls. -/
def callsOf (n : Nat) (log : List (Nat × Registry.Call)) : List Registry.Call :=
  (log.filter (·.1 = n)).map (·.2)

variable {before : Registry} {gs : List Registration} {d : Dispatching} {n m : Nat}

theorem callsOf_append (n : Nat) (log log' : List (Nat × Registry.Call)) :
    callsOf n (log ++ log') = callsOf n log ++ callsOf n log' := by
  rw [callsOf, List.filter_append, List.map_append, callsOf, callsOf]

@[simp] theorem callsOf_self (n : Nat) (calls : List Registry.Call) :
    callsOf n (calls.map (n, ·)) = calls := by
  simp [callsOf, List.filter_map, Function.comp_def]

theorem callsOf_of_ne (h : m ≠ n) (calls : List Registry.Call) :
    callsOf m (calls.map (n, ·)) = [] := by
  simp [callsOf, List.filter_map, Function.comp_def, h.symm]

/-- An order of calls in which each registration makes its own ones in its own order. -/
structure Keeps (gs : List Registration) (order : List (Nat × Registry.Call)) : Prop where
  callsOf : ∀ n, (h : n < gs.length) → callsOf n order = gs[n].calls
  numbered : ∀ turn ∈ order, turn.1 < gs.length

/-! ## What a turn keeps -/

/-- Where dispatches of these registrations can stand. -/
structure Underway (before : Registry) (gs : List Registration) (d : Dispatching) : Prop where
  performed : Registry.performAll d.calls before = .ok () d.registry
  length_eq : d.dispatches.length = gs.length
  ready : ∀ dispatch ∈ d.dispatches, dispatch.Ready d.registry
  made : ∀ n, (h : n < gs.length) → (h' : n < d.dispatches.length) →
    callsOf n d.log ++ d.dispatches[n].remaining = gs[n].calls

theorem underway_start : Underway before gs (start before gs) where
  performed := rfl
  length_eq := List.length_map ..
  ready dispatch h := by
    obtain ⟨g, _, rfl⟩ := List.mem_map.1 h
    trivial
  made n h h' := congrArg Dispatch.remaining (List.getElem_map ..)

/-- A turn of a dispatch is a call that succeeds. -/
theorem Underway.step (hb : before.Reachable) (h : Underway before gs d)
    (hn : n < d.dispatches.length) :
    ∃ d', Dispatching.step n d = .ok () d' ∧ Underway before gs d' ∧
      d'.log = d.log ++ (d.dispatches[n].remaining.take 1).map (n, ·) := by
  have hr : d.registry.Orderly := (hb.performAll h.performed).orderly
  obtain ⟨dispatch', r', hadvance, hperform, hremaining, hready⟩ :=
    Dispatch.advance_of_ready hr (h.ready _ (List.getElem_mem hn))
  have hwithin := (Registry.registered_of_performAll hperform).within
  let made : List (Nat × Registry.Call) := (d.dispatches[n].remaining.take 1).map (n, ·)
  refine ⟨⟨r', d.dispatches.set n dispatch', d.log ++ made⟩,
    by simp only [Dispatching.step, List.getElem?_eq_getElem hn, hadvance, made],
    ⟨?_, (List.length_set ..).trans h.length_eq, ?_, ?_⟩, rfl⟩
  · have hcalls : (d.log ++ made).map (·.2) = d.calls ++ d.dispatches[n].remaining.take 1 := by
      rw [List.map_append, List.map_map]
      exact congrArg (d.calls ++ ·) (List.map_id _)
    rw [calls, hcalls]
    exact Registry.performAll_append.2 ⟨d.registry, h.performed, hperform⟩
  · intro other hother
    rcases List.mem_or_eq_of_mem_set hother with hother | rfl
    · exact (h.ready other hother).within hwithin
    · exact hready
  · intro m hm hm'
    have hlt : m < d.dispatches.length := h.length_eq ▸ hm
    rw [callsOf_append]
    by_cases hmn : m = n
    · subst hmn
      rw [callsOf_self, List.getElem_set_self, hremaining, List.append_assoc,
        List.take_append_drop, h.made m hm hlt]
    · rw [callsOf_of_ne hmn, List.append_nil, List.getElem_set_ne (Ne.symm hmn), h.made m hm hlt]

/-- In an order that keeps the one of each registration, every turn finds its call. -/
theorem Underway.run (hb : before.Reachable) (rest : List (Nat × Registry.Call))
    (h : Underway before gs d) (ho : Keeps gs (d.log ++ rest)) :
    ∃ d', Dispatching.run (rest.map (·.1)) d = .ok () d' ∧ Underway before gs d' ∧
      d'.log = d.log ++ rest := by
  induction rest generalizing d with
  | nil => exact ⟨d, rfl, h, (List.append_nil d.log).symm⟩
  | cons turn rest ih =>
    obtain ⟨n, call⟩ := turn
    have hn : n < gs.length := ho.numbered (n, call) (List.mem_append_right _ List.mem_cons_self)
    have hlt : n < d.dispatches.length := h.length_eq ▸ hn
    have hcalls : d.dispatches[n].remaining = call :: callsOf n rest := by
      have hall := (h.made n hn hlt).trans (ho.callsOf n hn).symm
      rw [← List.singleton_append, callsOf_append, callsOf_append] at hall
      exact (List.append_cancel_left hall).trans (congrArg (· ++ _) (callsOf_self n [call]))
    obtain ⟨d₁, h₁, hunderway, hlog⟩ := h.step hb hlt
    rw [hcalls] at hlog
    change d₁.log = d.log ++ [(n, call)] at hlog
    have hkeeps : Keeps gs (d₁.log ++ rest) := by
      rwa [hlog, List.append_assoc, List.singleton_append]
    obtain ⟨d', hrun, hunderway, hlog'⟩ := ih hunderway hkeeps
    refine ⟨d', bind_eq_ok.2 ⟨(), d₁, h₁, hrun⟩, hunderway, ?_⟩
    rw [hlog', hlog, List.append_assoc, List.singleton_append]

/-! ## What a run comes to -/

/-- The calls are about what the registrations are about. -/
theorem Keeps.mem_entries {order : List (Nat × Registry.Call)} (ho : Keeps gs order)
    {entry : Registry.Entry} :
    entry ∈ (order.map (·.2)).map Registry.Call.entry ↔
      ∃ g ∈ gs, entry ∈ g.calls.map Registry.Call.entry := by
  constructor
  · intro hentry
    obtain ⟨call, hcall, rfl⟩ := List.mem_map.1 hentry
    obtain ⟨turn, hturn, rfl⟩ := List.mem_map.1 hcall
    have hn := ho.numbered turn hturn
    refine ⟨gs[turn.1], List.getElem_mem hn, List.mem_map_of_mem ?_⟩
    rw [← ho.callsOf turn.1 hn]
    exact List.mem_map.2 ⟨turn, List.mem_filter.2 ⟨hturn, decide_eq_true rfl⟩, rfl⟩
  · rintro ⟨g, hmem, hentry⟩
    obtain ⟨call, hcall, rfl⟩ := List.mem_map.1 hentry
    obtain ⟨n, hn, rfl⟩ := List.getElem_of_mem hmem
    rw [← ho.callsOf n hn] at hcall
    obtain ⟨turn, hturn, rfl⟩ := List.mem_map.1 hcall
    exact List.mem_map_of_mem (List.mem_map_of_mem (List.mem_filter.1 hturn).1)

/-- What registrations make of a registry by these calls. -/
structure Registers (before after : Registry) (gs : List Registration)
    (calls : List Registry.Call) : Prop where
  /-- Applications and types are there if they were there before or belong to a registration. -/
  applications : ∀ name, (after.application? name).isSome ↔
    (before.application? name).isSome ∨ ∃ g ∈ gs, g.name = name
  types : ∀ owner name, (after.type? owner name).isSome ↔
    (before.type? owner name).isSome ∨ ∃ g ∈ gs, g.name = owner ∧ ∃ type ∈ g.types, type.name = name
  /-- Each of them is there once and has a number of its own. -/
  orderly : after.Orderly
  /-- What was there keeps its number, and every entry is as the last call about it says. -/
  registered : Registry.Registered before after calls

/-- Whatever the order of their calls is, registrations do not get into each other's way. -/
theorem run_registers (hb : before.Reachable) {order : List (Nat × Registry.Call)}
    (ho : Keeps gs order) :
    ∃ d, run (order.map (·.1)) (start before gs) = .ok () d ∧ d.log = order ∧
      Registers before d.registry gs (order.map (·.2)) := by
  obtain ⟨d, hrun, h, hlog⟩ := underway_start.run hb order ho
  have hlog : d.log = order := hlog
  have hperformed : Registry.performAll (order.map (·.2)) before = .ok () d.registry :=
    hlog ▸ h.performed
  have hregistered := Registry.registered_of_performAll hperformed
  refine ⟨d, hrun, hlog, ?_, ?_, (hb.performAll hperformed).orderly, hregistered⟩
  · intro name
    refine (hregistered.has_iff (.application name)).trans (or_congr_right ?_)
    simp only [ho.mem_entries, Registration.application_mem_calls]
  · intro owner name
    refine (hregistered.has_iff (.type owner name)).trans (or_congr_right ?_)
    simp only [ho.mem_entries, Registration.type_mem_calls]

/-- A type without any text but its name and icon. -/
def plainType (name icon : Bytes) : TypeDeclaration where
  name
  displayName := []
  enabled := true
  icon

/-- Two registrations of one application, and one of another with a type of the same name. -/
def contested : List Registration :=
  [⟨ascii "A", ascii "a", [plainType (ascii "T") (ascii "t"), plainType (ascii "U") []]⟩,
    ⟨ascii "B", [], [plainType (ascii "T") []]⟩,
    ⟨ascii "A", ascii "b", [plainType (ascii "T") (ascii "u")]⟩]

/-- The third registration overtakes the first one. -/
def contestedOrder : List (Nat × Registry.Call) :=
  [(0, .application (ascii "A") (ascii "a")),
    (2, .application (ascii "A") (ascii "b")),
    (1, .application (ascii "B") []),
    (2, .type (ascii "A") (plainType (ascii "T") (ascii "u"))),
    (0, .type (ascii "A") (plainType (ascii "T") (ascii "t"))),
    (1, .type (ascii "B") (plainType (ascii "T") [])),
    (0, .type (ascii "A") (plainType (ascii "U") []))]

theorem run_registers_contested :
    Registry.Reachable {} ∧ Keeps contested contestedOrder ∧
    ∃ d, run (contestedOrder.map (·.1)) (start {} contested) = .ok () d ∧
      d.log = contestedOrder ∧
      Registers {} d.registry contested (contestedOrder.map (·.2)) :=
  have hkeeps : Keeps contested contestedOrder := ⟨by decide, by decide⟩
  ⟨.empty, hkeeps, run_registers .empty hkeeps⟩

/-- A registration that has the registry to itself does what acting on its request does. -/
theorem register_alone {request : Request} {e : Effects} {g : Registration}
    (hb : e.registry.Reachable) (hg : request.registration = .ok g) :
    ∃ d, run (g.calls.map fun _ => 0) (start e.registry [g]) = .ok () d ∧
      request.register e = .ok (.ok .register) { e with registry := d.registry } := by
  have hkeeps : Keeps [g] (g.calls.map (0, ·)) := by
    refine ⟨fun n hn => ?_, fun turn hturn => ?_⟩
    · cases Nat.lt_one_iff.1 hn
      exact callsOf_self 0 g.calls
    · obtain ⟨_, _, rfl⟩ := List.mem_map.1 hturn
      exact Nat.zero_lt_one
  obtain ⟨d, hrun, h, hlog⟩ := underway_start.run hb (g.calls.map (0, ·)) hkeeps
  have hcalls : d.calls = g.calls := by
    rw [calls, hlog, start, List.nil_append, List.map_map]
    exact List.map_id _
  have hregister := request.register_calls hb.orderly
  rw [hg] at hregister
  obtain ⟨registry, hperformed, hregister⟩ := hregister
  rw [← hcalls, h.performed] at hperformed
  cases hperformed
  rw [List.map_map] at hrun
  exact ⟨d, hrun, hregister⟩

end Dispatching

end Gntp
