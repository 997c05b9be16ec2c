import Gntp.Proofs.RegistryCalls

/-!
# The history of a registry

Calls come one after the other, and one that fails is passed over (`Registry.performEach`). The
calls that succeed are performed as if no others had been made (`performAll_granted`), so what is
known of those carries over to any history: the numbers stay apart and are never taken back, types
stand under registered applications, and every look-up gives what the last successful call said
(`performEach_chronicles`).
-/

namespace Gntp.Registry

open Gntp.Action

/-- The number of an entry, if it is there. -/
def id? (r : Registry) : Entry → Option Nat
  | .application name => (r.application? name).map (·.id)
  | .type owner name => (r.type? owner name).map (·.id)

/-- Performs calls one after the other. One that fails is passed over. -/
def performEach (r : Registry) (calls : List Call) : Registry :=
  calls.foldl (fun r call => (perform call).final r) r

/-- The calls that succeed when calls are performed one after the other. -/
def granted (r : Registry) : List Call → List Call
  | [] => []
  | call :: calls =>
    match perform call r with
    | .ok _ r' => call :: granted r' calls
    | .error _ _ => granted r calls

variable {r r' : Registry} {call : Call} {calls : List Call} {entry : Entry} {id : Nat}

/-! ## Calls that fail -/

/-- A type is refused to an application that is not registered, and nothing changes. -/
theorem perform_of_unknown {owner : Bytes} (h : r.application? owner = none)
    (declared : TypeDeclaration) :
    perform (.type owner declared) r = .error (.unknownOwner owner) r := by
  simp only [perform, registerType, h, Option.isNone_none, if_true]

/-- A call that fails leaves everything as it was. -/
theorem unchanged_of_perform {failure : Failure} (h : perform call r = .error failure r') :
    r' = r := by
  cases call with
  | application name icon => cases h
  | type owner declared =>
    simp only [perform] at h
    split at h
    · cases h
    · cases h
      rfl

theorem performEach_cons_of_ok (h : perform call r = .ok () r') :
    performEach r (call :: calls) = performEach r' calls := by
  rw [performEach, List.foldl_cons, final_of_ok h, performEach]

theorem performEach_cons_of_error {failure : Failure} (h : perform call r = .error failure r') :
    performEach r (call :: calls) = performEach r calls := by
  rw [performEach, List.foldl_cons, final_of_error h, unchanged_of_perform h, performEach]

theorem performEach_append {more : List Call} :
    performEach r (calls ++ more) = performEach (performEach r calls) more :=
  List.foldl_append

/-- The calls that fail might as well not have been made. -/
theorem performAll_granted (r : Registry) (calls : List Call) :
    performAll (granted r calls) r = .ok () (performEach r calls) := by
  induction calls generalizing r with
  | nil => rfl
  | cons call calls ih =>
    cases h : perform call r with
    | ok _ r' =>
      simp only [granted, h]
      rw [performEach_cons_of_ok h]
      exact performAll_cons.2 ⟨r', h, ih r'⟩
    | error failure r' =>
      simp only [granted, h]
      rw [performEach_cons_of_error h]
      exact ih r

theorem reachable_performEach (calls : List Call) : Reachable (performEach {} calls) :=
  Reachable.empty.performAll (performAll_granted {} calls)

/-- No registration of an application fails. -/
theorem application_mem_granted {name icon : Bytes} :
    .application name icon ∈ granted r calls ↔ .application name icon ∈ calls := by
  induction calls generalizing r with
  | nil => rfl
  | cons call calls ih =>
    cases h : perform call r with
    | ok _ r' => simp only [granted, h, List.mem_cons, ih]
    | error failure r' =>
      have hne : Call.application name icon ≠ call := by
        rintro rfl
        cases h
      simp only [granted, h, List.mem_cons, ih, hne, false_or]

/-! ## Numbers -/

theorem Within.id? (h : Within r r') (hid : r.id? entry = some id) : r'.id? entry = some id := by
  cases entry with
  | application name =>
    obtain ⟨found, hfound, rfl⟩ := Option.map_eq_some_iff.1 hid
    obtain ⟨icon, h'⟩ := h.application hfound
    exact Option.map_eq_some_iff.2 ⟨_, h', rfl⟩
  | type owner name =>
    obtain ⟨found, hfound, rfl⟩ := Option.map_eq_some_iff.1 hid
    obtain ⟨displayName, enabled, icon, h'⟩ := h.type hfound
    exact Option.map_eq_some_iff.2 ⟨_, h', rfl⟩

/-- A history that goes on takes no number back. -/
theorem within_performEach (r : Registry) (calls : List Call) :
    Within r (performEach r calls) :=
  (registered_of_performAll (performAll_granted r calls)).within

/-- No call takes an application out of service. -/
theorem Does.enabled (h : Does r call r')
    (hr : ∀ {name found}, r.application? name = some found → found.enabled = true)
    {name : Bytes} {found : Application} (hfound : r'.application? name = some found) :
    found.enabled = true := by
  by_cases hentry : call.entry = .application name
  · cases h with
    | updatesApplication h₁ =>
      cases hentry
      rw [application?_putApplication_self] at hfound
      cases hfound
      exact (hr h₁ :)
    | addsApplication =>
      cases hentry
      rw [application?_numbered, application?_putApplication_self] at hfound
      cases hfound
      rfl
    | updatesType | addsType => cases hentry
  · rw [h.application?_of_ne hentry] at hfound
    exact hr hfound

theorem Reachable.enabled (h : Reachable r) {name : Bytes} {found : Application}
    (hfound : r.application? name = some found) : found.enabled = true := by
  induction h generalizing name found with
  | empty => cases hfound
  | @application r registered icon _ ih =>
    exact (does_of_registerApplication registered icon).enabled ih hfound
  | @type r r' owner registered displayName icon enabled type _ ht ih =>
    have hdoes : Does r (.type owner ⟨registered, displayName, enabled, icon⟩) r' :=
      does_of_registerType ht
    exact hdoes.enabled ih hfound

/-! ## Look-up -/

/-- An application is everything that the last call about it said, under the number it has. -/
theorem application?_of_lastIn (hr : Reachable r') (h : Registered r r' calls) {name icon : Bytes}
    (hlast : Call.LastIn calls (.application name icon)) :
    ∃ id, r'.application? name = some { id, name, icon } := by
  obtain ⟨found, hfound, rfl⟩ := h.recorded _ hlast
  obtain ⟨id, name', icon, enabled⟩ := found
  cases hr.orderly.applicationNames hfound
  cases hr.enabled hfound
  exact ⟨id, hfound⟩

/-- A type is everything that the last call about it said, under the number it has. -/
theorem type?_of_lastIn (hr : Orderly r') (h : Registered r r' calls) {owner : Bytes}
    {declared : TypeDeclaration} (hlast : Call.LastIn calls (.type owner declared)) :
    ∃ id, r'.type? owner declared.name = some (newType id owner declared) := by
  obtain ⟨found, hfound, hdeclared⟩ := h.recorded _ hlast
  obtain ⟨id, owner', name', displayName, enabled, icon⟩ := found
  obtain ⟨rfl, rfl⟩ := hr.typeNames hfound
  obtain ⟨rfl, rfl, rfl⟩ := hdeclared
  exact ⟨id, hfound⟩

/-! ## Histories -/

variable {owner name : Bytes} {type : NotificationType}

/-- Nothing was there at the start, so a call that succeeded was about every type that is there. -/
theorem exists_lastIn_of_type? (h : (performEach {} calls).type? owner name = some type) :
    ∃ declared, Call.LastIn (granted {} calls) (.type owner declared) ∧ declared.name = name := by
  have hregistered := registered_of_performAll (performAll_granted {} calls)
  have hmem : .type owner name ∈ (granted {} calls).map Call.entry := by
    by_contra hno
    cases (hregistered.otherTypes _ _ hno).symm.trans h
  obtain ⟨call, hlast, hentry⟩ := Call.exists_lastIn hmem
  cases call with
  | application => cases hentry
  | type owner' declared =>
    obtain ⟨rfl, hname⟩ := Entry.type.inj hentry
    exact ⟨declared, hlast, hname⟩

/-- The last call about a type found its application registered, and gave it a name to display. -/
theorem housed_of_mem (hmem : ((owner, name), type) ∈ (performEach {} calls).types) :
    type.application = owner ∧ type.name = name ∧
      ((performEach {} calls).application? owner).isSome ∧
      (type.displayName = [] → type.name = []) := by
  have hperformed := performAll_granted {} calls
  have horderly := (reachable_performEach calls).orderly
  have hfound : (performEach {} calls).type? owner name = some type :=
    Assoc.lookup_of_mem horderly.typeKeys hmem
  obtain ⟨rfl, rfl⟩ := horderly.typeNames hfound
  obtain ⟨declared, hlast, hname⟩ := exists_lastIn_of_type? hfound
  refine ⟨rfl, rfl, ?_, fun hnil => ?_⟩
  · obtain ⟨earlier, later, hgranted, _⟩ := hlast
    have hin : .type type.application declared ∈ granted {} calls :=
      hgranted ▸ List.mem_append_right earlier List.mem_cons_self
    exact owned_of_performAll hperformed _ hin
  · obtain ⟨id, hlatest⟩ := type?_of_lastIn horderly (registered_of_performAll hperformed) hlast
    rw [hname, hfound] at hlatest
    have hdisplay : type.displayName =
        TypeDeclaration.nonEmptyOr declared.displayName declared.name :=
      congrArg NotificationType.displayName (Option.some.inj hlatest)
    by_contra hne
    exact TypeDeclaration.nonEmptyOr_ne_nil (hname ▸ hne) (hdisplay.symm.trans hnil)

/-- What there is to say of a registry that a history of calls has led to. -/
structure Chronicles (calls : List Call) (r : Registry) : Prop where
  /-- No two entries have the same number. -/
  ids_nodup : r.ids.Nodup
  ids_given : ∀ id ∈ r.ids, 0 < id ∧ id < r.nextId
  /-- An entry that had a number earlier in the history has it still. -/
  id_kept : ∀ {earlier later : List Call}, calls = earlier ++ later → ∀ {entry : Entry} {id : Nat},
    (performEach {} earlier).id? entry = some id → r.id? entry = some id
  /-- A type stands under its own names, and under an application that is registered. It is
  displayed by no name at all only if it has none. -/
  type_housed : ∀ {owner name : Bytes} {type : NotificationType}, ((owner, name), type) ∈ r.types →
    type.application = owner ∧ type.name = name ∧ (r.application? owner).isSome ∧
      (type.displayName = [] → type.name = [])
  /-- No type is registered under an application that never was, and trying to changes nothing. -/
  type_refused : ∀ {owner : Bytes}, (∀ icon, .application owner icon ∉ calls) →
    ∀ declared, perform (.type owner declared) r = .error (.unknownOwner owner) r ∧
      (Failure.unknownOwner owner).report =
        .fault .invalidArgument (ascii "Registry: Unknown application: " ++ owner)
  application_last : ∀ {name icon : Bytes},
    Call.LastIn (granted {} calls) (.application name icon) →
      ∃ id, r.application? name = some { id, name, icon, enabled := true }
  application_none : ∀ {name : Bytes},
    .application name ∉ (granted {} calls).map Call.entry → r.application? name = none
  type_last : ∀ {owner : Bytes} {declared : TypeDeclaration},
    Call.LastIn (granted {} calls) (.type owner declared) →
      ∃ id, r.type? owner declared.name = some {
        id
        application := owner
        name := declared.name
        displayName := TypeDeclaration.nonEmptyOr declared.displayName declared.name
        enabled := declared.enabled
        icon := declared.icon }
  type_none : ∀ {owner name : Bytes},
    .type owner name ∉ (granted {} calls).map Call.entry → r.type? owner name = none

/-- Whatever calls were made, in whatever order, and however many of them failed. -/
theorem performEach_chronicles (calls : List Call) : Chronicles calls (performEach {} calls) := by
  have hregistered := registered_of_performAll (performAll_granted {} calls)
  have hreachable := reachable_performEach calls
  have horderly := hreachable.orderly
  have hunknown {name : Bytes} (h : .application name ∉ (granted {} calls).map Call.entry) :
      (performEach {} calls).application? name = none :=
    hregistered.otherApplications name h
  refine {
    ids_nodup := horderly.ids_nodup
    ids_given := horderly.ids_given
    id_kept := ?_
    type_housed := housed_of_mem
    type_refused := fun hnever declared => ⟨perform_of_unknown (hunknown ?_) declared, rfl⟩
    application_last := application?_of_lastIn hreachable hregistered
    application_none := hunknown
    type_last := type?_of_lastIn horderly hregistered
    type_none := hregistered.otherTypes _ _ }
  · rintro earlier later rfl entry id hid
    rw [performEach_append]
    exact (within_performEach _ later).id? hid
  · intro hmem
    obtain ⟨call, hcall, hentry⟩ := List.mem_map.1 hmem
    cases call with
    | application name icon =>
      cases hentry
      exact hnever icon (application_mem_granted.1 hcall)
    | type => cases hentry

end Gntp.Registry
