import Mathlib.Data.List.Nodup
import Gntp.Proofs.Registration

/-!
# Calls of the registry

Those who register share one registry, and every call changes it once. `Registry.Does` says all
that a call can do. What a registry keeps through any number of calls follows from it: what is
registered stays (`Registry.Within`), the numbers stay apart (`Registry.Orderly`), and an entry
has what the last call about it says (`Registry.Registered`). Calls that have been performed leave
the registry as it is when they are performed again (`Registry.performAll_again`).
-/

namespace Gntp.Registry

open Gntp.Action

/-- A place in a registry. -/
inductive Entry where
  | application (name : Bytes)
  | type (owner name : Bytes)
  deriving DecidableEq

inductive Call where
  | application (name icon : Bytes)
  | type (owner : Bytes) (declared : TypeDeclaration)
  deriving DecidableEq

namespace Call

/-- What a call is about. -/
def entry : Call → Entry
  | application name _ => .application name
  | type owner declared => .type owner declared.name

/-- The call that stands last among those about its entry. -/
def LastIn (calls : List Call) (call : Call) : Prop :=
  ∃ earlier later, calls = earlier ++ call :: later ∧ ∀ other ∈ later, other.entry ≠ call.entry

theorem exists_lastIn {calls : List Call} {entry : Entry} (h : entry ∈ calls.map Call.entry) :
    ∃ call, LastIn calls call ∧ call.entry = entry := by
  induction calls with
  | nil => cases h
  | cons first calls ih =>
    by_cases hrest : entry ∈ calls.map Call.entry
    · obtain ⟨call, ⟨earlier, later, rfl, hlast⟩, hentry⟩ := ih hrest
      exact ⟨call, ⟨first :: earlier, later, rfl, hlast⟩, hentry⟩
    · have hfirst : entry = first.entry := (List.mem_cons.1 h).resolve_right hrest
      refine ⟨first, ⟨[], calls, rfl, fun other hother heq => hrest ?_⟩, hfirst.symm⟩
      exact hfirst ▸ heq ▸ List.mem_map_of_mem hother

/-- An entry has everything that a call says about it. -/
def Recorded (r : Registry) : Call → Prop
  | application name icon => ∃ found, r.application? name = some found ∧ found.icon = icon
  | type owner declared =>
    ∃ found, r.type? owner declared.name = some found ∧ found.AsDeclared declared

/-- The application of a call about a type is registered. -/
def Owned (r : Registry) : Call → Prop
  | application _ _ => True
  | type owner _ => (r.application? owner).isSome

end Call

def perform : Call → Action Registry Unit
  | .application name icon => modify fun r => (r.registerApplication name icon).2
  | .type owner declared => fun r =>
    match r.registerType owner declared.name declared.displayName declared.enabled
        declared.icon with
    | .ok (_, r') => .ok () r'
    | .error failure => .error failure r

/-- Performs calls one after the other, up to the first one that fails. -/
def performAll : List Call → Action Registry Unit
  | [] => pure ()
  | call :: calls => do
    perform call
    performAll calls

variable {r r' r'' : Registry} {call : Call} {calls : List Call} {entry : Entry}

theorem performAll_cons :
    performAll (call :: calls) r = .ok () r'' ↔
      ∃ r', perform call r = .ok () r' ∧ performAll calls r' = .ok () r'' := by
  rw [performAll, bind_eq_ok]
  exact ⟨fun ⟨_, r', h⟩ => ⟨r', h⟩, fun ⟨r', h⟩ => ⟨(), r', h⟩⟩

theorem performAll_append {more : List Call} :
    performAll (calls ++ more) r = .ok () r'' ↔
      ∃ r', performAll calls r = .ok () r' ∧ performAll more r' = .ok () r'' := by
  induction calls generalizing r with
  | nil =>
    constructor
    · exact fun h => ⟨r, rfl, h⟩
    · rintro ⟨_, h, hmore⟩
      cases h
      exact hmore
  | cons call calls ih =>
    simp only [List.cons_append, performAll_cons, ih]
    constructor
    · rintro ⟨r₁, h₁, r₂, h₂, hmore⟩
      exact ⟨r₂, ⟨r₁, h₁, h₂⟩, hmore⟩
    · rintro ⟨r₂, ⟨r₁, h₁, h₂⟩, hmore⟩
      exact ⟨r₁, h₁, r₂, h₂, hmore⟩

/-! ## What a call does -/

def putApplication (r : Registry) (name : Bytes) (application : Application) : Registry :=
  { r with applications := Assoc.set name application r.applications }

def putType (r : Registry) (owner name : Bytes) (type : NotificationType) : Registry :=
  { r with types := Assoc.set (owner, name) type r.types }

/-- Gives the next number away. -/
def numbered (r : Registry) : Registry := { r with nextId := r.nextId + 1 }

/-- A type with everything that a declaration says. -/
def declare (type : NotificationType) (declared : TypeDeclaration) : NotificationType :=
  { type with
    displayName := TypeDeclaration.nonEmptyOr declared.displayName declared.name
    enabled := declared.enabled
    icon := declared.icon }

/-- The type that a declaration makes if there is none. -/
def newType (id : Nat) (owner : Bytes) (declared : TypeDeclaration) : NotificationType where
  id
  application := owner
  name := declared.name
  displayName := TypeDeclaration.nonEmptyOr declared.displayName declared.name
  enabled := declared.enabled
  icon := declared.icon

/-- All that a call can do to a registry. -/
inductive Does : Registry → Call → Registry → Prop
  | updatesApplication {r : Registry} {name icon : Bytes} {found : Application}
    (hfound : r.application? name = some found) :
    Does r (.application name icon) (r.putApplication name { found with icon })
  | addsApplication {r : Registry} {name icon : Bytes} (hnew : r.application? name = none) :
    Does r (.application name icon) (r.putApplication name { id := r.nextId, name, icon }).numbered
  | updatesType {r : Registry} {owner : Bytes} {declared : TypeDeclaration}
    {found : NotificationType} (howner : (r.application? owner).isSome)
    (hfound : r.type? owner declared.name = some found) :
    Does r (.type owner declared) (r.putType owner declared.name (declare found declared))
  | addsType {r : Registry} {owner : Bytes} {declared : TypeDeclaration}
    (howner : (r.application? owner).isSome) (hnew : r.type? owner declared.name = none) :
    Does r (.type owner declared)
      (r.putType owner declared.name (newType r.nextId owner declared)).numbered

theorem does_of_registerApplication (name icon : Bytes) :
    Does r (.application name icon) (r.registerApplication name icon).2 := by
  unfold registerApplication
  split
  · next found hfound => exact .updatesApplication hfound
  · next hnew => exact .addsApplication hnew

theorem does_of_registerType {owner : Bytes} {declared : TypeDeclaration} {type : NotificationType}
    (h : r.registerType owner declared.name declared.displayName declared.enabled declared.icon =
      .ok (type, r')) : Does r (.type owner declared) r' := by
  unfold registerType at h
  split at h
  · cases h
  · next howner =>
    have howner : (r.application? owner).isSome :=
      Option.isSome_iff_ne_none.2 fun hn => howner (Option.isNone_iff_eq_none.2 hn)
    dsimp only at h
    split at h
    · next found hfound =>
      cases h
      exact .updatesType howner hfound
    · next hnew =>
      cases h
      exact .addsType howner hnew

theorem does_of_perform (h : perform call r = .ok () r') : Does r call r' := by
  cases call with
  | application name icon =>
    cases h
    exact does_of_registerApplication name icon
  | type owner declared =>
    simp only [perform] at h
    split at h
    · next h₁ =>
      cases h
      exact does_of_registerType h₁
    · cases h

/-- Nothing but a missing application keeps a call from being performed. -/
theorem perform_of_owned (h : call.Owned r) : ∃ r', perform call r = .ok () r' := by
  cases call with
  | application name icon => exact ⟨_, rfl⟩
  | type owner declared =>
    obtain ⟨type, r', h₁⟩ :=
      registerType_of_registered h declared.name declared.displayName declared.enabled declared.icon
    exact ⟨r', by simp only [perform, h₁]⟩

theorem Reachable.perform (hr : Reachable r) (h : perform call r = .ok () r') :
    Reachable r' := by
  cases call with
  | application name icon =>
    cases h
    exact .application hr
  | type owner declared =>
    simp only [Registry.perform] at h
    split at h
    · next h₁ =>
      cases h
      exact .type hr h₁
    · cases h

theorem Reachable.performAll (hr : Reachable r) (h : performAll calls r = .ok () r') :
    Reachable r' := by
  induction calls generalizing r with
  | nil =>
    cases h
    exact hr
  | cons call calls ih =>
    obtain ⟨r₁, h₁, h⟩ := performAll_cons.1 h
    exact ih (hr.perform h₁) h

/-! ## Look-up -/

section

variable {owner name other : Bytes} {application : Application} {type : NotificationType}

@[simp] theorem application?_numbered : r.numbered.application? name = r.application? name := rfl

@[simp] theorem type?_numbered : r.numbered.type? owner name = r.type? owner name := rfl

@[simp] theorem application?_putApplication_self :
    (r.putApplication name application).application? name = some application :=
  Assoc.lookup_set_self ..

theorem application?_putApplication_of_ne (h : name ≠ other) :
    (r.putApplication other application).application? name = r.application? name :=
  Assoc.lookup_set_of_ne h ..

@[simp] theorem type?_putType_self : (r.putType owner name type).type? owner name = some type :=
  Assoc.lookup_set_self ..

theorem type?_putType_of_ne {owner' : Bytes} (h : (owner, name) ≠ (owner', other)) :
    (r.putType owner' other type).type? owner name = r.type? owner name :=
  Assoc.lookup_set_of_ne h ..

end

namespace Does

theorem owned (h : Does r call r') : call.Owned r := by
  cases h with
  | updatesApplication | addsApplication => trivial
  | updatesType howner | addsType howner => exact howner

theorem recorded (h : Does r call r') : call.Recorded r' := by
  cases h with
  | updatesApplication => exact ⟨_, application?_putApplication_self, rfl⟩
  | addsApplication => exact ⟨_, application?_putApplication_self, rfl⟩
  | updatesType => exact ⟨_, type?_putType_self, ⟨rfl, rfl, rfl⟩⟩
  | addsType => exact ⟨_, type?_putType_self, ⟨rfl, rfl, rfl⟩⟩

theorem application?_of_ne (h : Does r call r') {name : Bytes}
    (hne : call.entry ≠ .application name) : r'.application? name = r.application? name := by
  cases h with
  | updatesApplication => exact application?_putApplication_of_ne fun heq => hne (heq ▸ rfl)
  | addsApplication => exact application?_putApplication_of_ne fun heq => hne (heq ▸ rfl)
  | updatesType | addsType => rfl

theorem type?_of_ne (h : Does r call r') {owner name : Bytes}
    (hne : call.entry ≠ .type owner name) : r'.type? owner name = r.type? owner name := by
  cases h with
  | updatesApplication | addsApplication => rfl
  | updatesType =>
    refine type?_putType_of_ne fun heq => hne ?_
    cases heq
    rfl
  | addsType =>
    refine type?_putType_of_ne fun heq => hne ?_
    cases heq
    rfl

end Does

/-! ## What is registered stays -/

/-- Everything in a registry stands in another one under the same number. Only what a registration
may change is different. -/
structure Within (r r' : Registry) : Prop where
  application : ∀ {name : Bytes} {found : Application}, r.application? name = some found →
    ∃ icon, r'.application? name = some { found with icon }
  type : ∀ {owner name : Bytes} {found : NotificationType}, r.type? owner name = some found →
    ∃ displayName enabled icon,
      r'.type? owner name = some { found with displayName, enabled, icon }

theorem Within.refl : Within r r where
  application h := ⟨_, h⟩
  type h := ⟨_, _, _, h⟩

theorem Within.trans (h : Within r r') (h' : Within r' r'') : Within r r'' where
  application hfound := by
    obtain ⟨_, h₁⟩ := h.application hfound
    obtain ⟨icon, h₂⟩ := h'.application h₁
    exact ⟨icon, h₂⟩
  type hfound := by
    obtain ⟨_, _, _, h₁⟩ := h.type hfound
    obtain ⟨displayName, enabled, icon, h₂⟩ := h'.type h₁
    exact ⟨displayName, enabled, icon, h₂⟩

/-- Whether an entry is there. -/
def has (r : Registry) : Entry → Bool
  | .application name => (r.application? name).isSome
  | .type owner name => (r.type? owner name).isSome

theorem Within.has (h : Within r r') (entry : Entry) (hr : r.has entry) : r'.has entry := by
  cases entry with
  | application name =>
    obtain ⟨found, hfound⟩ := Option.isSome_iff_exists.1 hr
    obtain ⟨icon, h₁⟩ := h.application hfound
    exact Option.isSome_iff_exists.2 ⟨_, h₁⟩
  | type owner name =>
    obtain ⟨found, hfound⟩ := Option.isSome_iff_exists.1 hr
    obtain ⟨displayName, enabled, icon, h₁⟩ := h.type hfound
    exact Option.isSome_iff_exists.2 ⟨_, h₁⟩

theorem Within.owned (h : Within r r') (hr : call.Owned r) : call.Owned r' := by
  cases call with
  | application name icon => trivial
  | type owner declared => exact h.has (.application owner) hr

theorem Call.Recorded.has (h : call.Recorded r) : r.has call.entry := by
  cases call with
  | application name icon =>
    obtain ⟨found, hfound, _⟩ := h
    exact Option.isSome_iff_exists.2 ⟨found, hfound⟩
  | type owner declared =>
    obtain ⟨found, hfound, _⟩ := h
    exact Option.isSome_iff_exists.2 ⟨found, hfound⟩

theorem Does.within (h : Does r call r') : Within r r' := by
  constructor
  · intro name found hfound
    by_cases hentry : call.entry = .application name
    · cases h with
      | updatesApplication h₁ =>
        cases hentry
        cases hfound.symm.trans h₁
        exact ⟨_, application?_putApplication_self⟩
      | addsApplication h₁ =>
        cases hentry
        cases hfound.symm.trans h₁
      | updatesType | addsType => cases hentry
    · exact ⟨_, (h.application?_of_ne hentry).trans hfound⟩
  · intro owner name found hfound
    by_cases hentry : call.entry = .type owner name
    · cases h with
      | updatesApplication | addsApplication => cases hentry
      | updatesType _ h₁ =>
        cases hentry
        cases hfound.symm.trans h₁
        exact ⟨_, _, _, type?_putType_self⟩
      | addsType _ h₁ =>
        cases hentry
        cases hfound.symm.trans h₁
    · exact ⟨_, _, _, (h.type?_of_ne hentry).trans hfound⟩

/-- What calls make of a registry when they are performed one after the other. -/
structure Registered (r r' : Registry) (calls : List Call) : Prop where
  within : Within r r'
  recorded : ∀ call, Call.LastIn calls call → call.Recorded r'
  otherApplications : ∀ name, .application name ∉ calls.map Call.entry →
    r'.application? name = r.application? name
  otherTypes : ∀ owner name, .type owner name ∉ calls.map Call.entry →
    r'.type? owner name = r.type? owner name

/-- The other calls are about other entries. -/
theorem Call.Recorded.of_others (h : call.Recorded r) (hrest : Registered r r' calls)
    (hothers : call.entry ∉ calls.map Call.entry) : call.Recorded r' := by
  cases call with
  | application name icon =>
    obtain ⟨found, hfound, hicon⟩ := h
    exact ⟨found, (hrest.otherApplications name hothers).trans hfound, hicon⟩
  | type owner declared =>
    obtain ⟨found, hfound, hdeclared⟩ := h
    exact ⟨found, (hrest.otherTypes owner declared.name hothers).trans hfound, hdeclared⟩

theorem Registered.nil : Registered r r [] where
  within := .refl
  recorded := by
    rintro call ⟨earlier, later, h, _⟩
    cases earlier <;> cases h
  otherApplications _ _ := rfl
  otherTypes _ _ _ := rfl

theorem Registered.cons (h : Does r call r') (hrest : Registered r' r'' calls) :
    Registered r r'' (call :: calls) where
  within := h.within.trans hrest.within
  recorded := by
    rintro last ⟨earlier, later, heq, hlast⟩
    cases earlier with
    | nil =>
      cases heq
      refine h.recorded.of_others hrest fun hmem => ?_
      obtain ⟨other, hother, hentry⟩ := List.mem_map.1 hmem
      exact hlast other hother hentry
    | cons _ earlier =>
      cases heq
      exact hrest.recorded last ⟨earlier, later, rfl, hlast⟩
  otherApplications name hname := by
    rw [hrest.otherApplications name fun hmem => hname (List.mem_cons_of_mem _ hmem)]
    refine h.application?_of_ne fun heq => hname ?_
    exact heq ▸ List.mem_cons_self
  otherTypes owner name hname := by
    rw [hrest.otherTypes owner name fun hmem => hname (List.mem_cons_of_mem _ hmem)]
    refine h.type?_of_ne fun heq => hname ?_
    exact heq ▸ List.mem_cons_self

theorem registered_of_performAll (h : performAll calls r = .ok () r') : Registered r r' calls := by
  induction calls generalizing r with
  | nil =>
    cases h
    exact .nil
  | cons call calls ih =>
    obtain ⟨r₁, h₁, h⟩ := performAll_cons.1 h
    exact .cons (does_of_perform h₁) (ih h)

/-- There is exactly what was there before and what the calls are about. -/
theorem Registered.has_iff (h : Registered r r' calls) (entry : Entry) :
    r'.has entry ↔ r.has entry ∨ entry ∈ calls.map Call.entry := by
  constructor
  · intro hr
    by_cases hmem : entry ∈ calls.map Call.entry
    · exact .inr hmem
    · cases entry with
      | application name =>
        rw [has, h.otherApplications name hmem] at hr
        exact .inl hr
      | type owner name =>
        rw [has, h.otherTypes owner name hmem] at hr
        exact .inl hr
  · rintro (hr | hmem)
    · exact h.within.has entry hr
    · obtain ⟨call, hlast, hentry⟩ := Call.exists_lastIn hmem
      exact hentry ▸ (h.recorded call hlast).has

/-! ## Numbers -/

/-- The numbers of everything that is registered. -/
def ids (r : Registry) : List Nat :=
  r.applications.map (fun entry => entry.2.id) ++ r.types.map fun entry => entry.2.id

/-- Everything is registered once, under its own name, and with its own number. -/
structure Orderly (r : Registry) : Prop where
  applicationKeys : (r.applications.map Prod.fst).Nodup
  typeKeys : (r.types.map Prod.fst).Nodup
  ids_nodup : r.ids.Nodup
  ids_given : ∀ id ∈ r.ids, 0 < id ∧ id < r.nextId
  nextId_pos : 0 < r.nextId
  applicationNames : ∀ {name : Bytes} {found : Application}, r.application? name = some found →
    found.name = name
  typeNames : ∀ {owner name : Bytes} {found : NotificationType}, r.type? owner name = some found →
    found.application = owner ∧ found.name = name

/-- A call leaves the numbers as they are, or gives the next one away. -/
theorem Does.ids (h : Does r call r') :
    (r'.ids = r.ids ∧ r'.nextId = r.nextId) ∨
      (r'.ids.Perm (r.nextId :: r.ids) ∧ r'.nextId = r.nextId + 1) := by
  cases h with
  | updatesApplication hfound =>
    refine .inl ⟨?_, rfl⟩
    exact congrArg (· ++ _) (Assoc.map_set_of_lookup (f := Application.id) hfound rfl)
  | updatesType howner hfound =>
    refine .inl ⟨?_, rfl⟩
    exact congrArg (_ ++ ·) (Assoc.map_set_of_lookup (f := NotificationType.id) hfound rfl)
  | addsApplication hnew =>
    refine .inr ⟨?_, rfl⟩
    have hnew := Option.not_isSome_iff_eq_none.2 hnew
    rw [application?, ← Assoc.mem_keys_iff_lookup] at hnew
    simp only [Registry.ids, numbered, putApplication, Assoc.set_of_notMem hnew, List.map_append,
      List.map_cons, List.map_nil, List.append_assoc, List.singleton_append]
    exact List.perm_middle
  | addsType howner hnew =>
    refine .inr ⟨?_, rfl⟩
    have hnew := Option.not_isSome_iff_eq_none.2 hnew
    rw [type?, ← Assoc.mem_keys_iff_lookup] at hnew
    simp only [Registry.ids, numbered, putType, Assoc.set_of_notMem hnew, List.map_append,
      List.map_cons, List.map_nil, ← List.append_assoc]
    exact List.perm_append_singleton ..

theorem Does.applicationNames (h : Does r call r') (hr : Orderly r) {name : Bytes}
    {found : Application} (hfound : r'.application? name = some found) : found.name = name := by
  by_cases hentry : call.entry = .application name
  · cases h with
    | updatesApplication h₁ =>
      cases hentry
      rw [application?_putApplication_self] at hfound
      cases hfound
      exact (hr.applicationNames h₁ :)
    | addsApplication =>
      cases hentry
      rw [application?_numbered, application?_putApplication_self] at hfound
      cases hfound
      rfl
    | updatesType | addsType => cases hentry
  · rw [h.application?_of_ne hentry] at hfound
    exact hr.applicationNames hfound

theorem Does.typeNames (h : Does r call r') (hr : Orderly r) {owner name : Bytes}
    {found : NotificationType} (hfound : r'.type? owner name = some found) :
    found.application = owner ∧ found.name = name := by
  by_cases hentry : call.entry = .type owner name
  · cases h with
    | updatesApplication | addsApplication => cases hentry
    | updatesType _ h₁ =>
      cases hentry
      rw [type?_putType_self] at hfound
      cases hfound
      exact (hr.typeNames h₁ :)
    | addsType =>
      cases hentry
      rw [type?_numbered, type?_putType_self] at hfound
      cases hfound
      exact ⟨rfl, rfl⟩
  · rw [h.type?_of_ne hentry] at hfound
    exact hr.typeNames hfound

theorem Does.applicationKeys (h : Does r call r') (hr : (r.applications.map Prod.fst).Nodup) :
    (r'.applications.map Prod.fst).Nodup := by
  cases h with
  | updatesApplication => exact Assoc.nodup_keys_set hr ..
  | addsApplication => exact Assoc.nodup_keys_set hr ..
  | updatesType | addsType => exact hr

theorem Does.typeKeys (h : Does r call r') (hr : (r.types.map Prod.fst).Nodup) :
    (r'.types.map Prod.fst).Nodup := by
  cases h with
  | updatesApplication | addsApplication => exact hr
  | updatesType => exact Assoc.nodup_keys_set hr ..
  | addsType => exact Assoc.nodup_keys_set hr ..

theorem Does.orderly (h : Does r call r') (hr : Orderly r) : Orderly r' where
  applicationKeys := h.applicationKeys hr.applicationKeys
  typeKeys := h.typeKeys hr.typeKeys
  ids_nodup := by
    rcases h.ids with ⟨hids, _⟩ | ⟨hids, _⟩
    · exact hids ▸ hr.ids_nodup
    · rw [hids.nodup_iff, List.nodup_cons]
      exact ⟨fun hmem => Nat.lt_irrefl _ (hr.ids_given _ hmem).2, hr.ids_nodup⟩
  ids_given := by
    intro id hid
    rcases h.ids with ⟨hids, hnext⟩ | ⟨hids, hnext⟩
    · rw [hnext]
      exact hr.ids_given id (hids ▸ hid)
    · rcases List.mem_cons.1 (hids.mem_iff.1 hid) with rfl | hid
      · exact ⟨hr.nextId_pos, by omega⟩
      · have hgiven := hr.ids_given id hid
        exact ⟨hgiven.1, by omega⟩
  nextId_pos := by
    have hpos := hr.nextId_pos
    rcases h.ids with ⟨_, hnext⟩ | ⟨_, hnext⟩ <;> omega
  applicationNames := h.applicationNames hr
  typeNames := h.typeNames hr

theorem Orderly.empty : Orderly {} where
  applicationKeys := List.nodup_nil
  typeKeys := List.nodup_nil
  ids_nodup := List.nodup_nil
  ids_given := nofun
  nextId_pos := Nat.zero_lt_one
  applicationNames := nofun
  typeNames := nofun

theorem Reachable.orderly (h : Reachable r) : Orderly r := by
  induction h with
  | empty => exact .empty
  | @application r name icon _ ih => exact (does_of_registerApplication name icon).orderly ih
  | @type r r' owner name displayName icon enabled type _ ht ih =>
    have hdoes : Does r (.type owner ⟨name, displayName, enabled, icon⟩) r' :=
      does_of_registerType ht
    exact hdoes.orderly ih

/-! ## The same calls again -/

theorem performAll_of_owned (h : ∀ call ∈ calls, call.Owned r) :
    ∃ r', performAll calls r = .ok () r' := by
  induction calls generalizing r with
  | nil => exact ⟨r, rfl⟩
  | cons call calls ih =>
    obtain ⟨howned, h⟩ := List.forall_mem_cons.1 h
    obtain ⟨r₁, h₁⟩ := perform_of_owned howned
    have hwithin := (does_of_perform h₁).within
    obtain ⟨r', hrest⟩ := ih fun call hcall => hwithin.owned (h call hcall)
    exact ⟨r', performAll_cons.2 ⟨r₁, h₁, hrest⟩⟩

theorem owned_of_performAll (h : performAll calls r = .ok () r') :
    ∀ call ∈ calls, call.Owned r' := by
  induction calls generalizing r with
  | nil => exact nofun
  | cons first calls ih =>
    have hwithin := (registered_of_performAll h).within
    obtain ⟨r₁, h₁, h⟩ := performAll_cons.1 h
    exact List.forall_mem_cons.2 ⟨hwithin.owned (does_of_perform h₁).owned, ih h⟩

/-- The same entries in the same order, and no more numbers given away. -/
structure Steady (r r' : Registry) : Prop where
  applicationKeys : r'.applications.map Prod.fst = r.applications.map Prod.fst
  typeKeys : r'.types.map Prod.fst = r.types.map Prod.fst
  nextId : r'.nextId = r.nextId

theorem Does.steady (h : Does r call r') (hr : r.has call.entry) : Steady r r' := by
  cases h with
  | updatesApplication =>
    exact ⟨Assoc.keys_set_of_mem (Assoc.mem_keys_iff_lookup.2 hr), rfl, rfl⟩
  | updatesType => exact ⟨rfl, Assoc.keys_set_of_mem (Assoc.mem_keys_iff_lookup.2 hr), rfl⟩
  | addsApplication hnew =>
    rw [Call.entry, has, hnew] at hr
    cases hr
  | addsType _ hnew =>
    rw [Call.entry, has, hnew] at hr
    cases hr

theorem steady_of_performAll (hr : ∀ call ∈ calls, r.has call.entry)
    (h : performAll calls r = .ok () r') : Steady r r' := by
  induction calls generalizing r with
  | nil =>
    cases h
    exact ⟨rfl, rfl, rfl⟩
  | cons call calls ih =>
    obtain ⟨hcall, hr⟩ := List.forall_mem_cons.1 hr
    obtain ⟨r₁, h₁, h⟩ := performAll_cons.1 h
    have hdoes := does_of_perform h₁
    have hfirst := hdoes.steady hcall
    have hrest := ih (fun call hmem => hdoes.within.has call.entry (hr call hmem)) h
    exact ⟨hrest.applicationKeys.trans hfirst.applicationKeys,
      hrest.typeKeys.trans hfirst.typeKeys, hrest.nextId.trans hfirst.nextId⟩

/-- What stands last about an application says what can change of it. -/
theorem application?_of_registered (h : Registered r r' calls) (h' : Registered r' r'' calls)
    (name : Bytes) : r''.application? name = r'.application? name := by
  by_cases hmem : .application name ∈ calls.map Call.entry
  · obtain ⟨call, hlast, hentry⟩ := Call.exists_lastIn hmem
    have hrecorded := h.recorded call hlast
    have hrecorded' := h'.recorded call hlast
    cases call <;> cases hentry
    obtain ⟨found, hfound, hicon⟩ := hrecorded
    obtain ⟨found', hfound', hicon'⟩ := hrecorded'
    obtain ⟨icon, h₁⟩ := h'.within.application hfound
    cases hfound'.symm.trans h₁
    rw [h₁, hfound]
    exact congrArg (fun icon => some { found with icon }) (hicon'.trans hicon.symm)
  · exact h'.otherApplications name hmem

theorem type?_of_registered (h : Registered r r' calls) (h' : Registered r' r'' calls)
    (owner name : Bytes) : r''.type? owner name = r'.type? owner name := by
  by_cases hmem : .type owner name ∈ calls.map Call.entry
  · obtain ⟨call, hlast, hentry⟩ := Call.exists_lastIn hmem
    have hrecorded := h.recorded call hlast
    have hrecorded' := h'.recorded call hlast
    cases call <;> cases hentry
    obtain ⟨found, hfound, hdeclared⟩ := hrecorded
    obtain ⟨found', hfound', hdeclared'⟩ := hrecorded'
    obtain ⟨displayName, enabled, icon, h₁⟩ := h'.within.type hfound
    cases hfound'.symm.trans h₁
    obtain ⟨rfl, rfl, rfl⟩ := hdeclared'
    rw [h₁, hfound, ← hdeclared.displayName, ← hdeclared.enabled, ← hdeclared.icon]
  · exact h'.otherTypes owner name hmem

/-- Calls that have been performed are nothing new. -/
theorem performAll_again (hr : Orderly r') (h : performAll calls r = .ok () r') :
    performAll calls r' = .ok () r' := by
  obtain ⟨r'', h'⟩ := performAll_of_owned (owned_of_performAll h)
  have hfirst := registered_of_performAll h
  have hagain := registered_of_performAll h'
  have hsteady : Steady r' r'' := steady_of_performAll
    (fun call hcall => (hfirst.has_iff call.entry).2 (.inr (List.mem_map_of_mem hcall))) h'
  have happlications : r''.applications = r'.applications :=
    (Assoc.eq_of_lookup hsteady.applicationKeys.symm hr.applicationKeys fun name =>
      (application?_of_registered hfirst hagain name).symm).symm
  have htypes : r''.types = r'.types :=
    (Assoc.eq_of_lookup hsteady.typeKeys.symm hr.typeKeys fun key =>
      (type?_of_registered hfirst hagain key.1 key.2).symm).symm
  have heq : r'' = r' := by
    obtain ⟨applications, types, nextId⟩ := r''
    cases happlications
    cases htypes
    cases hsteady.nextId
    rfl
  exact heq ▸ h'

end Gntp.Registry
