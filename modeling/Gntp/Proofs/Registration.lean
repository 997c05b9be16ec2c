import Gntp.Answer

/-!
# The registry under registrations

`Registry.Reachable` are the registries that registrations lead to; in them every application
stands under its own name (`Reachable.name_of_application?`). `Registry.Enters` says what
registering one declared type makes of a registry, and `Registry.EntersAll` what registering a list
of them makes of it: a registered application can enter any number of types, and none is refused
(`registerTypes_of_registered`).
-/

namespace Gntp

/-- The declaration that stands last among those of its name. -/
def TypeDeclaration.LastIn (types : List TypeDeclaration) (declared : TypeDeclaration) : Prop :=
  ∃ before after, types = before ++ declared :: after ∧
    ∀ later ∈ after, later.name ≠ declared.name

/-- A type is registered with everything that its declaration says. -/
structure NotificationType.AsDeclared (type : NotificationType) (declared : TypeDeclaration) :
    Prop where
  displayName : type.displayName = TypeDeclaration.nonEmptyOr declared.displayName declared.name
  enabled : type.enabled = declared.enabled
  icon : type.icon = declared.icon

namespace Registry

/-- The registries that registrations lead to. -/
inductive Reachable : Registry → Prop
  | empty : Reachable {}
  | application {r : Registry} {name icon : Bytes} : Reachable r →
    Reachable (r.registerApplication name icon).2
  | type {r r' : Registry} {application name displayName icon : Bytes} {enabled : Bool}
    {type : NotificationType} : Reachable r →
    r.registerType application name displayName enabled icon = .ok (type, r') → Reachable r'

variable {r r' r'' : Registry} {name other icon : Bytes}

/-! ## Applications -/

theorem applications_registerApplication :
    (r.registerApplication name icon).2.applications =
      Assoc.set name (r.registerApplication name icon).1 r.applications := by
  unfold registerApplication
  split <;> rfl

@[simp] theorem application?_registerApplication_self :
    (r.registerApplication name icon).2.application? name =
      some (r.registerApplication name icon).1 := by
  rw [application?, applications_registerApplication, Assoc.lookup_set_self]

theorem application?_registerApplication_of_ne (h : other ≠ name) :
    (r.registerApplication name icon).2.application? other = r.application? other := by
  rw [application?, applications_registerApplication, Assoc.lookup_set_of_ne h, application?]

theorem applications_registerType {application displayName : Bytes} {enabled : Bool}
    {type : NotificationType}
    (h : r.registerType application name displayName enabled icon = .ok (type, r')) :
    r'.applications = r.applications := by
  unfold registerType at h
  split at h
  · cases h
  · dsimp only at h
    split at h <;> cases h <;> rfl

/-- An application that is registered under its own name keeps it. -/
theorem name_registerApplication
    (h : ∀ application, r.application? name = some application → application.name = name) :
    (r.registerApplication name icon).1.name = name := by
  unfold registerApplication
  split
  · next application ha => exact h application ha
  · rfl

/-- Every application stands under its own name. -/
theorem Reachable.name_of_application? (h : Reachable r) {application : Application}
    (ha : r.application? name = some application) : application.name = name := by
  induction h generalizing name application with
  | empty => cases ha
  | @application r registered icon _ ih =>
    by_cases hn : name = registered
    · subst hn
      rw [application?_registerApplication_self] at ha
      cases ha
      exact name_registerApplication fun _ => ih
    · rw [application?_registerApplication_of_ne hn] at ha
      exact ih ha
  | type _ ht ih =>
    rw [application?, applications_registerType ht] at ha
    exact ih ha

/-! ## Types -/

/-- What registering a declared type makes of a registry. -/
structure Enters (r r' : Registry) (application : Bytes) (declared : TypeDeclaration) : Prop where
  reachable : Reachable r → Reachable r'
  applications : r'.applications = r.applications
  entered : ∃ type, r'.type? application declared.name = some type ∧ type.AsDeclared declared
  others : ∀ owner name, ¬ (owner = application ∧ name = declared.name) →
    r'.type? owner name = r.type? owner name

/-- A registered application is not refused a type. -/
theorem registerType_of_registered {application : Bytes} (h : (r.application? application).isSome)
    (name displayName : Bytes) (enabled : Bool) (icon : Bytes) :
    ∃ type r', r.registerType application name displayName enabled icon = .ok (type, r') := by
  unfold registerType
  split
  · next hn =>
    rw [Option.isNone_iff_eq_none] at hn
    rw [hn] at h
    cases h
  · dsimp only
    split <;> exact ⟨_, _, rfl⟩

theorem enters_of_registerType {application : Bytes} {declared : TypeDeclaration}
    {type : NotificationType}
    (h : r.registerType application declared.name declared.displayName declared.enabled
      declared.icon = .ok (type, r')) : Enters r r' application declared := by
  have hreachable : Reachable r → Reachable r' := fun hr => hr.type h
  unfold registerType at h
  split at h
  · cases h
  · dsimp only at h
    split at h <;> cases h
    all_goals
      refine ⟨hreachable, rfl, ⟨_, Assoc.lookup_set_self .., ⟨rfl, rfl, rfl⟩⟩, ?_⟩
      intro owner name hne
      exact Assoc.lookup_set_of_ne (fun heq => hne (Prod.mk.inj heq)) ..

/-- What registering declared types one after the other makes of a registry. -/
structure EntersAll (r r' : Registry) (application : Bytes) (types : List TypeDeclaration) :
    Prop where
  reachable : Reachable r → Reachable r'
  applications : r'.applications = r.applications
  entered : ∀ declared, TypeDeclaration.LastIn types declared →
    ∃ type, r'.type? application declared.name = some type ∧ type.AsDeclared declared
  others : ∀ owner name, ¬ (owner = application ∧ name ∈ types.map (·.name)) →
    r'.type? owner name = r.type? owner name

theorem EntersAll.nil {application : Bytes} : EntersAll r r application [] where
  reachable := id
  applications := rfl
  entered := by
    rintro declared ⟨before, after, h, _⟩
    cases before <;> cases h
  others _ _ _ := rfl

theorem EntersAll.cons {application : Bytes} {first : TypeDeclaration}
    {types : List TypeDeclaration} (h : Enters r r' application first)
    (hs : EntersAll r' r'' application types) : EntersAll r r'' application (first :: types) where
  reachable := hs.reachable ∘ h.reachable
  applications := hs.applications.trans h.applications
  entered := by
    rintro declared ⟨before, after, heq, hlast⟩
    cases before with
    | nil =>
      -- No later declaration has this name, so the rest leaves the type as it is.
      cases heq
      obtain ⟨type, ht, hd⟩ := h.entered
      refine ⟨type, ?_, hd⟩
      rw [hs.others _ _ fun hin => ?_, ht]
      obtain ⟨later, hmem, hname⟩ := List.mem_map.1 hin.2
      exact hlast later hmem hname
    | cons _ before =>
      cases heq
      exact hs.entered declared ⟨before, after, rfl, hlast⟩
  others owner name hne := by
    rw [hs.others owner name fun hin => hne ⟨hin.1, List.mem_cons_of_mem _ hin.2⟩]
    refine h.others owner name fun hin => hne ⟨hin.1, ?_⟩
    rw [hin.2]
    exact List.mem_cons_self

end Registry

/-- A registered application can enter any number of types, and nothing is displayed for it. -/
theorem Effects.registerTypes_of_registered {application : Bytes} (types : List TypeDeclaration)
    {e : Effects} (h : (e.registry.application? application).isSome) :
    ∃ registry, registerTypes application types e = .ok () { e with registry } ∧
      Registry.EntersAll e.registry registry application types := by
  induction types generalizing e with
  | nil => exact ⟨e.registry, rfl, .nil⟩
  | cons first types ih =>
    obtain ⟨type, registry₁, h₁⟩ :=
      Registry.registerType_of_registered h first.name first.displayName first.enabled first.icon
    have hfirst := Registry.enters_of_registerType h₁
    have h₂ : (registry₁.application? application).isSome := by
      rw [Registry.application?, hfirst.applications]
      exact h
    obtain ⟨registry₂, hrest, hall⟩ := ih (e := { e with registry := registry₁ }) h₂
    refine ⟨registry₂, Action.bind_eq_ok.2 ⟨(), { e with registry := registry₁ }, ?_, hrest⟩,
      .cons hfirst hall⟩
    simp only [registerType, h₁]

end Gntp
