import Gntp.Headers

/-! Binary payloads sent with a request, and the collection of those that one request refers to
or brings along. -/

namespace Gntp

/-- A binary payload that was sent with a request. -/
structure Resource where
  identifier : Bytes
  length : Nat
  /-- Whether the store held the payload already. -/
  cached : Bool := false
  /-- Where the store keeps the payload; empty if nowhere. -/
  location : Bytes := []
  headers : Headers := {}
  deriving DecidableEq

/-- The resources of one request in the byte order of their identifiers. One that was referred to
but has not come is pending. -/
structure Attachments where
  entries : List (Bytes × Option Resource) := []
  deriving DecidableEq

namespace Attachments

/-- Puts an entry at its place, or in place of the one with the same identifier. -/
def insert (identifier : Bytes) (entry : Option Resource) :
    List (Bytes × Option Resource) → List (Bytes × Option Resource)
  | [] => [(identifier, entry)]
  | (id, e) :: rest =>
    if identifier < id then (identifier, entry) :: (id, e) :: rest
    else if identifier = id then (identifier, entry) :: rest
    else (id, e) :: insert identifier entry rest

/-- Whether the identifier was referred to or has come. -/
def mentions (a : Attachments) (identifier : Bytes) : Bool := (a.entries.lookup identifier).isSome

/-- The resource with this identifier, if it has come. -/
def find? (a : Attachments) (identifier : Bytes) : Option Resource :=
  (a.entries.lookup identifier).join

/-- Notes that the request refers to a resource. -/
def refer (a : Attachments) (identifier : Bytes) : Attachments :=
  if a.mentions identifier then a else ⟨insert identifier none a.entries⟩

/-- Adds a resource that has come, referred to or not. It must not come twice. -/
def attach (a : Attachments) (resource : Resource) : Except Rejection Attachments :=
  if (a.find? resource.identifier).isSome then .error (.duplicateResource resource.identifier)
  else .ok ⟨insert resource.identifier (some resource) a.entries⟩

/-- How many resources were referred to and have not come. -/
def pendingCount (a : Attachments) : Nat := a.entries.countP fun entry => entry.2.isNone

def hasPending (a : Attachments) : Bool := 0 < a.pendingCount

def isEmpty (a : Attachments) : Bool := a.entries.isEmpty

def attached (a : Attachments) : List Resource := a.entries.filterMap (·.2)

section

variable {a a' : Attachments} {identifier other : Bytes}

@[simp] theorem lookup_insert_self (entry : Option Resource)
    (entries : List (Bytes × Option Resource)) :
    (insert identifier entry entries).lookup identifier = some entry := by
  fun_induction insert identifier entry entries with
  | case1 => exact List.lookup_cons_self
  | case2 => exact List.lookup_cons_self
  | case3 => exact List.lookup_cons_self
  | case4 id e rest _ hne ih => rw [List.lookup_cons, beq_false_of_ne hne, ih]

theorem lookup_insert_of_ne (h : other ≠ identifier) (entry : Option Resource)
    (entries : List (Bytes × Option Resource)) :
    (insert identifier entry entries).lookup other = entries.lookup other := by
  fun_induction insert identifier entry entries with
  | case1 => rw [List.lookup_cons, beq_false_of_ne h]
  | case2 => rw [List.lookup_cons, beq_false_of_ne h]
  | case3 => rw [List.lookup_cons, List.lookup_cons, beq_false_of_ne h]
  | case4 id e rest _ _ ih => rw [List.lookup_cons, List.lookup_cons, ih]

/-- An entry that is put in is mentioned, and nothing that was mentioned is lost. -/
theorem mentions_insert (h : identifier = other ∨ a.mentions other) (entry : Option Resource) :
    Attachments.mentions ⟨insert identifier entry a.entries⟩ other := by
  unfold mentions
  by_cases hother : other = identifier
  · subst hother
    rw [lookup_insert_self]
    rfl
  · rw [lookup_insert_of_ne hother]
    exact h.resolve_left (Ne.symm hother)

theorem mentions_refer (h : identifier = other ∨ a.mentions other) :
    (a.refer identifier).mentions other := by
  unfold refer
  split
  · next hin =>
    rcases h with rfl | h
    · exact hin
    · exact h
  · exact mentions_insert h none

theorem mentions_attach {resource : Resource} (ha : a.attach resource = .ok a')
    (h : a.mentions other) : a'.mentions other := by
  unfold attach at ha
  split at ha
  · cases ha
  · cases ha
    exact mentions_insert (.inr h) (some resource)

/-- When nothing is pending, everything that is mentioned has come. -/
theorem find?_of_mentions (hp : a.hasPending = false) (h : a.mentions identifier) :
    ∃ resource, a.find? identifier = some resource := by
  have hnone : ∀ entry ∈ a.entries, ¬ entry.2.isNone := by
    unfold hasPending at hp
    rw [decide_eq_false_iff_not, pendingCount, List.countP_pos_iff] at hp
    exact fun entry hmem hn => hp ⟨entry, hmem, hn⟩
  obtain ⟨entry, hentry⟩ := Option.isSome_iff_exists.1 h
  cases entry with
  | none => exact absurd rfl (hnone _ (Assoc.mem_of_lookup hentry))
  | some resource =>
    refine ⟨resource, ?_⟩
    rw [find?, hentry]
    rfl

end

end Attachments

end Gntp
