import Mathlib.Data.Finset.Card
import Gntp.Proofs.Attaching

/-!
# The history of a collection of resources

References and arrivals come one after the other, in any order and with any identifiers, and an
arrival that is refused is passed over (`Attachments.performEach`). What has come under an
identifier is what came first (`find?_performEach`), what was referred to or has come is mentioned
(`mentions_performEach`), and each mentioned identifier is either pending or stands for a listed
resource (`pendingCount_add_length_attached`), so that the pending ones are counted exactly
(`performEach_recounts`).
-/

namespace Gntp.Attachments

open Gntp.Action

/-- A reference to a resource, or the arrival of one. -/
inductive Call where
  | refer (identifier : Bytes)
  | attach (resource : Resource)
  deriving DecidableEq

/-- The identifier that a call is about. -/
def Call.identifier : Call → Bytes
  | refer identifier => identifier
  | attach resource => resource.identifier

/-- The identifier that a call refers to, if it is a reference. -/
def Call.referred? : Call → Option Bytes
  | refer identifier => some identifier
  | attach _ => none

/-- The resource that a call brings, if it brings one. -/
def Call.resource? : Call → Option Resource
  | refer _ => none
  | attach resource => some resource

/-- Performs a call. -/
def perform : Call → Action Attachments Unit
  | .refer identifier => modify fun a => a.refer identifier
  | .attach resource => do
    let a ← check ((← get).attach resource)
    set a

/-- Performs calls one after the other. One that fails is passed over. -/
def performEach (a : Attachments) (calls : List Call) : Attachments :=
  calls.foldl (fun a call => (perform call).final a) a

/-- The identifiers that calls refer to. -/
def referred (calls : List Call) : List Bytes := calls.filterMap Call.referred?

/-- The resources that calls bring, the first one first. -/
def brought (calls : List Call) : List Resource := calls.filterMap Call.resource?

/-- The identifiers of the resources that calls bring. -/
def arrived (calls : List Call) : List Bytes := (brought calls).map (·.identifier)

/-- The first resource with this identifier that calls bring. -/
def first? (calls : List Call) (identifier : Bytes) : Option Resource :=
  (brought calls).find? fun resource => resource.identifier = identifier

variable {a a' : Attachments} {calls : List Call} {identifier other : Bytes}
  {resource : Resource}

/-! ## One call -/

theorem mentions_insert_iff (entry : Option Resource) :
    mentions ⟨insert identifier entry a.entries⟩ other = true ↔
      other = identifier ∨ a.mentions other = true := by
  constructor
  · intro h
    by_cases hne : other = identifier
    · exact .inl hne
    · rw [mentions, lookup_insert_of_ne hne] at h
      exact .inr h
  · intro h
    exact mentions_insert (h.imp_left Eq.symm) entry

theorem mentions_refer_iff : (a.refer identifier).mentions other = true ↔
    other = identifier ∨ a.mentions other = true := by
  constructor
  · intro h
    unfold refer at h
    split at h
    · exact .inr h
    · exact (mentions_insert_iff none).1 h
  · intro h
    exact mentions_refer (h.imp_left Eq.symm)

/-- A reference is no arrival, whether the resource has come or not. -/
theorem find?_refer (a : Attachments) (identifier other : Bytes) :
    (a.refer identifier).find? other = a.find? other := by
  unfold refer
  split
  · rfl
  · next hnew =>
    by_cases hne : other = identifier
    · subst hne
      rw [mentions, Bool.not_eq_true, Option.isSome_eq_false_iff, Option.isNone_iff_eq_none] at hnew
      rw [find?, find?, lookup_insert_self, hnew]
      rfl
    · rw [find?, find?, lookup_insert_of_ne hne]

/-- What has come is mentioned. -/
theorem mentions_of_find? (h : (a.find? identifier).isSome) : a.mentions identifier = true := by
  cases hentry : a.entries.lookup identifier with
  | none =>
    rw [find?, hentry] at h
    cases h
  | some entry =>
    rw [mentions, hentry]
    rfl

theorem find?_insert_some (a : Attachments) (resource : Resource) (other : Bytes) :
    find? ⟨insert resource.identifier (some resource) a.entries⟩ other =
      if resource.identifier = other then some resource else a.find? other := by
  by_cases heq : resource.identifier = other
  · subst heq
    rw [if_pos rfl, find?, lookup_insert_self]
    rfl
  · rw [if_neg heq, find?, find?, lookup_insert_of_ne (Ne.symm heq)]

theorem perform_attach_of_new (h : a.find? resource.identifier = none) :
    perform (.attach resource) a =
      .ok () ⟨insert resource.identifier (some resource) a.entries⟩ := by
  have hattach := attach_eq_ok.2 ⟨h, rfl⟩
  exact (bind_of_ok (x := get) rfl).trans (bind_of_ok (check_eq_ok.2 ⟨hattach, rfl⟩))

/-- What has come does not come again, and nothing changes. -/
theorem perform_attach_of_found (h : (a.find? resource.identifier).isSome) :
    perform (.attach resource) a =
      .error (.rejected (.duplicateResource resource.identifier)) a := by
  have hattach : a.attach resource = .error (.duplicateResource resource.identifier) := by
    rw [attach, if_pos h]
  have hcheck : check (a.attach resource) a =
      .error (.rejected (.duplicateResource resource.identifier)) a :=
    check_eq_error.2 ⟨_, hattach, rfl, rfl⟩
  exact (bind_of_ok (x := get) rfl).trans (bind_of_error hcheck)

/-! ## One call more -/

theorem performEach_append_singleton (a : Attachments) (calls : List Call) (call : Call) :
    performEach a (calls ++ [call]) = (perform call).final (performEach a calls) := by
  simp only [performEach, List.foldl_append, List.foldl_cons, List.foldl_nil]

/-- Histories grow by a reference, by an arrival that is the first with its identifier, or by one
that is refused. -/
theorem history_induction {motive : List Call → Prop} (nil : motive [])
    (refer : ∀ calls identifier, motive calls →
      performEach {} (calls ++ [.refer identifier]) = (performEach {} calls).refer identifier →
      motive (calls ++ [.refer identifier]))
    (attach : ∀ calls resource, motive calls →
      (performEach {} calls).find? resource.identifier = none →
      performEach {} (calls ++ [.attach resource]) =
        ⟨insert resource.identifier (some resource) (performEach {} calls).entries⟩ →
      motive (calls ++ [.attach resource]))
    (again : ∀ calls resource, motive calls →
      ((performEach {} calls).find? resource.identifier).isSome →
      performEach {} (calls ++ [.attach resource]) = performEach {} calls →
      motive (calls ++ [.attach resource])) :
    ∀ calls, motive calls := by
  intro calls
  induction calls using List.reverseRecOn with
  | nil => exact nil
  | append_singleton calls call ih =>
    have hlast := performEach_append_singleton {} calls call
    cases call with
    | refer identifier => exact refer calls identifier ih hlast
    | attach resource =>
      cases hfound : (performEach {} calls).find? resource.identifier with
      | none =>
        rw [final_of_ok (perform_attach_of_new hfound)] at hlast
        exact attach calls resource ih hfound hlast
      | some earlier =>
        have hsome : ((performEach {} calls).find? resource.identifier).isSome := by
          rw [hfound]
          rfl
        rw [final_of_error (perform_attach_of_found hsome)] at hlast
        exact again calls resource ih hsome hlast

theorem first?_refer (calls : List Call) (identifier other : Bytes) :
    first? (calls ++ [.refer identifier]) other = first? calls other := by
  simp [first?, brought, Call.resource?]

/-- One more is the first only if there was none. -/
theorem first?_attach (calls : List Call) (resource : Resource) (other : Bytes) :
    first? (calls ++ [.attach resource]) other =
      (first? calls other).or (if resource.identifier = other then some resource else none) := by
  have hbrought : brought (calls ++ [.attach resource]) = brought calls ++ [resource] := by
    simp [brought, Call.resource?]
  rw [first?, hbrought, List.find?_append, List.find?_singleton]
  simp only [decide_eq_true_eq]
  rfl

theorem first?_eq_none_iff : first? calls identifier = none ↔ identifier ∉ arrived calls := by
  rw [first?, List.find?_eq_none, arrived, List.mem_map, not_exists]
  simp only [decide_eq_true_eq, not_and]

theorem isSome_first?_iff : (first? calls identifier).isSome = true ↔
    identifier ∈ arrived calls := by
  rw [Option.isSome_iff_ne_none, ne_eq, first?_eq_none_iff, not_not]

/-! ## Histories -/

/-- What is found is what came first. -/
theorem find?_performEach (calls : List Call) (identifier : Bytes) :
    (performEach {} calls).find? identifier = first? calls identifier := by
  induction calls using history_induction with
  | nil => rfl
  | refer calls other ih heq => rw [heq, find?_refer, ih, first?_refer]
  | attach calls resource ih hnew heq =>
    rw [heq, find?_insert_some, first?_attach, ← ih]
    split
    · next hsame =>
      subst hsame
      rw [hnew]
      rfl
    · rw [Option.or_none]
  | again calls resource ih hfound heq =>
    rw [heq, first?_attach, ← ih]
    split
    · next hsame =>
      subst hsame
      rw [Option.or_of_isSome hfound]
    · rw [Option.or_none]

theorem mentions_performEach (calls : List Call) (identifier : Bytes) :
    (performEach {} calls).mentions identifier = true ↔
      identifier ∈ calls.map Call.identifier := by
  induction calls using history_induction with
  | nil => simp [performEach, mentions]
  | refer calls other ih heq =>
    rw [heq, mentions_refer_iff, ih, or_comm, List.map_append, List.mem_append,
      List.map_singleton, List.mem_singleton, Call.identifier]
  | attach calls resource ih _ heq =>
    rw [heq, mentions_insert_iff, List.map_append, List.mem_append, ← ih, or_comm,
      List.map_singleton, List.mem_singleton, Call.identifier]
  | again calls resource ih hfound heq =>
    rw [heq, List.map_append, List.mem_append, ← ih, List.map_singleton, List.mem_singleton,
      or_iff_left_of_imp]
    rintro rfl
    exact mentions_of_find? hfound

/-- References and arrivals that succeed gather what has come. -/
theorem gathered (calls : List Call) : (performEach {} calls).Gathered := by
  induction calls using history_induction with
  | nil => exact .nothing
  | refer calls identifier ih heq =>
    rw [heq]
    exact .refer identifier ih
  | attach calls resource ih hnew heq =>
    rw [heq]
    exact .attach ih (attach_eq_ok.2 ⟨hnew, rfl⟩)
  | again calls resource ih _ heq => rwa [heq]

/-! ## Counting -/

/-- Every entry is pending or has come. -/
theorem pendingCount_add_length_attached (a : Attachments) :
    a.pendingCount + a.attached.length = a.entries.length := by
  have hcome : a.attached.length = a.entries.countP fun entry => ¬ entry.2.isNone := by
    rw [attached, List.length_filterMap_eq_countP]
    refine List.countP_congr fun entry _ => ?_
    cases entry.2 <;> simp
  rw [pendingCount, hcome, ← List.length_eq_countP_add_countP]

theorem mem_referred_or_arrived : identifier ∈ calls.map Call.identifier ↔
    identifier ∈ referred calls ∨ identifier ∈ arrived calls := by
  induction calls with
  | nil => simp [referred, arrived, brought]
  | cons call calls ih =>
    rw [List.map_cons, List.mem_cons, ih]
    cases call with
    | refer other => simp [Call.identifier, referred, arrived, brought, Call.referred?,
        Call.resource?, or_assoc]
    | attach resource => simp [Call.identifier, referred, arrived, brought, Call.referred?,
        Call.resource?, or_left_comm]

namespace Gathered

/-- There are as many entries as identifiers. -/
theorem length_entries (h : a.Gathered)
    (hmentions : ∀ identifier, a.mentions identifier = true ↔
      identifier ∈ calls.map Call.identifier) :
    a.entries.length = (calls.map Call.identifier).toFinset.card := by
  have hkeys : (a.entries.map Prod.fst).toFinset = (calls.map Call.identifier).toFinset := by
    ext identifier
    rw [List.mem_toFinset, List.mem_toFinset, Assoc.mem_keys_iff_lookup]
    exact hmentions identifier
  rw [← hkeys, List.toFinset_card_of_nodup h.ordered.nodup_keys, List.length_map]

/-- There are as many listed resources as identifiers of arrivals. -/
theorem length_attached (h : a.Gathered)
    (hfind : ∀ identifier, a.find? identifier = first? calls identifier) :
    a.attached.length = (arrived calls).toFinset.card := by
  have hnodup : (a.attached.map (·.identifier)).Nodup := by
    refine List.pairwise_map.2 (h.attached_sorted.imp ?_)
    intro former latter hlt heq
    rw [heq] at hlt
    exact List.lt_irrefl _ hlt
  have hsame : (a.attached.map (·.identifier)).toFinset = (arrived calls).toFinset := by
    ext identifier
    rw [List.mem_toFinset, List.mem_toFinset, List.mem_map, ← isSome_first?_iff, ← hfind]
    constructor
    · rintro ⟨resource, hmem, rfl⟩
      rw [h.mem_attached.1 hmem]
      rfl
    · intro hsome
      obtain ⟨resource, hresource⟩ := Option.isSome_iff_exists.1 hsome
      have hlabel : resource.identifier = identifier := by
        rw [hfind, first?] at hresource
        simpa using List.find?_some hresource
      subst hlabel
      exact ⟨resource, h.mem_attached.2 hresource, rfl⟩
  rw [← hsame, List.toFinset_card_of_nodup hnodup, List.length_map]

end Gathered

/-- What there is to say of a collection that a history of references and arrivals has led to. -/
structure Recounts (calls : List Call) (a : Attachments) : Prop where
  find?_eq : ∀ identifier, a.find? identifier = first? calls identifier
  /-- A reference finds and loses nothing, whether it comes before the resource or after it. -/
  find?_refer : ∀ identifier other, (a.refer other).find? identifier = a.find? identifier
  /-- The first resource with an identifier is taken, and is found from then on. -/
  attach_first : ∀ resource, resource.identifier ∉ arrived calls →
    ∃ a', perform (.attach resource) a = .ok () a' ∧
      a'.find? resource.identifier = some resource
  /-- Every later one is refused, and nothing changes. -/
  attach_again : ∀ resource, resource.identifier ∈ arrived calls →
    perform (.attach resource) a =
        .error (.rejected (.duplicateResource resource.identifier)) a ∧
      (Rejection.duplicateResource resource.identifier).code = .invalidRequest
  mentions_iff : ∀ identifier, a.mentions identifier = true ↔
    identifier ∈ referred calls ∨ identifier ∈ arrived calls
  /-- What is mentioned and cannot be found was referred to and has not come. -/
  pending_iff : ∀ identifier, a.mentions identifier = true ∧ a.find? identifier = none ↔
    identifier ∈ referred calls ∧ identifier ∉ arrived calls
  pendingCount_eq :
    a.pendingCount = ((referred calls).toFinset \ (arrived calls).toFinset).card
  hasPending_iff : a.hasPending = true ↔
    ∃ identifier ∈ referred calls, identifier ∉ arrived calls
  mem_attached : ∀ resource, resource ∈ a.attached ↔
    first? calls resource.identifier = some resource
  /-- The order is strict, so that nothing is listed twice. -/
  attached_sorted :
    a.attached.Pairwise fun former latter => former.identifier < latter.identifier
  total : a.pendingCount + a.attached.length = (calls.map Call.identifier).toFinset.card

/-- Whatever was referred to and whatever came, in whatever order. -/
theorem performEach_recounts (calls : List Call) : Recounts calls (performEach {} calls) := by
  have hgathered := gathered calls
  have hfind := find?_performEach calls
  have hmentions := mentions_performEach calls
  have htotal : (performEach {} calls).pendingCount + (performEach {} calls).attached.length =
      (calls.map Call.identifier).toFinset.card :=
    (pendingCount_add_length_attached _).trans (hgathered.length_entries hmentions)
  have hseen : (calls.map Call.identifier).toFinset =
      (referred calls).toFinset ∪ (arrived calls).toFinset := by
    ext identifier
    rw [Finset.mem_union, List.mem_toFinset, List.mem_toFinset, List.mem_toFinset]
    exact mem_referred_or_arrived
  have hcount : (performEach {} calls).pendingCount =
      ((referred calls).toFinset \ (arrived calls).toFinset).card := by
    rw [hgathered.length_attached hfind, hseen, ← Finset.card_sdiff_add_card] at htotal
    exact Nat.add_right_cancel htotal
  refine {
    find?_eq := hfind
    find?_refer := fun identifier other => find?_refer _ other identifier
    attach_first := ?_
    attach_again := ?_
    mentions_iff := fun identifier => (hmentions identifier).trans mem_referred_or_arrived
    pending_iff := ?_
    pendingCount_eq := hcount
    hasPending_iff := ?_
    mem_attached := ?_
    attached_sorted := hgathered.attached_sorted
    total := htotal }
  · intro resource hnew
    have hnone := (hfind resource.identifier).trans (first?_eq_none_iff.2 hnew)
    refine ⟨_, perform_attach_of_new hnone, ?_⟩
    rw [find?_insert_some, if_pos rfl]
  · intro resource hold
    refine ⟨perform_attach_of_found ?_, rfl⟩
    rw [hfind]
    exact isSome_first?_iff.2 hold
  · intro identifier
    rw [hmentions, mem_referred_or_arrived, hfind, first?_eq_none_iff]
    constructor
    · rintro ⟨hmem, hnot⟩
      exact ⟨hmem.resolve_right hnot, hnot⟩
    · rintro ⟨hmem, hnot⟩
      exact ⟨.inl hmem, hnot⟩
  · rw [hasPending, decide_eq_true_eq, hcount, Finset.card_pos]
    constructor
    · rintro ⟨identifier, hmem⟩
      rw [Finset.mem_sdiff, List.mem_toFinset, List.mem_toFinset] at hmem
      exact ⟨identifier, hmem⟩
    · rintro ⟨identifier, hmem⟩
      rw [← List.mem_toFinset, ← List.mem_toFinset, ← Finset.mem_sdiff] at hmem
      exact ⟨identifier, hmem⟩
  · intro resource
    rw [hgathered.mem_attached, hfind]

/-- A resource that nothing refers to comes first, and comes again with another length. -/
example : ((performEach {} [.attach ⟨[1], 5, false, [], {}⟩, .refer [2], .refer [1],
    .attach ⟨[1], 6, false, [], {}⟩]).find? [1]).map (·.length) = some 5 := by decide

end Gntp.Attachments
