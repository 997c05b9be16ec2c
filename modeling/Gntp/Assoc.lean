/-! Lists of keys with values. A key that is set again keeps its place, so the keys stand in the
order in which they first came. Look-up is `List.lookup`. -/

namespace Gntp.Assoc

variable {α β : Type} [DecidableEq α]

/-- Gives a key a value, in place if the key is there. -/
def set (key : α) (value : β) : List (α × β) → List (α × β)
  | [] => [(key, value)]
  | (k, v) :: rest => if k = key then (key, value) :: rest else (k, v) :: set key value rest

/-- Takes a key out. -/
def erase (key : α) (entries : List (α × β)) : List (α × β) :=
  entries.filter fun entry => entry.1 ≠ key

section

variable [BEq α] [LawfulBEq α]

@[simp] theorem lookup_set_self (key : α) (value : β) (entries : List (α × β)) :
    (set key value entries).lookup key = some value := by
  fun_induction set key value entries with
  | case1 => exact List.lookup_cons_self
  | case2 => exact List.lookup_cons_self
  | case3 k v rest h ih => rw [List.lookup_cons, beq_false_of_ne (Ne.symm h), ih]

theorem lookup_set_of_ne {key other : α} (h : other ≠ key) (value : β) (entries : List (α × β)) :
    (set key value entries).lookup other = entries.lookup other := by
  fun_induction set key value entries with
  | case1 => rw [List.lookup_cons, beq_false_of_ne h]
  | case2 v rest => rw [List.lookup_cons, List.lookup_cons, beq_false_of_ne h]
  | case3 k v rest hk ih => rw [List.lookup_cons, List.lookup_cons, ih]

@[simp] theorem lookup_erase_self (key : α) (entries : List (α × β)) :
    (erase key entries).lookup key = none := by
  rw [erase, List.lookup_eq_none_iff]
  intro entry hentry
  have hne : entry.1 ≠ key := of_decide_eq_true (List.mem_filter.1 hentry).2
  simp [hne.symm]

theorem lookup_erase_of_ne {key other : α} (h : other ≠ key) (entries : List (α × β)) :
    (erase key entries).lookup other = entries.lookup other := by
  induction entries with
  | nil => rfl
  | cons entry entries ih =>
    obtain ⟨k, v⟩ := entry
    by_cases hk : k = key
    · have hdrop : erase key ((k, v) :: entries) = erase key entries := by simp [erase, hk]
      rw [hdrop, ih, List.lookup_cons, beq_false_of_ne (hk ▸ h)]
    · have hkeep : erase key ((k, v) :: entries) = (k, v) :: erase key entries := by
        simp [erase, hk]
      rw [hkeep, List.lookup_cons, List.lookup_cons, ih]

omit [DecidableEq α] in
theorem lookup_filter_keys (p : α → Bool) (entries : List (α × β)) (key : α) :
    (entries.filter fun entry => p entry.1).lookup key =
      if p key then entries.lookup key else none := by
  induction entries with
  | nil => simp
  | cons entry entries ih =>
    obtain ⟨k, v⟩ := entry
    by_cases hk : key = k
    · subst hk
      cases hp : p key <;> simp [hp, ih]
    · cases hp : p k <;> simp [hp, List.lookup_cons, beq_false_of_ne hk, ih]

omit [DecidableEq α] in
theorem lookup_map_values {γ : Type} (f : β → γ) (entries : List (α × β)) (key : α) :
    (entries.map fun entry => (entry.1, f entry.2)).lookup key = (entries.lookup key).map f := by
  induction entries with
  | nil => rfl
  | cons entry entries ih =>
    obtain ⟨k, v⟩ := entry
    by_cases hk : key = k
    · simp [hk]
    · simp [List.lookup_cons, beq_false_of_ne hk, ih]

omit [DecidableEq α] in
/-- Keys may be changed as long as no two of them come to be the same. -/
theorem lookup_map_keys {f : α → α} {source key : α} {entries : List (α × β)}
    (h : ∀ entry ∈ entries, f entry.1 = key ↔ entry.1 = source) :
    (entries.map fun entry => (f entry.1, entry.2)).lookup key = entries.lookup source := by
  induction entries with
  | nil => rfl
  | cons entry entries ih =>
    obtain ⟨hentry, hentries⟩ := List.forall_mem_cons.1 h
    obtain ⟨k, v⟩ := entry
    by_cases hk : k = source
    · subst hk
      have hf : f k = key := hentry.2 rfl
      simp [hf]
    · have hf : f k ≠ key := fun heq => hk (hentry.1 heq)
      simp [List.lookup_cons, beq_false_of_ne (Ne.symm hk), beq_false_of_ne hf.symm, ih hentries]

omit [DecidableEq α] in
theorem mem_of_lookup {key : α} {value : β} {entries : List (α × β)}
    (h : entries.lookup key = some value) : (key, value) ∈ entries := by
  obtain ⟨before, after, rfl, _⟩ := List.lookup_eq_some_iff.1 h
  exact List.mem_append_right before List.mem_cons_self

omit [DecidableEq α] in
/-- Under keys that do not come twice, everything is found that is there. -/
theorem lookup_of_mem {key : α} {value : β} {entries : List (α × β)}
    (h : (entries.map Prod.fst).Nodup) (hmem : (key, value) ∈ entries) :
    entries.lookup key = some value := by
  induction entries with
  | nil => cases hmem
  | cons entry entries ih =>
    obtain ⟨k, v⟩ := entry
    obtain ⟨hnew, hrest⟩ := List.nodup_cons.1 h
    rcases List.mem_cons.1 hmem with heq | hmem
    · cases heq
      exact List.lookup_cons_self
    · have hne : key ≠ k := fun heq => hnew (List.mem_map.2 ⟨_, hmem, heq⟩)
      rw [List.lookup_cons, beq_false_of_ne hne, ih hrest hmem]

end

theorem mem_of_mem_set {key : α} {value : β} {entry : α × β} {entries : List (α × β)}
    (h : entry ∈ set key value entries) : entry = (key, value) ∨ entry ∈ entries := by
  fun_induction set key value entries with
  | case1 => exact .inl (List.mem_singleton.1 h)
  | case2 v rest =>
    rcases List.mem_cons.1 h with rfl | h
    · exact .inl rfl
    · exact .inr (List.mem_cons_of_mem _ h)
  | case3 k v rest hk ih =>
    rcases List.mem_cons.1 h with rfl | h
    · exact .inr List.mem_cons_self
    · exact (ih h).imp_right (List.mem_cons_of_mem _)

theorem nodup_keys_erase {entries : List (α × β)} (h : (entries.map Prod.fst).Nodup) (key : α) :
    ((erase key entries).map Prod.fst).Nodup := h.sublist (List.filter_sublist.map Prod.fst)

/-- A key that is set does not come twice. -/
theorem nodup_keys_set {entries : List (α × β)} (h : (entries.map Prod.fst).Nodup) (key : α)
    (value : β) : ((set key value entries).map Prod.fst).Nodup := by
  fun_induction set key value entries with
  | case1 => exact List.nodup_cons.2 ⟨List.not_mem_nil, List.nodup_nil⟩
  | case2 v rest => exact h
  | case3 k v rest hk ih =>
    obtain ⟨hnew, hrest⟩ := List.nodup_cons.1 h
    refine List.nodup_cons.2 ⟨?_, ih hrest⟩
    intro hmem
    obtain ⟨entry, hentry, heq⟩ := List.mem_map.1 hmem
    rcases mem_of_mem_set hentry with rfl | hentry
    · exact hk heq.symm
    · exact hnew (heq ▸ List.mem_map_of_mem hentry)

theorem keys_set_of_mem {key : α} {value : β} {entries : List (α × β)}
    (h : key ∈ entries.map Prod.fst) :
    (set key value entries).map Prod.fst = entries.map Prod.fst := by
  fun_induction set key value entries with
  | case1 => cases h
  | case2 => rfl
  | case3 k v rest hk ih =>
    have hrest : key ∈ rest.map Prod.fst := (List.mem_cons.1 h).resolve_left (Ne.symm hk)
    rw [List.map_cons, List.map_cons, ih hrest]

/-- A key that is new comes last. -/
theorem set_of_notMem {key : α} {value : β} {entries : List (α × β)}
    (h : key ∉ entries.map Prod.fst) : set key value entries = entries ++ [(key, value)] := by
  fun_induction set key value entries with
  | case1 => rfl
  | case2 v rest => exact absurd List.mem_cons_self h
  | case3 k v rest hk ih =>
    rw [ih fun hmem => h (List.mem_cons_of_mem _ hmem), List.cons_append]

/-- To set a key changes the number of other keys by nothing. -/
theorem countP_keys_set {p : α → Bool} {key : α} (h : p key = false) (value : β)
    (entries : List (α × β)) :
    (set key value entries).countP (fun entry => p entry.1) =
      entries.countP fun entry => p entry.1 := by
  fun_induction set key value entries with
  | case1 => simp [h]
  | case2 v rest => simp [h]
  | case3 k v rest hk ih => simp [List.countP_cons, ih]

section

variable [BEq α] [LawfulBEq α] {key : α} {value old : β} {entries entries' : List (α × β)}

omit [DecidableEq α] in
theorem mem_keys_iff_lookup : key ∈ entries.map Prod.fst ↔ (entries.lookup key).isSome := by
  rw [Option.isSome_iff_ne_none, ne_eq, List.lookup_eq_none_iff]
  simp

/-- What is the same of the old value and the new one stays as it was. -/
theorem map_set_of_lookup {γ : Type} {f : β → γ} (h : entries.lookup key = some old)
    (hf : f value = f old) :
    (set key value entries).map (fun entry => f entry.2) =
      entries.map fun entry => f entry.2 := by
  fun_induction set key value entries with
  | case1 => cases h
  | case2 v rest =>
    rw [List.lookup_cons_self] at h
    cases h
    rw [List.map_cons, List.map_cons, hf]
  | case3 k v rest hk ih =>
    rw [List.lookup_cons, beq_false_of_ne (Ne.symm hk)] at h
    rw [List.map_cons, List.map_cons, ih h]

omit [DecidableEq α] in
/-- The same values under the same keys in the same order. -/
theorem eq_of_lookup (hkeys : entries.map Prod.fst = entries'.map Prod.fst)
    (hnodup : (entries.map Prod.fst).Nodup)
    (h : ∀ key, entries.lookup key = entries'.lookup key) : entries = entries' := by
  induction entries generalizing entries' with
  | nil => exact (List.map_eq_nil_iff.1 hkeys.symm).symm
  | cons entry entries ih =>
    obtain ⟨k, v⟩ := entry
    cases entries' with
    | nil => cases hkeys
    | cons entry' entries' =>
      obtain ⟨k', v'⟩ := entry'
      obtain ⟨rfl, hrest⟩ := List.cons.inj hkeys
      obtain ⟨hnew, hnodup⟩ := List.nodup_cons.1 hnodup
      have hvalue : v = v' := by simpa using h k
      subst hvalue
      refine congrArg (List.cons (k, v)) (ih hrest hnodup fun key => ?_)
      by_cases hk : key = k
      · -- The first key does not come twice.
        subst hk
        have hnone {l : List (α × β)} (hl : key ∉ l.map Prod.fst) : l.lookup key = none := by
          rwa [mem_keys_iff_lookup, Option.not_isSome_iff_eq_none] at hl
        rw [hnone hnew, hnone (hrest ▸ hnew)]
      · simpa [List.lookup_cons, beq_false_of_ne hk] using h key

end

end Gntp.Assoc
