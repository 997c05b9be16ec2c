import Mathlib.Algebra.BigOperators.Group.List.Basic
import Mathlib.Algebra.GroupWithZero.Nat
import Mathlib.Data.List.Dedup
import Gntp.Proofs.Traffic

/-!
# What gives way in a store in memory

A store in memory keeps the same thing in three ways: its payloads by identifier, the order in which
they came, and their length in all. They agree (`Memory.Consistent`) whatever moves are made at the
store, and a payload that is committed makes no more of the older ones give way than it has to
(`Traffic.memory_of_run`).

The length in all is a machine word. It does not wrap around as long as the limit is below `2 ^ 63`:
then twice the limit still fits.
-/

namespace Gntp.Store

open Gntp.Action

namespace Memory

variable {m m' : Memory} {identifier other payload : Bytes} {need : Nat}

/-- The length of the payload that is stored under an identifier. -/
def lengthAt (m : Memory) (identifier : Bytes) : Nat := ((m.get? identifier).getD []).length

/-- The length of the payloads that are stored under some identifiers. -/
def lengthOf (m : Memory) (identifiers : List Bytes) : Nat := (identifiers.map m.lengthAt).sum

@[simp] theorem lengthOf_cons (identifiers : List Bytes) :
    m.lengthOf (identifier :: identifiers) = m.lengthAt identifier + m.lengthOf identifiers := rfl

theorem lengthOf_congr {identifiers : List Bytes}
    (h : ∀ identifier ∈ identifiers, m'.get? identifier = m.get? identifier) :
    m'.lengthOf identifiers = m.lengthOf identifiers := by
  refine congrArg List.sum (List.map_congr_left fun identifier hmem => ?_)
  rw [lengthAt, lengthAt, h identifier hmem]

/-- Payloads, order and length in all say the same. -/
structure Consistent (m : Memory) : Prop where
  keys : (m.payloads.map Prod.fst).Nodup
  nodup : m.order.Nodup
  mem_order : ∀ identifier, identifier ∈ m.order ↔ m.contains identifier
  total : m.totalBytes = m.lengthOf m.order
  fits : m.lengthOf m.order ≤ m.limit

theorem consistent_empty (limit : Nat) : Consistent { limit } where
  keys := List.nodup_nil
  nodup := List.nodup_nil
  mem_order _ := ⟨nofun, nofun⟩
  total := rfl
  fits := Nat.zero_le limit

namespace Consistent

theorem get?_eq_none (h : m.Consistent) (hnew : identifier ∉ m.order) :
    m.get? identifier = none := by
  rw [h.mem_order, contains] at hnew
  simpa using hnew

theorem size_eq (h : m.Consistent) : m.size = m.order.length := by
  have hsame : ∀ identifier, identifier ∈ m.payloads.map Prod.fst ↔ identifier ∈ m.order := by
    intro identifier
    rw [h.mem_order, contains, get?, Option.isSome_iff_ne_none, ne_eq, List.lookup_eq_none_iff]
    simp
  have hperm := (List.perm_ext_iff_of_nodup h.keys h.nodup).2 hsame
  simpa [size] using hperm.length_eq

end Consistent

/-! ## Dropping one payload -/

@[simp] theorem limit_erase : (m.erase identifier).limit = m.limit := by
  unfold erase
  split <;> rfl

@[simp] theorem get?_erase_self : (m.erase identifier).get? identifier = none := by
  unfold erase
  split
  · assumption
  · exact Assoc.lookup_erase_self identifier m.payloads

theorem get?_erase_of_ne (h : other ≠ identifier) :
    (m.erase identifier).get? other = m.get? other := by
  unfold erase
  split
  · rfl
  · exact Assoc.lookup_erase_of_ne h m.payloads

namespace Consistent

theorem order_erase (h : m.Consistent) (identifier : Bytes) :
    (m.erase identifier).order = m.order.erase identifier := by
  unfold erase
  split
  · next hnone =>
    have hnew : identifier ∉ m.order := by simp [h.mem_order, contains, hnone]
    exact (List.erase_of_not_mem hnew).symm
  · rfl

/-- The payloads that stay are as long as they were. -/
theorem lengthOf_erase (h : m.Consistent) {identifiers : List Bytes}
    (hsub : identifiers ⊆ m.order.erase identifier) :
    (m.erase identifier).lengthOf identifiers = m.lengthOf identifiers := by
  refine lengthOf_congr fun other hmem => get?_erase_of_ne ?_
  rintro rfl
  exact h.nodup.not_mem_erase (hsub hmem)

theorem lengthOf_order (h : m.Consistent) (hmem : identifier ∈ m.order) :
    m.lengthAt identifier + (m.erase identifier).lengthOf (m.order.erase identifier) =
      m.lengthOf m.order := by
  rw [h.lengthOf_erase (List.Subset.refl _)]
  exact ((List.perm_cons_erase hmem).map m.lengthAt).sum_eq.symm

theorem erase (h : m.Consistent) (hlimit : m.limit < 2 ^ 63) (identifier : Bytes) :
    (m.erase identifier).Consistent := by
  cases hget : m.get? identifier with
  | none =>
    have hsame : m.erase identifier = m := by simp [Memory.erase, hget]
    rw [hsame]
    exact h
  | some payload =>
    have hmem : identifier ∈ m.order := by simp [h.mem_order, contains, hget]
    have hsum := h.lengthOf_order hmem
    have hlength : m.lengthAt identifier = payload.length := by simp [lengthAt, hget]
    have horder := h.order_erase identifier
    refine ⟨?_, ?_, fun other => ?_, ?_, ?_⟩
    · simpa [Memory.erase, hget] using Assoc.nodup_keys_erase h.keys identifier
    · rw [horder]
      exact h.nodup.erase identifier
    · rw [horder, h.nodup.mem_erase_iff, h.mem_order]
      by_cases hother : other = identifier
      · subst hother
        simp [contains]
      · simp [contains, hother, get?_erase_of_ne hother]
    · have hfits := h.fits
      have htotal := h.total
      have hword : (UInt64.ofNat payload.length).toNat = payload.length :=
        UInt64.toNat_ofNat_of_lt' (by simp only [UInt64.size]; omega)
      have hle : UInt64.ofNat payload.length ≤ m.total := by
        rw [UInt64.le_iff_toNat_le, hword]
        simp only [totalBytes] at htotal
        omega
      have hsub : (m.erase identifier).totalBytes = m.totalBytes - payload.length := by
        simp [Memory.erase, hget, totalBytes, UInt64.toNat_sub_of_le _ _ hle, hword]
      rw [horder, hsub, htotal]
      omega
    · have hfits := h.fits
      rw [horder, limit_erase]
      omega

theorem get?_eq_ite (h : m.Consistent) (identifier : Bytes) :
    m.get? identifier = if identifier ∈ m.order then m.get? identifier else none := by
  split
  · rfl
  · next hnew => exact h.get?_eq_none hnew

/-! ## Making room -/

theorem overflows_iff (h : m.Consistent) (hlimit : m.limit < 2 ^ 63) (hneed : need ≤ m.limit) :
    m.overflows need = true ↔ m.limit < m.lengthOf m.order + need := by
  have hfits := h.fits
  have htotal := h.total
  have hword : (UInt64.ofNat need).toNat = need :=
    UInt64.toNat_ofNat_of_lt' (by simp only [UInt64.size]; omega)
  have hsum : (m.total + UInt64.ofNat need).toNat = m.lengthOf m.order + need := by
    simp only [totalBytes] at htotal
    rw [UInt64.toNat_add, hword, htotal, Nat.mod_eq_of_lt (by omega)]
  rw [overflows, hsum, decide_eq_true_iff]

end Consistent

/-- The second store is the first one without some of the payloads stored first: as few of them as
make room for `need` more bytes. -/
structure Yields (need : Nat) (m m' : Memory) : Prop where
  limit : m'.limit = m.limit
  get? : ∀ identifier,
    m'.get? identifier = if identifier ∈ m'.order then m.get? identifier else none
  fits : m.lengthOf m'.order + need ≤ m.limit
  dropped : ∃ n, m'.order = m.order.drop n ∧ ∀ k < n, m.limit < m.lengthOf (m.order.drop k) + need

namespace Consistent

theorem yields_self (h : m.Consistent) (hfits : m.lengthOf m.order + need ≤ m.limit) :
    Yields need m m :=
  ⟨rfl, h.get?_eq_ite, hfits, 0, rfl, nofun⟩

/-- The payloads that are stored first are dropped one by one, until there is room. -/
theorem evict (h : m.Consistent) (hlimit : m.limit < 2 ^ 63) (hneed : need ≤ m.limit) :
    (evict need m.order m).Consistent ∧ Yields need m (evict need m.order m) := by
  generalize horder : m.order = identifiers
  induction identifiers generalizing m with
  | nil =>
    refine ⟨h, h.yields_self ?_⟩
    simpa [horder, lengthOf] using hneed
  | cons oldest younger ih =>
    have hoverflows := h.overflows_iff hlimit hneed
    by_cases hfull : m.overflows need
    · have hyounger : (m.erase oldest).order = younger := by simp [h.order_erase, horder]
      have hsub : younger ⊆ m.order.erase oldest := by simp [horder]
      have hne : ∀ identifier ∈ younger, identifier ≠ oldest := by
        rintro identifier hmem rfl
        have hnodup := h.nodup
        rw [horder] at hnodup
        exact (List.nodup_cons.1 hnodup).1 hmem
      obtain ⟨hconsistent, hyields⟩ :=
        ih (h.erase hlimit oldest) (by simpa using hlimit) (by simpa using hneed) hyounger
      have hevict : Memory.evict need (oldest :: younger) m =
          Memory.evict need younger (m.erase oldest) := if_pos hfull
      rw [hevict]
      refine ⟨hconsistent, ?_⟩
      generalize Memory.evict need younger (m.erase oldest) = m' at hyields
      obtain ⟨n, hn, hfirst⟩ := hyields.dropped
      rw [hyounger] at hn
      have hsub' : m'.order ⊆ younger := hn ▸ List.drop_subset n younger
      refine ⟨by simpa using hyields.limit, fun identifier => ?_, ?_, n + 1, ?_, fun k hk => ?_⟩
      · rw [hyields.get?]
        by_cases hmem : identifier ∈ m'.order
        · rw [if_pos hmem, if_pos hmem, get?_erase_of_ne (hne _ (hsub' hmem))]
        · rw [if_neg hmem, if_neg hmem]
      · have hfits := hyields.fits
        rw [h.lengthOf_erase (List.Subset.trans hsub' hsub), limit_erase] at hfits
        exact hfits
      · rw [horder, hn, List.drop_succ_cons]
      · cases k with
        | zero => simpa using hoverflows.1 hfull
        | succ k =>
          have hk' := hfirst k (Nat.lt_of_succ_lt_succ hk)
          rw [hyounger, h.lengthOf_erase (List.Subset.trans (List.drop_subset k younger) hsub),
            limit_erase] at hk'
          rw [horder, List.drop_succ_cons]
          exact hk'
    · have hevict : Memory.evict need (oldest :: younger) m = m := if_neg hfull
      rw [hevict]
      refine ⟨h, h.yields_self ?_⟩
      exact Nat.le_of_not_lt fun hlt => hfull (hoverflows.2 hlt)

end Consistent

/-! ## Adding a payload -/

@[simp] theorem get?_insert_self : (m.insert identifier payload).get? identifier = some payload :=
  Assoc.lookup_set_self identifier payload m.payloads

theorem get?_insert_of_ne (h : other ≠ identifier) :
    (m.insert identifier payload).get? other = m.get? other :=
  Assoc.lookup_set_of_ne h payload m.payloads

theorem Consistent.insert (h : m.Consistent) (hlimit : m.limit < 2 ^ 63)
    (hnew : identifier ∉ m.order) (hroom : m.lengthOf m.order + payload.length ≤ m.limit) :
    (m.insert identifier payload).Consistent := by
  have hsum : (m.insert identifier payload).lengthOf (m.order ++ [identifier]) =
      m.lengthOf m.order + payload.length := by
    have hold : (m.insert identifier payload).lengthOf m.order = m.lengthOf m.order :=
      lengthOf_congr fun other hmem => get?_insert_of_ne fun heq => hnew (heq ▸ hmem)
    rw [lengthOf, List.map_append, List.sum_append, ← lengthOf, hold]
    simp [lengthAt]
  refine ⟨?_, ?_, fun other => ?_, ?_, hsum.trans_le hroom⟩
  · exact Assoc.nodup_keys_set h.keys identifier payload
  · exact (List.nodup_append.2 ⟨h.nodup, List.nodup_singleton identifier, by
      rintro a ha b hb rfl
      exact hnew (List.mem_singleton.1 hb ▸ ha)⟩)
  · by_cases hother : other = identifier
    · subst hother
      simp [Memory.insert, contains, Memory.get?]
    · have hmem := h.mem_order other
      rw [contains] at hmem ⊢
      rw [get?_insert_of_ne hother, ← hmem]
      simp [Memory.insert, hother]
  · have htotal := h.total
    have hword : (UInt64.ofNat payload.length).toNat = payload.length :=
      UInt64.toNat_ofNat_of_lt' (by simp only [UInt64.size]; omega)
    simp only [totalBytes] at htotal ⊢
    have hadd : (m.insert identifier payload).total = m.total + UInt64.ofNat payload.length := rfl
    rw [hadd, UInt64.toNat_add, hword, htotal, Nat.mod_eq_of_lt (by omega)]
    exact hsum.symm

/-! ## Commits -/

/-- What the commit of a payload that fits makes of a store: an older payload of the same identifier
is gone, as few as possible of those stored first have given way, and the payload comes last. -/
structure Stores (identifier payload : Bytes) (m m' : Memory) : Prop where
  order : ∃ n, m'.order = (m.order.erase identifier).drop n ++ [identifier] ∧
    m.lengthOf ((m.order.erase identifier).drop n) + payload.length ≤ m.limit ∧
    ∀ k < n, m.limit < m.lengthOf ((m.order.erase identifier).drop k) + payload.length
  self : m'.get? identifier = some payload
  others : ∀ other ≠ identifier,
    m'.get? other = if other ∈ m'.order then m.get? other else none

/-- What the commit of a payload over the limit makes of a store: an older payload of the same
identifier is gone, and nothing else. -/
structure Omits (identifier : Bytes) (m m' : Memory) : Prop where
  order : m'.order = m.order.erase identifier
  self : m'.get? identifier = none
  others : ∀ other ≠ identifier, m'.get? other = m.get? other

/-- What the commit of a payload makes of a store. -/
inductive Commits (identifier payload : Bytes) (m m' : Memory) : Prop
  | fits : payload.length ≤ m.limit → Stores identifier payload m m' →
    Commits identifier payload m m'
  | exceeds : m.limit < payload.length → Omits identifier m m' → Commits identifier payload m m'

namespace Consistent

variable {slot : Slot} {broken : Bool}

theorem stores (h : m.Consistent) (hlimit : m.limit < 2 ^ 63) (hroom : payload.length ≤ m.limit)
    (hsink : slot.sink = some (.buffer payload broken)) :
    ∃ m', m.commit slot = .ok m' ∧ m'.limit = m.limit ∧ m'.Consistent ∧
      Stores slot.identifier payload m m' := by
  have hothers := h.erase hlimit slot.identifier
  have horder := h.order_erase slot.identifier
  obtain ⟨hconsistent, hyields⟩ :=
    hothers.evict (by simpa using hlimit) (by simpa using hroom)
  refine ⟨_, by simp [commit, hsink, Nat.not_lt.2 hroom]; rfl, ?_⟩
  generalize Memory.evict payload.length (m.erase slot.identifier).order
    (m.erase slot.identifier) = left at hconsistent hyields
  obtain ⟨n, hn, hfirst⟩ := hyields.dropped
  have hleft : left.limit = m.limit := by simpa using hyields.limit
  have hsub : left.order ⊆ m.order.erase slot.identifier := by
    rw [hn, horder]
    exact List.drop_subset n _
  have hnew : slot.identifier ∉ left.order := fun hmem => h.nodup.not_mem_erase (hsub hmem)
  have hfits : m.lengthOf left.order + payload.length ≤ m.limit := by
    have hfits := hyields.fits
    rwa [h.lengthOf_erase hsub, limit_erase] at hfits
  have hget : ∀ other ≠ slot.identifier,
      left.get? other = if other ∈ left.order then m.get? other else none := by
    intro other hother
    rw [hyields.get?, get?_erase_of_ne hother]
  have hlength : left.lengthOf left.order = m.lengthOf left.order := by
    refine lengthOf_congr fun other hmem => ?_
    rw [hget other fun heq => hnew (heq ▸ hmem), if_pos hmem]
  refine ⟨hleft, ?_, ⟨n, ?_, ?_, fun k hk => ?_⟩, get?_insert_self, fun other hother => ?_⟩
  · refine hconsistent.insert (by rwa [hleft]) hnew ?_
    rwa [hlength, hleft]
  · rw [← horder, ← hn]
    rfl
  · rwa [← horder, ← hn]
  · have hk' := hfirst k hk
    rwa [horder, h.lengthOf_erase (List.drop_subset k _), limit_erase] at hk'
  · rw [get?_insert_of_ne hother, hget other hother]
    simp [Memory.insert, hother]

theorem omits (h : m.Consistent) (hlimit : m.limit < 2 ^ 63) (hlong : m.limit < payload.length)
    (hsink : slot.sink = some (.buffer payload broken)) :
    ∃ m', m.commit slot = .ok m' ∧ m'.limit = m.limit ∧ m'.Consistent ∧
      Omits slot.identifier m m' :=
  ⟨m.erase slot.identifier, by simp [commit, hsink, hlong], limit_erase, h.erase hlimit _,
    h.order_erase _, get?_erase_self, fun _ => get?_erase_of_ne⟩

theorem commits (h : m.Consistent) (hlimit : m.limit < 2 ^ 63)
    (hsink : slot.sink = some (.buffer payload broken)) :
    ∃ m', m.commit slot = .ok m' ∧ m'.limit = m.limit ∧ m'.Consistent ∧
      Commits slot.identifier payload m m' := by
  rcases Nat.lt_or_ge m.limit payload.length with hlong | hroom
  · obtain ⟨m', hcommit, hsame, hconsistent, homits⟩ := h.omits hlimit hlong hsink
    exact ⟨m', hcommit, hsame, hconsistent, .exceeds hlong homits⟩
  · obtain ⟨m', hcommit, hsame, hconsistent, hstores⟩ := h.stores hlimit hroom hsink
    exact ⟨m', hcommit, hsame, hconsistent, .fits hroom hstores⟩

end Consistent

/-- However it ends, what was stored first is dropped first and the new payload comes last. -/
theorem Commits.sublist (h : Commits identifier payload m m') :
    m'.order.Sublist (m.order.erase identifier ++ [identifier]) := by
  cases h with
  | fits _ hstores =>
    obtain ⟨n, hn, _⟩ := hstores.order
    rw [hn]
    exact (List.drop_sublist n _).append_right [identifier]
  | exceeds _ homits =>
    rw [homits.order]
    exact List.sublist_append_left _ [identifier]

theorem commit_of_bufferless {slot : Slot} (hsink : slot.sink = none) :
    m.commit slot = .error (.slotWithoutBuffer slot.identifier) := by
  simp [commit, hsink]

end Memory

/-! ## Traffic -/

/-- What comes last moves behind everything else. -/
theorem dedup_concat (identifiers : List Bytes) (identifier : Bytes) :
    (identifiers ++ [identifier]).dedup = identifiers.dedup.erase identifier ++ [identifier] := by
  induction identifiers with
  | nil => rfl
  | cons first identifiers ih =>
    rw [List.cons_append]
    by_cases hfirst : first = identifier
    · subst hfirst
      rw [List.dedup_cons_of_mem (by simp), ih]
      by_cases hmem : first ∈ identifiers
      · rw [List.dedup_cons_of_mem hmem]
      · rw [List.dedup_cons_of_notMem hmem, List.erase_cons_head,
          List.erase_of_not_mem (by simpa using hmem)]
    · by_cases hmem : first ∈ identifiers
      · rw [List.dedup_cons_of_mem (by simp [hmem]), ih, List.dedup_cons_of_mem hmem]
      · rw [List.dedup_cons_of_notMem (by simp [hmem, hfirst]), ih,
          List.dedup_cons_of_notMem hmem, List.erase_cons_tail (by simpa using hfirst),
          List.cons_append]

namespace Traffic

variable {suite : Suite} {t : Traffic} {m : Memory} {limit n : Nat}

/-- The slot has a buffer with all that was written to it, or no buffer at all. -/
def Buffers (ticket : Ticket) : Prop :=
  ticket.slot.sink = none ∨ ticket.slot.sink = some (.buffer ticket.written false)

/-- Traffic at a store in memory with this limit. -/
structure InMemory (limit : Nat) (t : Traffic) (m : Memory) : Prop where
  store : t.store = .memory m
  limit : m.limit = limit
  consistent : m.Consistent
  buffers : ∀ n, Buffers (t.ticket n)
  /-- The payloads are in the order of the last commits of their identifiers. -/
  recent : m.order.Sublist (t.commits.reverse.map Prod.fst).dedup

theorem inMemory_empty (limit : Nat) : InMemory limit { store := .memory { limit } } { limit } where
  store := rfl
  limit := rfl
  consistent := Memory.consistent_empty limit
  buffers _ := .inl rfl
  recent := List.Sublist.refl []

namespace InMemory

theorem acquire (h : InMemory limit t m) (identifier : Bytes) :
    perform suite (.acquire identifier) t = .ok () (t.add { slot := m.acquire identifier }) := by
  obtain ⟨store, tickets, commits⟩ := t
  cases h.store
  rfl

theorem commit_of_bufferless (h : InMemory limit t m) (hsink : (t.ticket n).slot.sink = none) :
    perform suite (.commit n) t =
      .error (.slotWithoutBuffer (t.ticket n).slot.identifier) t := by
  obtain ⟨store, tickets, commits⟩ := t
  cases h.store
  simp [perform, Store.commit, Memory.commit_of_bufferless hsink]

/-- A commit is the only move that changes the store. -/
theorem store_of_perform (h : InMemory limit t m) {move : Move} (hmove : ∀ n, move ≠ .commit n) :
    ((perform suite move).final t).store = .memory m := by
  cases move with
  | acquire identifier => rw [final_of_ok (h.acquire identifier)]; exact h.store
  | bring identifier buffered => exact h.store
  | write n data =>
    obtain ⟨store, tickets, commits⟩ := t
    cases h.store
    rfl
  | commit n => exact absurd rfl (hmove n)
  | abandon n =>
    obtain ⟨store, tickets, commits⟩ := t
    cases h.store
    rfl

theorem commit (h : InMemory limit t m) (hlimit : limit < 2 ^ 63)
    (hsink : (t.ticket n).slot.sink ≠ none) :
    ∃ m', perform suite (.commit n) t = .ok () (t.commit n (.memory m')) ∧
      InMemory limit (t.commit n (.memory m')) m' ∧
      Memory.Commits (t.ticket n).slot.identifier (t.ticket n).written m m' := by
  have hbuffer := (h.buffers n).resolve_left hsink
  obtain ⟨m', hcommit, hsame, hconsistent, hcommits⟩ :=
    h.consistent.commits (h.limit ▸ hlimit) hbuffer
  refine ⟨m', ?_, ⟨rfl, hsame.trans h.limit, hconsistent, ?_, ?_⟩, hcommits⟩
  · simp [perform, h.store, Store.commit, hcommit]
  · exact forall_amend (t := { t with store := .memory m', commits := _ }) h.buffers (h.buffers n)
  · have hlast : (t.commit n (.memory m')).commits.reverse.map Prod.fst =
        t.commits.reverse.map Prod.fst ++ [(t.ticket n).slot.identifier] := by
      simp [Traffic.commit]
    rw [hlast, dedup_concat]
    exact hcommits.sublist.trans ((h.recent.erase _).append_right _)

theorem add (h : InMemory limit t m) {slot : Slot} (hslot : Buffers { slot }) :
    InMemory limit (t.add { slot }) m :=
  ⟨h.store, h.limit, h.consistent, forall_add h.buffers hslot, h.recent⟩

theorem amend (h : InMemory limit t m) {f : Ticket → Ticket}
    (hf : Buffers (f (t.ticket n))) : InMemory limit (t.amend n f) m :=
  ⟨h.store, h.limit, h.consistent, forall_amend h.buffers hf, h.recent⟩

/-- Whatever is done, payloads, order and length in all go on agreeing. -/
theorem perform (h : InMemory limit t m) (hlimit : limit < 2 ^ 63) (move : Move) :
    ∃ m', InMemory limit ((perform suite move).final t) m' := by
  cases move with
  | acquire identifier =>
    rw [final_of_ok (h.acquire identifier)]
    refine ⟨m, h.add ?_⟩
    by_cases hcached : m.contains identifier
    · exact .inl (if_pos hcached)
    · exact .inr (if_neg hcached)
  | bring identifier buffered =>
    refine ⟨m, h.add ?_⟩
    cases buffered with
    | false => exact .inl rfl
    | true => exact .inr rfl
  | write n data =>
    obtain ⟨store, tickets, commits⟩ := t
    cases h.store
    refine ⟨m, h.amend (f := fun ticket => { ticket with
      slot := (Traffic.ticket ⟨.memory m, tickets, commits⟩ n).slot.write data
      written := ticket.written ++ data }) ?_⟩
    rcases h.buffers n with hnone | hbuffer
    · exact .inl (by simp [Slot.write, hnone])
    · exact .inr (by simp [Slot.write, hbuffer])
  | commit n =>
    by_cases hsink : (t.ticket n).slot.sink = none
    · rw [final_of_error (h.commit_of_bufferless hsink)]
      exact ⟨m, h⟩
    · obtain ⟨m', hcommit, hm', _⟩ := h.commit hlimit hsink
      rw [final_of_ok hcommit]
      exact ⟨m', hm'⟩
  | abandon n =>
    obtain ⟨store, tickets, commits⟩ := t
    cases h.store
    exact ⟨m, h.amend (f := fun ticket => { ticket with settled := true }) (h.buffers n)⟩

/-- So they agree at the end of every run that starts with an empty store. -/
theorem of_run (hlimit : limit < 2 ^ 63) (moves : List Move) :
    ∃ m, InMemory limit (Traffic.run suite { store := .memory { limit } } moves) m :=
  run_preserves (P := fun t => ∃ m, InMemory limit t m)
    (fun _ move ⟨_, h⟩ => h.perform hlimit move) ⟨_, inMemory_empty limit⟩ moves

end InMemory

/-- Whatever was done at a store in memory, it lists every stored identifier once, in the order of
their last commits, it counts the stored bytes and they are within the limit. Only a commit changes
it. One that fails changes nothing; any other keeps exactly what was written to its slot, makes as
few as possible of those stored first give way, and keeps nothing over the limit. -/
theorem memory_of_run (hlimit : limit < 2 ^ 63) (moves : List Move) (t : Traffic)
    (ht : t = Traffic.run suite { store := .memory { limit } } moves) :
    ∃ m, t.store = .memory m ∧ m.limit = limit ∧ m.Consistent ∧ m.size = m.order.length ∧
      m.order.Sublist (t.commits.reverse.map Prod.fst).dedup ∧
      (∀ move, (∀ n, move ≠ .commit n) → ((perform suite move).final t).store = t.store) ∧
      ∀ n, ((t.ticket n).slot.sink = none →
          perform suite (.commit n) t =
            .error (.slotWithoutBuffer (t.ticket n).slot.identifier) t) ∧
        ((t.ticket n).slot.sink ≠ none → ∃ m',
          perform suite (.commit n) t = .ok () (t.commit n (.memory m')) ∧
          Memory.Commits (t.ticket n).slot.identifier (t.ticket n).written m m') := by
  subst ht
  obtain ⟨m, h⟩ : ∃ m, InMemory limit (run suite { store := .memory { limit } } moves) m :=
    InMemory.of_run hlimit moves
  refine ⟨m, h.store, h.limit, h.consistent, h.consistent.size_eq, h.recent,
    fun move hmove => ?_, fun n => ⟨h.commit_of_bufferless, fun hsink => ?_⟩⟩
  · rw [h.store_of_perform hmove, h.store]
  · obtain ⟨m', hcommit, _, hcommits⟩ := h.commit hlimit hsink
    exact ⟨m', hcommit, hcommits⟩

/-- Two requests for one resource and one for another, while no more than four bytes are kept. -/
def crowding : List Move :=
  [.acquire (ascii "a"), .acquire (ascii "b"), .acquire (ascii "a"), .write 0 (ascii "xyz"),
    .write 2 (ascii "q"), .commit 0, .write 1 (ascii "12"), .commit 1, .commit 2]

/-- The three bytes give way to the other resource and are not there when the commit of the second
slot comes. -/
theorem memory_of_run_crowded :
    4 < 2 ^ 63 ∧ ∃ m, (run Suite.full { store := .memory { limit := 4 } } crowding).store =
      .memory m ∧ m.Consistent ∧ m.order = [ascii "b", ascii "a"] ∧
      m.get? (ascii "b") = some (ascii "12") ∧ m.get? (ascii "a") = some (ascii "q") ∧
      m.totalBytes = 3 := by
  have hlimit : 4 < 2 ^ 63 := by decide
  obtain ⟨m, hstore, _, hm, _⟩ := memory_of_run hlimit crowding
    (run Suite.full { store := .memory { limit := 4 } } crowding) rfl
  obtain rfl : m = { limit := 4, payloads := [(ascii "b", ascii "12"), (ascii "a", ascii "q")]
                     order := [ascii "b", ascii "a"], total := 3 } := by
    have hrun : (run Suite.full { store := .memory { limit := 4 } } crowding).store =
      .memory { limit := 4, payloads := [(ascii "b", ascii "12"), (ascii "a", ascii "q")]
                order := [ascii "b", ascii "a"], total := 3 } := by decide
    exact Store.memory.inj (hstore.symm.trans hrun)
  exact ⟨by decide, _, hstore, hm, rfl, by decide, by decide, rfl⟩

end Traffic

end Gntp.Store
