import Gntp.Store

/-!
# Traffic at a store

Requests that are received at the same time share one store, so its operations come in any order,
over any number of slots: one that was given twice for the same identifier, one that was committed
before, one that the store never gave. A run of such moves keeps what every single one keeps
(`Traffic.run_preserves`).
-/

namespace Gntp.Store

open Gntp.Action

/-- A slot that is out. -/
structure Ticket where
  slot : Slot := {}
  /-- All that was written to the slot, in order. -/
  written : Bytes := []
  /-- Whether the slot was committed or abandoned. -/
  settled : Bool := false
  deriving DecidableEq

/-- A store and those who use it. -/
structure Traffic where
  store : Store
  /-- The slots that are out, the first one in front. -/
  tickets : List Ticket := []
  /-- The identifiers of committed slots, each with what was written to the slot before. The last
  commit is in front. -/
  commits : List (Bytes × Bytes) := []
  deriving DecidableEq

/-- What is done at a store. Slots go by the order in which they came. -/
inductive Move where
  | acquire (identifier : Bytes)
  /-- Brings a slot along that the store did not give. -/
  | bring (identifier : Bytes) (buffered : Bool)
  | write (n : Nat) (data : Bytes)
  | commit (n : Nat)
  | abandon (n : Nat)
  deriving DecidableEq

namespace Traffic

/-- A slot by its number. One that never came is the slot of nobody. -/
def ticket (t : Traffic) (n : Nat) : Ticket := t.tickets[n]?.getD {}

/-- The slot that someone makes by hand. -/
def handmade (identifier : Bytes) (buffered : Bool) : Slot :=
  { identifier, sink := if buffered then some (.buffer [] false) else none }

/-- Takes in a slot behind those that came before. -/
def add (t : Traffic) (new : Ticket) : Traffic := { t with tickets := t.tickets ++ [new] }

/-- Changes what is said about a slot. -/
def amend (t : Traffic) (n : Nat) (f : Ticket → Ticket) : Traffic :=
  { t with tickets := t.tickets.modify n f }

/-- Notes that a slot was committed, which has left the store like this. -/
def commit (t : Traffic) (n : Nat) (store : Store) : Traffic :=
  { t with
    store
    commits := ((t.ticket n).slot.identifier, (t.ticket n).written) :: t.commits }.amend n
      fun ticket => { ticket with settled := true }

def perform (suite : Suite) : Move → Action Traffic Unit
  | .acquire identifier => fun t =>
    match Store.acquire suite identifier t.store with
    | .ok slot store => .ok () ({ t with store }.add { slot })
    | .error failure store => .error failure { t with store }
  | .bring identifier buffered => modify fun t => t.add { slot := handmade identifier buffered }
  | .write n data => modify fun t =>
    let (slot, store) := t.store.write (t.ticket n).slot data
    { t with store }.amend n fun ticket => { ticket with slot, written := ticket.written ++ data }
  | .commit n => fun t =>
    match Store.commit (t.ticket n).slot t.store with
    | .ok _ store => .ok () (t.commit n store)
    | .error failure store => .error failure { t with store }
  | .abandon n => modify fun t =>
    { t with store := t.store.abandon (t.ticket n).slot }.amend n
      fun ticket => { ticket with settled := true }

/-- What comes of some moves, one after the other, whether they fail or not. -/
def run (suite : Suite) (t : Traffic) (moves : List Move) : Traffic :=
  moves.foldl (fun t move => (perform suite move).final t) t

variable {suite : Suite} {t : Traffic}

@[simp] theorem run_nil : t.run suite [] = t := rfl

@[simp] theorem run_cons (move : Move) (moves : List Move) :
    t.run suite (move :: moves) = ((perform suite move).final t).run suite moves := rfl

/-- What every move keeps, a run keeps. -/
theorem run_preserves {P : Traffic → Prop}
    (hmove : ∀ t move, P t → P ((perform suite move).final t)) (h : P t) (moves : List Move) :
    P (t.run suite moves) := by
  induction moves generalizing t with
  | nil => exact h
  | cons move moves ih => exact ih (hmove t move h)

/-! ## Slots by their number -/

variable {n k : Nat} {f : Ticket → Ticket} {new : Ticket}

@[simp] theorem store_amend : (t.amend n f).store = t.store := rfl

@[simp] theorem commits_amend : (t.amend n f).commits = t.commits := rfl

@[simp] theorem length_amend : (t.amend n f).tickets.length = t.tickets.length := by
  simp [amend]

theorem ticket_of_length_le (h : t.tickets.length ≤ n) : t.ticket n = {} := by
  simp [ticket, h]

theorem ticket_amend_self (h : n < t.tickets.length) :
    (t.amend n f).ticket n = f (t.ticket n) := by
  simp [ticket, amend, h]

theorem ticket_amend_of_ne (h : k ≠ n) : (t.amend n f).ticket k = t.ticket k := by
  simp [ticket, amend, h.symm]

theorem ticket_amend_of_length_le (h : t.tickets.length ≤ n) :
    (t.amend n f).ticket k = t.ticket k := by
  by_cases hk : k = n
  · subst hk
    rw [ticket_of_length_le h, ticket_of_length_le (by simpa using h)]
  · exact ticket_amend_of_ne hk

theorem ticket_amend_cases : (t.amend n f).ticket k = t.ticket k ∨
    k = n ∧ (t.amend n f).ticket k = f (t.ticket n) := by
  by_cases hk : k = n
  · subst hk
    rcases Nat.lt_or_ge k t.tickets.length with hlt | hge
    · exact .inr ⟨rfl, ticket_amend_self hlt⟩
    · exact .inl (ticket_amend_of_length_le hge)
  · exact .inl (ticket_amend_of_ne hk)

theorem ticket_add_self : (t.add new).ticket t.tickets.length = new := by
  simp [ticket, add]

theorem ticket_add_of_ne (h : k ≠ t.tickets.length) : (t.add new).ticket k = t.ticket k := by
  rcases Nat.lt_or_gt_of_ne h with hlt | hgt
  · simp [ticket, add, List.getElem?_append_left hlt]
  · rw [ticket_of_length_le (Nat.le_of_lt hgt), ticket_of_length_le]
    simpa [add] using Nat.succ_le_of_lt hgt

theorem ticket_add_cases : (t.add new).ticket k = t.ticket k ∨
    k = t.tickets.length ∧ (t.add new).ticket k = new := by
  by_cases hk : k = t.tickets.length
  · exact .inr ⟨hk, hk ▸ ticket_add_self⟩
  · exact .inl (ticket_add_of_ne hk)

/-- What is true of every slot stays true if one is amended in keeping with it. -/
theorem forall_amend {P : Ticket → Prop} (h : ∀ k, P (t.ticket k)) (hf : P (f (t.ticket n))) :
    ∀ k, P ((t.amend n f).ticket k) := by
  intro k
  rcases ticket_amend_cases (t := t) (n := n) (f := f) (k := k) with hsame | ⟨_, hnew⟩
  · rw [hsame]
    exact h k
  · rw [hnew]
    exact hf

theorem forall_add {P : Ticket → Prop} (h : ∀ k, P (t.ticket k)) (hnew : P new) :
    ∀ k, P ((t.add new).ticket k) := by
  intro k
  have hcases : (t.add new).ticket k = t.ticket k ∨ _ := ticket_add_cases
  rcases hcases with hsame | ⟨_, heq⟩
  · rw [hsame]
    exact h k
  · rwa [heq]

end Traffic

end Gntp.Store
