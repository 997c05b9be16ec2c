import Mathlib.Data.List.Nodup
import Gntp.Connections
import Gntp.Proofs.Placing

/-!
# Connections over sockets that are not open

A connection over a socket that is not open never starts. Its number is spent, and it is kept among
those that have ended until the next one comes or everything is shut down
(`Connections.add_unopened`). Waiting for all connections ends after two rounds at the latest
(`Connections.rounds_joinAll`), and what holds between the calls of a history (`Connections.Vacant`)
is kept by each of them, so that nothing is ever live (`Connections.performAll_refuses`).
-/

namespace Gntp.Connections

/-- A call on the connections of a listener. The socket of a connection that is added is not
open. -/
inductive Call where
  | add
  | remove (id : Nat)
  | find (id : Nat)
  | awaitIdle (timeout : Nat)
  | shutdown (grace : Nat)
  deriving DecidableEq

/-- What a call leaves, and its records. -/
def perform (cs : Connections) : Call → Connections × List Record
  | .add => (cs.add none).2
  | .remove id => cs.remove id
  | .find _ | .awaitIdle _ => (cs, [])
  | .shutdown _ => cs.shutdown

/-- What calls leave that are performed one after the other, and the records of all of them. -/
def performAll (cs : Connections) : List Call → Connections × List Record
  | [] => (cs, [])
  | call :: calls =>
    let (cs, records) := cs.perform call
    let (cs, more) := cs.performAll calls
    (cs, records ++ more)

/-- The connection with a number, over a socket that is not open. -/
def unopened (id : Nat) : Connection := (Connection.create id none).1

/-- The record of the making of a connection over a socket that is not open. -/
def made (id : Nat) : Record := .debug (Connection.told id (ascii "Created for unknown"))

/-- Whether a record tells of the making of a connection over a socket that is not open. -/
def tellsMaking (r : Record) : Bool :=
  r.severity = .debug && (ascii "Created for unknown").isSuffixOf r.text

variable {cs cs' : Connections} {id n : Nat} {records : List Record} {calls : List Call}
  {call : Call}

/-! ## Waiting for all connections -/

/-- So many rounds of waiting, with these records, after which nothing is left. -/
inductive Rounds : Connections → Nat → Connections → List Record → Prop
  | nothing {cs : Connections} : cs.joinRound = none → Rounds cs 0 cs []
  | round {cs cs₁ cs' : Connections} {n : Nat} {records more : List Record} :
    cs.joinRound = some (cs₁, records) → Rounds cs₁ n cs' more →
      Rounds cs (n + 1) cs' (records ++ more)

theorem joinRound_eq_none : cs.joinRound = none ↔ cs.live = [] ∧ cs.finished = [] := by
  simp [joinRound]

theorem joinRound_eq_some : cs.joinRound = some (cs', records) ↔
    ¬ (cs.live = [] ∧ cs.finished = []) ∧
      cs' = { cs with live := [], finished := cs.live.map (·.2) } ∧
      records = cs.finished.flatMap Connection.release := by
  unfold joinRound
  split
  · next h => simp [h]
  · next h =>
    rw [Option.some.injEq, Prod.mk.injEq]
    exact ⟨fun ⟨hleft, hrecords⟩ => ⟨h, hleft.symm, hrecords.symm⟩,
      fun ⟨_, hleft, hrecords⟩ => ⟨hleft.symm, hrecords.symm⟩⟩

namespace Rounds

/-- Nothing is left, and nothing else has changed. -/
theorem left_eq (h : Rounds cs n cs' records) :
    cs' = { cs with live := [], finished := [] } := by
  induction h with
  | nothing hnone =>
    obtain ⟨hlive, hfinished⟩ := joinRound_eq_none.1 hnone
    rw [← hlive, ← hfinished]
  | round hround _ ih =>
    obtain ⟨_, rfl, _⟩ := joinRound_eq_some.1 hround
    exact ih

/-- Every connection is given up once, and those that had ended come first. -/
theorem records_eq (h : Rounds cs n cs' records) : records =
    cs.finished.flatMap Connection.release ++ cs.live.flatMap fun entry => entry.2.release := by
  induction h with
  | nothing hnone =>
    obtain ⟨hlive, hfinished⟩ := joinRound_eq_none.1 hnone
    rw [hlive, hfinished]
    rfl
  | round hround _ ih =>
    obtain ⟨_, rfl, rfl⟩ := joinRound_eq_some.1 hround
    rw [ih, List.flatMap_map, List.flatMap_nil, List.append_nil]

/-- What has ended already is waited for in one round. -/
theorem le_one (h : Rounds cs n cs' records) (hlive : cs.live = []) : n ≤ 1 := by
  cases h with
  | nothing => exact Nat.zero_le 1
  | round hround hrest =>
    obtain ⟨_, rfl, _⟩ := joinRound_eq_some.1 hround
    cases hrest with
    | nothing => exact Nat.le_refl 1
    | round hagain =>
      have hsome := (joinRound_eq_some.1 hagain).1
      rw [hlive] at hsome
      exact absurd ⟨rfl, rfl⟩ hsome

theorem le_two (h : Rounds cs n cs' records) : n ≤ 2 := by
  cases h with
  | nothing => exact Nat.zero_le 2
  | round hround hrest =>
    obtain ⟨_, rfl, _⟩ := joinRound_eq_some.1 hround
    exact Nat.succ_le_succ (hrest.le_one rfl)

end Rounds

/-- Waiting for all connections comes to an end, whatever is live or has ended. -/
theorem rounds_joinAll (cs : Connections) :
    ∃ n ≤ 2, Rounds cs n cs.joinAll.1 cs.joinAll.2 := by
  have hrounds : ∃ n, Rounds cs n cs.joinAll.1 cs.joinAll.2 := by
    fun_induction joinAll cs with
    | case1 cs hnone => exact ⟨0, .nothing hnone⟩
    | case2 cs cs' records hround left more hleft ih =>
      obtain ⟨n, hrest⟩ := ih
      rw [hleft] at hrest
      exact ⟨n + 1, .round hround hrest⟩
  obtain ⟨n, h⟩ := hrounds
  exact ⟨n, h.le_two, h⟩

/-! ## Records -/

theorem tellsMaking_made (id : Nat) : tellsMaking (made id) = true := by
  have hsuffix : ascii "Created for unknown" <:+ (made id).text := List.suffix_append _ _
  rw [tellsMaking, List.isSuffixOf_iff_suffix.2 hsuffix]
  rfl

theorem not_tellsMaking_of_severity {r : Record} (h : r.severity ≠ .debug) :
    ¬ tellsMaking r = true := by
  rw [tellsMaking, decide_eq_false h, Bool.false_and]
  exact Bool.false_ne_true

/-- A text tells of no making if its last byte says so. -/
theorem not_tellsMaking_of_last {r : Record} {b : UInt8} (h : r.text.getLast? = some b)
    (hne : b ≠ 0x6e) : ¬ tellsMaking r = true := by
  intro htells
  obtain ⟨start, htext⟩ := List.isSuffixOf_iff_suffix.1 (Bool.and_eq_true_iff.1 htells).2
  rw [← htext, List.getLast?_append_of_ne_nil _ (by decide)] at h
  exact hne (Option.some.inj h).symm

theorem not_tellsMaking_of_mem_release {c : Connection} {r : Record} (h : r ∈ c.release) :
    ¬ tellsMaking r = true := by
  cases List.mem_singleton.1 h
  exact not_tellsMaking_of_last (List.getLast?_append_of_ne_nil _ (by decide)) (by decide)

theorem filter_release (connections : List Connection) :
    (connections.flatMap Connection.release).filter tellsMaking = [] := by
  rw [List.filter_eq_nil_iff]
  intro r hr
  obtain ⟨c, _, hr⟩ := List.mem_flatMap.1 hr
  exact not_tellsMaking_of_mem_release hr

theorem made_injective : Function.Injective made := by
  intro m n h
  have htext : Connection.told m _ = Connection.told n _ := congrArg Record.text h
  rw [Connection.told, Connection.told, List.append_assoc, List.append_assoc, List.append_assoc,
    List.append_assoc, List.append_cancel_left_eq, List.append_cancel_right_eq] at htext
  exact Decimal.ofNat_injective htext

/-! ## One call -/

/-- No connection is live, and of those that have ended at most one is kept, which never
started. -/
structure Vacant (cs : Connections) : Prop where
  live_eq : cs.live = []
  finished_le : cs.finished.length ≤ 1
  finished_of_closed : cs.accepting = false → cs.finished = []
  never_started : ∀ c ∈ cs.finished, c.isOpen = false ∧ c.active = false

theorem remove_of_vacant (h : cs.live = []) (id : Nat) : cs.remove id = (cs, []) := by
  rw [remove, h]
  rfl

/-- The records of the refusal of a connection over a socket that is not open. -/
def refusal (cs : Connections) : List Record :=
  let number := Decimal.ofNat cs.nextId
  if cs.accepting then [
    .error (Connection.told cs.nextId (ascii "Cannot start, socket not open")),
    .error (told (ascii "Failed to start connection " ++ number)),
    .debug (told (ascii "Removed connection " ++ number ++ ascii ", 0 live"))]
  else
    .warning (told (ascii "Rejecting connection " ++ number ++ ascii " during shutdown")) ::
      (unopened cs.nextId).release

theorem create_none (id : Nat) : Connection.create id none = (unopened id, [made id]) := by
  have htext : ascii "Created for " ++ ascii "unknown" = ascii "Created for unknown" := by decide
  rw [made, ← htext]
  rfl

theorem start_unopened (id : Nat) : (unopened id).start = (false, unopened id,
    [.error (Connection.told id (ascii "Cannot start, socket not open"))]) := rfl

/-- A connection over a socket that is not open is refused. Its number is spent nevertheless, and
if connections are accepted it is kept as one that has ended. -/
theorem add_unopened (h : cs.live = []) : cs.add none = (0,
    { cs with
      nextId := cs.nextId + 1
      finished := if cs.accepting then [unopened cs.nextId] else [] },
    cs.finished.flatMap Connection.release ++ made cs.nextId :: refusal cs) := by
  obtain ⟨readTimeout, nextId, accepting, live, finished⟩ := cs
  subst h
  cases accepting with
  | false => simp [add, reap, create_none, refusal]
  | true =>
    have hzero : Decimal.ofNat 0 = ascii "0" := by
      rw [Decimal.ofNat]
      rfl
    have htext : ascii ", " ++ (ascii "0" ++ ascii " live") = ascii ", 0 live" := by decide
    simp [add, reap, create_none, start_unopened, refusal, remove, Assoc.set, Assoc.erase, hzero,
      htext]

/-- What remains is to give up what has ended, if that was not done before. -/
theorem shutdown_of_vacant (h : cs.live = []) : ∃ records,
    cs.shutdown = ({ cs with accepting := false, finished := [] }, records) ∧
      records.filter tellsMaking = [] := by
  unfold shutdown
  split
  · next hdone =>
    obtain ⟨haccepting, _, hfinished⟩ := hdone
    rw [Bool.not_eq_true] at haccepting
    refine ⟨[], ?_, rfl⟩
    rw [← haccepting, ← hfinished]
  · obtain ⟨n, _, hrounds⟩ := rounds_joinAll { cs with accepting := false }
    have hleft := hrounds.left_eq
    have hjoined := hrounds.records_eq
    rw [h] at hjoined
    refine ⟨_, Prod.ext ?_ rfl, ?_⟩
    · rw [hleft, ← h]
    · rw [h, List.flatMap_nil, List.append_nil, hjoined, List.flatMap_nil, List.append_nil,
        List.filter_append, List.filter_append, filter_release]
      rfl

/-! ## Histories -/

/-- Whether a call shuts everything down. -/
def Call.closes : Call → Bool
  | shutdown _ => true
  | add | remove _ | find _ | awaitIdle _ => false

/-- What calls lead to while no connection is live. -/
structure Leads (cs : Connections) (calls : List Call) (out : Connections × List Record) : Prop where
  vacant : out.1.Vacant
  nextId_eq : out.1.nextId = cs.nextId + calls.count .add
  accepting_eq : out.1.accepting = (cs.accepting && !calls.any Call.closes)
  making_eq : out.2.filter tellsMaking =
    (List.range' cs.nextId (calls.count .add)).map made

namespace Leads

theorem nil (h : cs.Vacant) : Leads cs [] (cs, []) where
  vacant := h
  nextId_eq := rfl
  accepting_eq := (Bool.and_true cs.accepting).symm
  making_eq := rfl

theorem append {more : List Record} {calls' : List Call} {cs'' : Connections}
    (h : Leads cs calls (cs', records)) (h' : Leads cs' calls' (cs'', more)) :
    Leads cs (calls ++ calls') (cs'', records ++ more) where
  vacant := h'.vacant
  nextId_eq := by
    have hfirst := h.nextId_eq
    have hsecond := h'.nextId_eq
    rw [List.count_append]
    dsimp only at hfirst hsecond ⊢
    omega
  accepting_eq := by
    have hfirst := h.accepting_eq
    have hsecond := h'.accepting_eq
    dsimp only at hfirst hsecond ⊢
    rw [hsecond, hfirst, List.any_append, Bool.not_or, Bool.and_assoc]
  making_eq := by
    have hfirst := h.nextId_eq
    dsimp only at hfirst ⊢
    rw [List.filter_append, h.making_eq, h'.making_eq, hfirst, ← List.map_append,
      List.range'_append_1, List.count_append]

end Leads

theorem filter_refusal (cs : Connections) : cs.refusal.filter tellsMaking = [] := by
  have herror (text : Bytes) : ¬ tellsMaking (.error text) = true :=
    not_tellsMaking_of_severity fun h => nomatch h
  have hwarning (text : Bytes) : ¬ tellsMaking (.warning text) = true :=
    not_tellsMaking_of_severity fun h => nomatch h
  have hremoved (text : Bytes) : ¬ tellsMaking (.debug (text ++ ascii ", 0 live")) = true :=
    not_tellsMaking_of_last (List.getLast?_append_of_ne_nil _ (by decide)) (by decide)
  unfold refusal
  split
  · rw [List.filter_cons_of_neg (herror _), List.filter_cons_of_neg (herror _), told,
      ← List.append_assoc, List.filter_cons_of_neg (hremoved _), List.filter_nil]
  · have hreleased := filter_release [unopened cs.nextId]
    rw [List.flatMap_singleton] at hreleased
    rw [List.filter_cons_of_neg (hwarning _), hreleased]

namespace Leads

/-- A call that changes nothing. -/
theorem idle (h : cs.Vacant) (hadd : call ≠ .add) (hopen : call.closes = false) :
    Leads cs [call] (cs, []) where
  vacant := h
  nextId_eq := by simp [hadd]
  accepting_eq := by simp [hopen]
  making_eq := by simp [hadd]

/-- The next number is spent on a connection over a socket that is not open. -/
theorem add (h : cs.Vacant) : Leads cs [.add] (cs.add none).2 := by
  rw [add_unopened h.live_eq]
  refine ⟨⟨h.live_eq, ?_, ?_, ?_⟩, rfl, (Bool.and_true cs.accepting).symm, ?_⟩
  · dsimp only
    split
    · exact Nat.le_refl 1
    · exact Nat.zero_le 1
  · intro hclosed
    dsimp only at hclosed ⊢
    rw [hclosed]
    rfl
  · intro c hc
    dsimp only at hc
    split at hc
    · cases List.mem_singleton.1 hc
      exact ⟨rfl, rfl⟩
    · cases hc
  · dsimp only
    rw [List.filter_append, filter_release, List.filter_cons_of_pos (tellsMaking_made cs.nextId),
      filter_refusal]
    rfl

theorem shutdown (h : cs.Vacant) (grace : Nat) : Leads cs [.shutdown grace] cs.shutdown := by
  obtain ⟨records, hshutdown, hrecords⟩ := shutdown_of_vacant h.live_eq
  rw [hshutdown]
  exact ⟨⟨h.live_eq, Nat.zero_le 1, fun _ => rfl, nofun⟩, rfl, (Bool.and_false cs.accepting).symm,
    hrecords⟩

end Leads

theorem leads_perform (h : cs.Vacant) (call : Call) : Leads cs [call] (cs.perform call) := by
  cases call with
  | add => exact .add h
  | remove id =>
    rw [perform, remove_of_vacant h.live_eq]
    exact .idle h nofun rfl
  | find id => exact .idle h nofun rfl
  | awaitIdle timeout => exact .idle h nofun rfl
  | shutdown grace => exact .shutdown h grace

theorem leads_performAll (h : cs.Vacant) (calls : List Call) :
    Leads cs calls (cs.performAll calls) := by
  induction calls generalizing cs with
  | nil => exact .nil h
  | cons call calls ih =>
    have hfirst := leads_perform h call
    exact hfirst.append (ih hfirst.vacant)

theorem vacant_create (readTimeout : Nat) : (create readTimeout).1.Vacant where
  live_eq := rfl
  finished_le := Nat.zero_le 1
  finished_of_closed _ := rfl
  never_started := nofun

theorem any_closes_iff : calls.any Call.closes = true ↔ ∃ grace, .shutdown grace ∈ calls := by
  rw [List.any_eq_true]
  constructor
  · rintro ⟨call, hmem, hcloses⟩
    cases call with
    | shutdown grace => exact ⟨grace, hmem⟩
    | add | remove _ | find _ | awaitIdle _ => cases hcloses
  · rintro ⟨grace, hmem⟩
    exact ⟨.shutdown grace, hmem, rfl⟩

/-- To shut down ends after one round of waiting at the latest. -/
theorem Vacant.rounds_shutdown (h : cs.Vacant) : ∃ n ≤ 1, ∃ joined,
    Rounds { cs with accepting := false } n cs.shutdown.1 joined := by
  by_cases hdone : ¬ cs.accepting = true ∧ cs.live = [] ∧ cs.finished = []
  · have haccepting : cs.accepting = false := Bool.eq_false_iff.2 hdone.1
    refine ⟨0, Nat.zero_le 1, [], ?_⟩
    rw [shutdown, if_pos hdone, ← haccepting]
    exact .nothing (joinRound_eq_none.2 hdone.2)
  · obtain ⟨n, _, hrounds⟩ := rounds_joinAll { cs with accepting := false }
    rw [shutdown, if_neg hdone]
    exact ⟨n, hrounds.le_one h.live_eq, _, hrounds⟩

/-- What there is to say of the connections that calls have led to, and of the records of the
calls, if no socket was ever open. -/
structure Refuses (calls : List Call) (cs : Connections) (records : List Record) : Prop where
  /-- The connections are made under the numbers from 1 on, and none of them twice. -/
  making_eq : records.filter tellsMaking = (List.range' 1 (calls.count .add)).map made
  making_nodup : (records.filter tellsMaking).Nodup
  nextId_eq : cs.nextId = calls.count .add + 1
  /-- One more is made under the next number, and refused. -/
  add_eq : cs.add none = (0,
    { cs with
      nextId := cs.nextId + 1
      finished := if cs.accepting then [unopened cs.nextId] else [] },
    cs.finished.flatMap Connection.release ++ made cs.nextId :: refusal cs)
  accepting_iff : cs.accepting = true ↔ ¬ ∃ grace, .shutdown grace ∈ calls
  size_eq : cs.size = 0
  contains_eq : ∀ id, cs.contains id = false
  find?_eq : ∀ id, cs.find? id = none
  isIdle_eq : cs.isIdle = true
  finished_le : cs.finished.length ≤ 1
  finished_of_shutdown : (∃ grace, .shutdown grace ∈ calls) → cs.finished = []
  /-- No thread is ever waited for. -/
  never_started : ∀ c ∈ cs.finished, c.isOpen = false ∧ c.active = false
  remove_eq : ∀ id, cs.remove id = (cs, [])
  /-- To shut down comes to an end, and leaves nothing. -/
  shutdown_returns : ∃ n ≤ 1, ∃ joined,
    Rounds { cs with accepting := false } n cs.shutdown.1 joined
  shutdown_leaves : cs.shutdown.1 = { cs with accepting := false, finished := [] }
  shutdown_again : (∃ grace, .shutdown grace ∈ calls) → cs.shutdown = (cs, [])

/-- Whatever is called, in whatever order. -/
theorem performAll_refuses (readTimeout : Nat) (calls : List Call) :
    Refuses calls ((create readTimeout).1.performAll calls).1
      ((create readTimeout).1.performAll calls).2 := by
  have hleads := leads_performAll (vacant_create readTimeout) calls
  generalize (create readTimeout).1.performAll calls = out at hleads
  obtain ⟨cs, records⟩ := out
  obtain ⟨hvacant, hnextId, haccepting, hmaking⟩ := hleads
  dsimp only at hvacant hnextId haccepting hmaking ⊢
  have hclosed : (∃ grace, .shutdown grace ∈ calls) → cs.accepting = false := by
    intro hshut
    rw [haccepting, any_closes_iff.2 hshut, Bool.not_true, Bool.and_false]
  have hdown : (∃ grace, .shutdown grace ∈ calls) → cs.finished = [] :=
    fun hshut => hvacant.finished_of_closed (hclosed hshut)
  obtain ⟨_, hshutdown, _⟩ := shutdown_of_vacant hvacant.live_eq
  exact {
    making_eq := hmaking
    making_nodup := by
      rw [hmaking]
      exact List.Nodup.map made_injective (List.nodup_range' ..)
    nextId_eq := hnextId.trans (Nat.add_comm ..)
    add_eq := add_unopened hvacant.live_eq
    accepting_iff := by
      rw [haccepting, ← any_closes_iff]
      simp [create]
    size_eq := by rw [size, hvacant.live_eq, List.length_nil]
    contains_eq := fun id => by rw [contains, find?, hvacant.live_eq]; rfl
    find?_eq := fun id => by rw [find?, hvacant.live_eq]; rfl
    isIdle_eq := by rw [isIdle, hvacant.live_eq]; rfl
    finished_le := hvacant.finished_le
    finished_of_shutdown := hdown
    never_started := hvacant.never_started
    remove_eq := remove_of_vacant hvacant.live_eq
    shutdown_returns := hvacant.rounds_shutdown
    shutdown_leaves := by rw [hshutdown]
    shutdown_again := fun hshut => by
      rw [shutdown, if_pos ⟨Bool.eq_false_iff.1 (hclosed hshut), hvacant.live_eq, hdown hshut⟩] }

end Gntp.Connections
