import Gntp.Assoc
import Gntp.Connection

/-! The connections of a listener. A connection is live from its start to its end; one that has
ended is kept until its thread was waited for. -/

namespace Gntp

structure Connections where
  /-- How long a connection may be idle, in seconds. -/
  readTimeout : Nat := 0
  nextId : Nat := 1
  accepting : Bool := true
  live : List (Nat × Connection) := []
  /-- Connections that have ended. -/
  finished : List Connection := []
  deriving DecidableEq

namespace Connections

/-- The text of a record of the connections as a whole. -/
def told (text : Bytes) : Bytes := ascii "Connection manager: " ++ text

def create (readTimeout : Nat) : Connections × List Record :=
  ({ readTimeout }, [.info (told (ascii "Initialized with read timeout " ++
    Decimal.ofNat readTimeout ++ ascii "s"))])

/-- Gives up the connections that have ended. -/
def reap (cs : Connections) : Connections × List Record :=
  ({ cs with finished := [] }, cs.finished.flatMap Connection.release)

/-- Takes a connection out of the live ones. -/
def remove (cs : Connections) (id : Nat) : Connections × List Record :=
  match cs.live.lookup id with
  | none => (cs, [])
  | some connection =>
    let live := Assoc.erase id cs.live
    ({ cs with live, finished := cs.finished ++ [connection] },
      [.debug (told (ascii "Removed connection " ++ Decimal.ofNat id ++ ascii ", " ++
        Decimal.ofNat live.length ++ ascii " live"))])

/-- Adds a connection over a socket and starts it. The answer is its number, or 0 if no more
connections are accepted or it does not start. -/
def add (cs : Connections) (peer : Option Bytes) : Nat × Connections × List Record :=
  let (cs, reaped) := cs.reap
  let id := cs.nextId
  let cs := { cs with nextId := id + 1 }
  let (connection, created) := Connection.create id peer
  if ¬ cs.accepting then
    (0, cs, reaped ++ created ++
      [.warning (told (ascii "Rejecting connection " ++ Decimal.ofNat id ++
        ascii " during shutdown"))] ++ connection.release)
  else match connection.start with
    | (true, connection, started) =>
      (id, { cs with live := Assoc.set id connection cs.live }, reaped ++ created ++ started)
    | (false, connection, refused) =>
      let (cs, removed) := { cs with live := Assoc.set id connection cs.live }.remove id
      (0, cs, reaped ++ created ++ refused ++
        [.error (told (ascii "Failed to start connection " ++ Decimal.ofNat id))] ++ removed)

def find? (cs : Connections) (id : Nat) : Option Connection := cs.live.lookup id

def contains (cs : Connections) (id : Nat) : Bool := (cs.find? id).isSome

def size (cs : Connections) : Nat := cs.live.length

def isIdle (cs : Connections) : Bool := cs.live.isEmpty

/-- A round of waiting for everything that has ended or is still live, or `none` if that is
nothing. What had ended before is given up; what was live has ended by then. -/
def joinRound (cs : Connections) : Option (Connections × List Record) :=
  if cs.live = [] ∧ cs.finished = [] then none
  else some ({ cs with live := [], finished := cs.live.map (·.2) },
    cs.finished.flatMap Connection.release)

/-- How much there is to wait for: a live connection until it ends, and then once more. -/
def awaited (cs : Connections) : Nat := 2 * cs.live.length + cs.finished.length

theorem awaited_lt_of_joinRound {cs cs' : Connections} {records : List Record}
    (h : cs.joinRound = some (cs', records)) : cs'.awaited < cs.awaited := by
  unfold joinRound at h
  split at h
  · cases h
  · next hsome =>
    cases h
    rw [← List.length_eq_zero_iff, ← List.length_eq_zero_iff] at hsome
    simp only [awaited, List.length_nil, List.length_map]
    omega

/-- Waits round after round until nothing is left. -/
def joinAll (cs : Connections) : Connections × List Record :=
  match _h : cs.joinRound with
  | none => (cs, [])
  | some (cs', records) =>
    let (left, more) := joinAll cs'
    (left, records ++ more)
termination_by cs.awaited
decreasing_by exact awaited_lt_of_joinRound _h

/-- Accepts no more connections, closes the live ones and waits for all of them. There is nothing
to do if that was done before and nothing is left. -/
def shutdown (cs : Connections) : Connections × List Record :=
  if ¬ cs.accepting ∧ cs.live = [] ∧ cs.finished = [] then (cs, [])
  else
    let (left, joined) := joinAll { cs with accepting := false }
    (left,
      [.info (told (ascii "Closing " ++ Decimal.ofNat cs.size ++ ascii " live connections"))] ++
      cs.live.flatMap (fun entry => entry.2.close) ++ joined ++
      [.info (told (ascii "Shutdown complete"))])

end Connections

end Gntp
