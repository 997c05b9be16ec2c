import Gntp.Assoc
import Gntp.Failure
import Gntp.Store.Slot

/-! A store in memory. It holds payloads up to a limit; when a new one does not fit, the ones
stored first give way. Beside the payloads it keeps the order in which they were stored and their
length in all. -/

namespace Gntp.Store

structure Memory where
  limit : Nat
  /-- Identifiers with their payloads. -/
  payloads : List (Bytes × Bytes) := []
  /-- The identifiers of the payloads, the one stored first in front. -/
  order : List Bytes := []
  /-- The length of all payloads together, as a machine word. -/
  total : UInt64 := 0
  deriving DecidableEq

namespace Memory

/-- The limit unless another one is given: 64 MiB. -/
def defaultLimit : Nat := 64 * 1024 * 1024

/-- What the location of a payload starts with. -/
def locationLead : Bytes := ascii "memory://"

def get? (m : Memory) (identifier : Bytes) : Option Bytes := m.payloads.lookup identifier

def contains (m : Memory) (identifier : Bytes) : Bool := (m.get? identifier).isSome

def size (m : Memory) : Nat := m.payloads.length

def totalBytes (m : Memory) : Nat := m.total.toNat

/-- Gives a slot with an empty buffer, unless the payload is there already. -/
def acquire (m : Memory) (identifier : Bytes) : Slot :=
  { identifier
    cached := m.contains identifier
    location := locationLead ++ identifier
    sink := if m.contains identifier then none else some (.buffer [] false) }

/-- Drops the payload of an identifier, if it is there. -/
def erase (m : Memory) (identifier : Bytes) : Memory :=
  match m.get? identifier with
  | none => m
  | some payload => { m with
      payloads := Assoc.erase identifier m.payloads
      order := m.order.erase identifier
      total := m.total - UInt64.ofNat payload.length }

/-- Whether so many bytes more do not fit under the limit. -/
def overflows (m : Memory) (need : Nat) : Bool := m.limit < (m.total + UInt64.ofNat need).toNat

/-- Drops payloads, the one stored first in front, until `need` more bytes fit. -/
def evict (need : Nat) : List Bytes → Memory → Memory
  | [], m => m
  | oldest :: younger, m => if m.overflows need then evict need younger (m.erase oldest) else m

/-- Adds a payload behind all others. -/
def insert (m : Memory) (identifier payload : Bytes) : Memory := { m with
  payloads := Assoc.set identifier payload m.payloads
  order := m.order ++ [identifier]
  total := m.total + UInt64.ofNat payload.length }

/-- Stores what the slot has received, in place of an older payload of the same identifier. A
payload over the limit is dropped. -/
def commit (m : Memory) (slot : Slot) : Except Failure Memory :=
  match slot.sink with
  | some (.buffer payload _) =>
    let others := m.erase slot.identifier
    if m.limit < payload.length then .ok others
    else .ok ((evict payload.length others.order others).insert slot.identifier payload)
  | _ => .error (.slotWithoutBuffer slot.identifier)

end Memory

end Gntp.Store
