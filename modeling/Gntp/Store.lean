import Gntp.Store.Disk
import Gntp.Store.Memory

/-! Where the payloads of resources are kept: in memory, on disk, or nowhere. -/

namespace Gntp

/-- Where the payloads of resources are kept. -/
inductive Store where
  | memory (m : Store.Memory)
  | disk (d : Store.Disk)
  /-- Payloads are read and dropped. -/
  | discard
  deriving DecidableEq

namespace Store

/-- Gives a place to the payload of an identifier. -/
def acquire (suite : Suite) (identifier : Bytes) : Action Store Slot := fun store =>
  match store with
  | memory m => .ok (m.acquire identifier) store
  | discard => .ok { identifier } store
  | disk d =>
    match Disk.acquire suite identifier d with
    | .ok slot d => .ok slot (disk d)
    | .error failure d => .error failure (disk d)

/-- Adds to the payload of a slot. -/
def write (store : Store) (slot : Slot) (data : Bytes) : Slot × Store :=
  match store with
  | disk d => (slot.write data, disk (d.write slot data))
  | store => (slot.write data, store)

/-- Makes the sink of a slot take nothing more. -/
def breakSink (store : Store) (slot : Slot) : Slot × Store :=
  match store with
  | disk d => (slot.breakSink, disk (d.breakSink slot))
  | store => (slot.breakSink, store)

/-- Keeps the payload of a slot, which is complete. -/
def commit (slot : Slot) : Action Store Unit := fun store =>
  match store with
  | memory m =>
    match m.commit slot with
    | .ok m => .ok () (memory m)
    | .error failure => .error failure store
  | discard => .ok () store
  | disk d =>
    match Disk.commit slot d with
    | .ok _ d => .ok () (disk d)
    | .error failure d => .error failure (disk d)

/-- Forgets a slot whose payload did not come or could not be opened. -/
def abandon (store : Store) (slot : Slot) : Store :=
  match store with
  | disk d => disk (d.abandon slot)
  | store => store

/-- Lets go of a slot that is neither committed nor abandoned. -/
def drop (store : Store) (slot : Slot) : Store :=
  match store with
  | disk d => disk (d.drop slot)
  | store => store

end Store

end Gntp
