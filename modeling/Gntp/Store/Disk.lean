import Gntp.Action
import Gntp.Files
import Gntp.Hex
import Gntp.Keyring
import Gntp.Store.Slot

/-! A store on disk. A payload has its place under the SHA-256 hash of its identifier, cut into
three directory names and a file name. It is received in a partial file beside that place and
moved there when it is complete. -/

namespace Gntp.Store

/-- A partial file that is being written. -/
structure PartFile where
  /-- The place of the complete payload. -/
  target : Path
  path : Path
  serial : Nat
  /-- How much was written to the file. -/
  offset : Nat := 0
  /-- What has still to be written to the file. -/
  buffered : Bytes := []
  /-- A broken file takes nothing more and cannot be moved into place. -/
  broken : Bool := false
  deriving DecidableEq

structure Disk where
  /-- The base directory as it was named. -/
  base : Bytes
  root : Path
  files : Files
  /-- The number of the next partial file. -/
  nextPart : Nat := 0
  /-- The partial files of slots that were neither committed nor abandoned. -/
  parts : List (Nat × PartFile) := []
  deriving DecidableEq

namespace Disk

/-- The path of a base directory, which is created unless something stands there. -/
def prepareBase (base : Bytes) : Action Files Path := fun files =>
  match files.resolve base, files.find? base with
  | .ok path, some _ => .ok path files
  | _, _ =>
    match Files.createNamed base files with
    | .ok path files => .ok path files
    | .error _ files => .error .fileSystem files

/-- The hash of an identifier in hexadecimal. -/
def hashKey (suite : Suite) (identifier : Bytes) : Except Failure Bytes :=
  match suite.digest .sha256 with
  | none => .error (.store .keyNotHashed)
  | some hash => .ok (Hex.encode (hash identifier))

/-- The names under the base directory that a hash is cut into. -/
def namesOf (hash : Bytes) : List Bytes :=
  [hash.take 2, (hash.drop 2).take 2, (hash.drop 4).take 2, hash.drop 6]

/-- A name behind a directory name. -/
def join (directory name : Bytes) : Bytes :=
  if directory = [] ∨ directory.getLast? = some Files.slash then directory ++ name
  else directory ++ Files.slash :: name

/-- The path text of these names under the base directory. -/
def locate (d : Disk) (names : List Bytes) : Bytes := names.foldl join d.base

/-- Where the payload of an identifier has its place, whether or not it is there. -/
def location (suite : Suite) (d : Disk) (identifier : Bytes) : Except Failure Bytes := do
  return d.locate (namesOf (← hashKey suite identifier))

/-- Whether the payload of an identifier is there. -/
def contains (suite : Suite) (d : Disk) (identifier : Bytes) : Except Failure Bool := do
  return (d.files.nodeAt? (d.root ++ namesOf (← hashKey suite identifier))).isSome

/-- What the name of a partial file ends with. -/
def partSuffix (number : Nat) : Bytes := ascii "." ++ Decimal.ofNat number ++ ascii ".part"

def partPath (target : Path) (number : Nat) : Path :=
  target.dropLast ++ [target.getLast?.getD [] ++ partSuffix number]

/-- Creates the directories above a path unless something stands at its parent. -/
def prepare (d : Disk) (target : Path) : Except Disk Disk :=
  if (d.files.nodeAt? target.dropLast).isSome then .ok d
  else match Files.createDirectories target.dropLast d.files with
    | .ok _ files => .ok { d with files }
    | .error _ files => .error { d with files }

/-- Gives a slot with a new partial file, unless the payload is there already. -/
def acquire (suite : Suite) (identifier : Bytes) : Action Disk Slot := fun d =>
  match hashKey suite identifier with
  | .error failure => .error failure d
  | .ok hash =>
    let target := d.root ++ namesOf hash
    let location := d.locate (namesOf hash)
    if (d.files.nodeAt? target).isSome then .ok { identifier, cached := true, location } d
    else match d.prepare target with
      | .error d => .error .fileSystem d
      | .ok d =>
        let number := d.nextPart
        let path := partPath target number
        match d.files.openEmpty? path with
        | none =>
          .error (.store (.fileNotCreated (location ++ partSuffix number)))
            { d with nextPart := number + 1 }
        | some (serial, files) =>
          .ok { identifier, location, sink := some (.part number) } { d with
            files
            nextPart := number + 1
            parts := d.parts ++ [(number, { target, path, serial })] }

/-- The partial file of a slot that was neither committed nor abandoned, and its number. -/
def part? (d : Disk) (slot : Slot) : Option (Nat × PartFile) :=
  match slot.sink with
  | some (.part number) => (d.parts.lookup number).map fun part => (number, part)
  | _ => none

/-- How many bytes of a partial file are held back at most before they are written to it. -/
def bufferSize : Nat := 8190

/-- The length from which on a piece of a payload is never held back. -/
def directSize : Nat := 1024

/-- Whether a piece of this length is held back behind what is buffered already. A piece that is
not goes to the file at once, and all that was buffered before it. -/
def holdsBack (buffered length : Nat) : Bool :=
  length < directSize && buffered + length ≤ bufferSize

/-- The files with everything written to a partial file. -/
def flushed (files : Files) (part : PartFile) : Files :=
  if part.buffered = [] then files else files.writeAt part.serial part.offset part.buffered

/-- Writes to a partial file what is still buffered. -/
def flushPart (d : Disk) (number : Nat) (part : PartFile) : Disk :=
  { d with
    files := flushed d.files part
    parts := Assoc.set number
      { part with offset := part.offset + part.buffered.length, buffered := [] } d.parts }

/-- Adds to the payload of a slot. -/
def write (d : Disk) (slot : Slot) (data : Bytes) : Disk :=
  match d.part? slot with
  | none => d
  | some (number, part) =>
    if part.broken then d
    else
      let filled := { part with buffered := part.buffered ++ data }
      if holdsBack part.buffered.length data.length then
        { d with parts := Assoc.set number filled d.parts }
      else d.flushPart number filled

/-- Makes the partial file of a slot take nothing more. -/
def breakSink (d : Disk) (slot : Slot) : Disk :=
  match d.part? slot with
  | none => d
  | some (number, part) => { d with parts := Assoc.set number { part with broken := true } d.parts }

/-- Writes to the files what is still buffered. -/
def flush (d : Disk) : Disk :=
  d.parts.foldl (fun d (number, part) => if part.broken then d else d.flushPart number part) d

/-- Closes the partial file of a slot that was neither committed nor abandoned. -/
def close? (d : Disk) (slot : Slot) : Option (PartFile × Disk) :=
  (d.part? slot).map fun (number, part) =>
    (part, { d with files := flushed d.files part, parts := Assoc.erase number d.parts })

/-- Closes the partial file of a slot that is given up without a word. The file stays. -/
def drop (d : Disk) (slot : Slot) : Disk :=
  match d.close? slot with
  | none => d
  | some (_, d) => d

/-- Moves the partial file of a slot into place. -/
def commit (slot : Slot) : Action Disk Unit := fun d =>
  match d.close? slot with
  | none => .error (.store (.foreignSlot slot.identifier)) d
  | some (part, d) =>
    if part.broken then
      .error (.store (.payloadNotWritten slot.identifier))
        { d with files := d.files.remove part.path }
    else match d.files.move part.path part.target with
      | .ok files => .ok () { d with files }
      | .error fault => .error (.store (.payloadNotMoved slot.identifier fault)) d

/-- Takes the partial file of a slot away. -/
def abandon (d : Disk) (slot : Slot) : Disk :=
  match d.close? slot with
  | none => d
  | some (part, d) => { d with files := d.files.remove part.path }

end Disk

end Gntp.Store
