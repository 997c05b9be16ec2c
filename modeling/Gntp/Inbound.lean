import Gntp.Action
import Gntp.Sealing

/-! What has arrived from a sender and has not been taken yet. Lines, payloads and sealed blocks
of headers are taken from its front; the lines of an opened block are queued and come first. An
action that fails leaves behind it what it has taken. -/

namespace Gntp

/-- What has arrived and has not been taken. -/
structure Inbound where
  unread : Bytes
  /-- Lines of an opened block, the next one first. -/
  queued : List Bytes := []
  /-- How many bytes were taken so far. -/
  consumed : Nat := 0
  deriving DecidableEq

namespace Inbound

open Bytes

/-- The longest line that is accepted, without its line feed. -/
def maxLine : Nat := 64 * 1024

/-- How many bytes of a sealed block are read before its end must have come. -/
def maxSealedBlock : Nat := 4 * 1024 * 1024

/-- How much there is left to take: bytes and queued lines. -/
def remaining (i : Inbound) : Nat := i.unread.length + i.queued.length

/-- Takes the next line without its line end, or nothing if nothing is left. -/
def takeLine : Action Inbound (Option Bytes) := fun i =>
  match i.queued, i.unread with
  | line :: others, _ => .ok (some line) { i with queued := others }
  | [], [] => .ok none i
  | [], b :: rest =>
    let line := (b :: rest).takeWhile (· ≠ lf)
    if maxLine < line.length then
      .error (.rejected .lineTooLong) { i with
        unread := (b :: rest).drop (maxLine + 1)
        consumed := i.consumed + (maxLine + 1) }
    else
      let left := (b :: rest).drop line.length
      .ok (some (dropFinalCr line)) { i with
        unread := left.drop 1
        consumed := i.consumed + (line.length + (left.take 1).length) }

/-- Takes exactly `count` bytes. There are no payloads inside a sealed block. -/
def takeBytes (count : Nat) : Action Inbound Bytes := fun i =>
  if i.queued ≠ [] then .error (.rejected .binaryAmongHeaders) i
  else
    let taken := i.unread.take count
    let left := { i with
      unread := i.unread.drop count
      consumed := i.consumed + taken.length }
    if taken.length < count then
      .error (.truncated (.insidePayload (count - taken.length))) left
    else .ok taken left

/-- What ends a sealed block. -/
def blankLine : Bytes := crlf ++ crlf

/-- The bytes before the first blank line; `done` holds those already passed, last one first. -/
def beforeBlankLine (done : Bytes) (s : Bytes) : Option Bytes :=
  match s with
  | [] => none
  | b :: rest =>
    if blankLine.isPrefixOf s then some done.reverse else beforeBlankLine (b :: done) rest

/-- The lines of a text, without their line ends. -/
def linesOf (text : Bytes) : List Bytes :=
  let fields := splitOn lf text
  (if fields.getLast? = some [] then fields.dropLast else fields).map dropFinalCr

/-- Closes the last block of headers with an empty line if the lines do not end with one. -/
def closed (lines : List Bytes) : List Bytes :=
  if lines.getLast? = some [] then lines else lines ++ [[]]

/-- Takes the sealed block that ends at the first blank line, opens it, and queues its lines. If
nothing is sealed there is nothing to take. -/
def takeSealedBlock (suite : Suite) (sealing : Sealing) : Action Inbound Unit := fun i =>
  if ¬ sealing.enabled then .ok () i
  else
    let window := i.unread.take (maxSealedBlock + 1)
    match beforeBlankLine [] window with
    | some block =>
      let count := block.length + blankLine.length
      let left := { i with unread := i.unread.drop count, consumed := i.consumed + count }
      match sealing.decrypt suite block with
      | .ok text => .ok () { left with queued := closed (i.queued ++ linesOf text) }
      | .error fault => .error (.cipher fault) left
    | none =>
      .error (if window.length ≤ maxSealedBlock then .truncated .insideSealedBlock
          else .rejected .sealedBlockTooLarge) { i with
        unread := i.unread.drop (maxSealedBlock + 1)
        consumed := i.consumed + window.length }

/-- A line that was taken is no longer there. -/
theorem remaining_lt_of_takeLine {i i' : Inbound} {line : Bytes}
    (h : takeLine i = .ok (some line) i') : i'.remaining < i.remaining := by
  obtain ⟨unread, queued, consumed⟩ := i
  match queued, unread with
  | next :: others, _ =>
    cases h
    simp [remaining]
  | [], [] => cases h
  | [], b :: rest =>
    simp only [takeLine] at h
    split at h
    · cases h
    · cases h
      simp only [remaining, List.length_drop, List.length_cons, List.length_nil]
      omega

theorem remaining_le_of_takeBytes {i i' : Inbound} {count : Nat} {data : Bytes}
    (h : takeBytes count i = .ok data i') : i'.remaining ≤ i.remaining := by
  simp only [takeBytes] at h
  split at h
  · cases h
  · split at h
    · cases h
    · cases h
      simp only [remaining, List.length_drop]
      omega

end Inbound

end Gntp
