import Gntp.Assoc
import Gntp.Failure

/-! A block of headers: keys with values, in the order in which the keys first came. -/

namespace Gntp

structure Headers where
  entries : List (Bytes × Bytes) := []
  deriving DecidableEq

namespace Headers

/-- Gives a key a value. A key that is there already keeps its place. -/
def set (h : Headers) (key value : Bytes) : Headers := ⟨Assoc.set key value h.entries⟩

def get? (h : Headers) (key : Bytes) : Option Bytes := h.entries.lookup key

def getD (h : Headers) (key fallback : Bytes) : Bytes := (h.get? key).getD fallback

def contains (h : Headers) (key : Bytes) : Bool := (h.get? key).isSome

def size (h : Headers) : Nat := h.entries.length

def isEmpty (h : Headers) : Bool := h.entries.isEmpty

/-- The block of these keys and values, set one after the other. -/
def ofList (entries : List (Bytes × Bytes)) : Headers :=
  entries.foldl (fun h (key, value) => h.set key value) {}

/-- Reads a header line: the key stands before the first colon, the value after it, without the
blanks around it. -/
def parseLine (line : Bytes) : Except Rejection (Bytes × Bytes) :=
  match Bytes.cutAt 0x3a line with
  | none => .error (.headerWithoutColon line)
  | some ([], _) => .error (.emptyHeaderName line)
  | some (key, value) => .ok (key, Bytes.trim value)

/-- Reads a header line into the block, and returns what was read. -/
def record (h : Headers) (line : Bytes) : Except Rejection ((Bytes × Bytes) × Headers) := do
  let (key, value) ← parseLine line
  return ((key, value), h.set key value)

/-- What a value starts with that refers to a resource sent with the request. -/
def referenceLead : Bytes := ascii "x-growl-resource://"

/-- The identifier of the resource that a value refers to. -/
def reference? (value : Bytes) : Except Rejection (Option Bytes) :=
  match referenceLead.isPrefixOf? value with
  | none => .ok none
  | some [] => .error .emptyReference
  | some identifier => .ok (some identifier)

/-- A value that means yes. -/
def isTrue (value : Bytes) : Bool :=
  Bytes.equalsIgnoringCase value (ascii "true") || Bytes.equalsIgnoringCase value (ascii "yes")

end Headers

end Gntp
