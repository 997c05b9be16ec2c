/-! Byte strings and the few operations on them that GNTP needs: trimming, splitting on one
byte, cutting at the first occurrence of a byte, comparison without regard to ASCII case, and
cutting into blocks. Lists that can be as long as a message are walked by loops. -/

namespace Gntp

/-- A byte string: whatever stands on the wire, in a header or on the command line. -/
abbrev Bytes := List UInt8

/-- The bytes of an ASCII text. -/
def ascii (text : String) : Bytes := text.toList.map fun c => UInt8.ofNat c.toNat

namespace Bytes

def lf : UInt8 := 0x0a

def cr : UInt8 := 0x0d

/-- The line end of everything this library writes. -/
def crlf : Bytes := [cr, lf]

/-- Tab, line feed, vertical tab, form feed, carriage return and space. -/
def isBlank (b : UInt8) : Bool := b == 0x20 || (0x09 ≤ b && b ≤ 0x0d)

def trimStart (s : Bytes) : Bytes := s.dropWhile isBlank

def trimEnd (s : Bytes) : Bytes := (s.reverse.dropWhile isBlank).reverse

def trim (s : Bytes) : Bytes := trimStart (trimEnd s)

/-- The first field, and the fields after it, of a text whose fields are separated by `sep`. -/
def fieldsOf (sep : UInt8) (s : Bytes) : Bytes × List Bytes :=
  s.foldr (fun b (first, others) =>
    if b = sep then ([], first :: others) else (b :: first, others)) ([], [])

/-- Every `sep` separates, so empty fields are kept and there is always at least one field. -/
def splitOn (sep : UInt8) (s : Bytes) : List Bytes :=
  (fieldsOf sep s).1 :: (fieldsOf sep s).2

/-- The parts before and after the first `sep`, if there is one. -/
def cutAt (sep : UInt8) (s : Bytes) : Option (Bytes × Bytes) :=
  match s.dropWhile (· ≠ sep) with
  | [] => none
  | _ :: after => some (s.takeWhile (· ≠ sep), after)

/-- The part of a text that a reader of NUL-terminated text sees. -/
def upToNul (s : Bytes) : Bytes := s.takeWhile (· ≠ 0)

/-- An ASCII capital as its small letter; any other byte as itself. -/
def lower (b : UInt8) : UInt8 := if 0x41 ≤ b ∧ b ≤ 0x5a then b + 0x20 else b

/-- Equality up to the case of ASCII letters. -/
def equalsIgnoringCase (s t : Bytes) : Bool := s.map lower == t.map lower

/-- One trailing carriage return is part of the line end. -/
def dropFinalCr (line : Bytes) : Bytes :=
  if line.getLast? = some cr then line.dropLast else line

/-- Consecutive blocks of `size` bytes, the last one shorter if need be; `done` holds the
blocks already cut, last one first. -/
def chunksAfter (size : Nat) (done : List Bytes) (s : Bytes) : List Bytes :=
  match s with
  | [] => done.reverse
  | b :: rest => chunksAfter size ((b :: rest.take (size - 1)) :: done) (rest.drop (size - 1))
termination_by s.length
decreasing_by simp only [List.length_drop, List.length_cons]; omega

/-- Consecutive blocks of `size` bytes, the last one shorter if need be. -/
def chunks (size : Nat) (s : Bytes) : List Bytes := chunksAfter size [] s

/-- Bytewise exclusive or, up to the end of the shorter text. -/
def xor (s t : Bytes) : Bytes := s.zipWith (· ^^^ ·) t

end Bytes

end Gntp
