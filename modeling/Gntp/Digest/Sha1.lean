import Gntp.Digest.Padding

/-! The secure hash SHA-1. -/

namespace Gntp.Digest.Sha1

open Bytes Words

structure State where
  a : UInt32
  b : UInt32
  c : UInt32
  d : UInt32
  e : UInt32

def initial : State := ⟨0x67452301, 0xefcdab89, 0x98badcfe, 0x10325476, 0xc3d2e1f0⟩

/-- The sixteen words of a block continued to one word per step. -/
def schedule (block : Bytes) : Array UInt32 :=
  (List.range 64).foldl (fun w i =>
    w.push (rotateLeft32 (w.getD (i + 13) 0 ^^^ w.getD (i + 8) 0 ^^^ w.getD (i + 2) 0 ^^^
      w.getD i 0) 1)) ((chunks 4 block).map word32).toArray

/-- The mixing function and the added constant of step `i`. -/
def mix (i : Nat) (b c d : UInt32) : UInt32 × UInt32 :=
  if i < 20 then ((b &&& c) ||| (~~~b &&& d), 0x5a827999)
  else if i < 40 then (b ^^^ c ^^^ d, 0x6ed9eba1)
  else if i < 60 then ((b &&& c) ||| (b &&& d) ||| (c &&& d), 0x8f1bbcdc)
  else (b ^^^ c ^^^ d, 0xca62c1d6)

def step (words : Array UInt32) (s : State) (i : Nat) : State :=
  let (f, k) := mix i s.b s.c s.d
  ⟨rotateLeft32 s.a 5 + f + s.e + k + words.getD i 0, s.a, rotateLeft32 s.b 30, s.c, s.d⟩

def compress (s : State) (block : Bytes) : State :=
  let t := (List.range 80).foldl (step (schedule block)) s
  ⟨s.a + t.a, s.b + t.b, s.c + t.c, s.d + t.d, s.e + t.e⟩

def hash (message : Bytes) : Bytes :=
  let length := bytes64 (UInt64.ofNat (8 * message.length))
  let s := (chunks 64 (padded 64 length message)).foldl compress initial
  [s.a, s.b, s.c, s.d, s.e].flatMap bytes32

end Gntp.Digest.Sha1
