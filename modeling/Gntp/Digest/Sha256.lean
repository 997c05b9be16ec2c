import Gntp.Digest.Padding

/-! The secure hash SHA-256. -/

namespace Gntp.Digest.Sha256

open Bytes Words

structure State where
  a : UInt32
  b : UInt32
  c : UInt32
  d : UInt32
  e : UInt32
  f : UInt32
  g : UInt32
  h : UInt32

/-- The state before the first block: fractions of the square roots of the first eight primes. -/
def initial : State := ⟨
  0x6a09e667, 0xbb67ae85, 0x3c6ef372, 0xa54ff53a,
  0x510e527f, 0x9b05688c, 0x1f83d9ab, 0x5be0cd19⟩

/-- The added constant of each step: fractions of the cube roots of the first 64 primes. -/
def cubeRoots : Array UInt32 := #[
  0x428a2f98, 0x71374491, 0xb5c0fbcf, 0xe9b5dba5, 0x3956c25b, 0x59f111f1, 0x923f82a4, 0xab1c5ed5,
  0xd807aa98, 0x12835b01, 0x243185be, 0x550c7dc3, 0x72be5d74, 0x80deb1fe, 0x9bdc06a7, 0xc19bf174,
  0xe49b69c1, 0xefbe4786, 0x0fc19dc6, 0x240ca1cc, 0x2de92c6f, 0x4a7484aa, 0x5cb0a9dc, 0x76f988da,
  0x983e5152, 0xa831c66d, 0xb00327c8, 0xbf597fc7, 0xc6e00bf3, 0xd5a79147, 0x06ca6351, 0x14292967,
  0x27b70a85, 0x2e1b2138, 0x4d2c6dfc, 0x53380d13, 0x650a7354, 0x766a0abb, 0x81c2c92e, 0x92722c85,
  0xa2bfe8a1, 0xa81a664b, 0xc24b8b70, 0xc76c51a3, 0xd192e819, 0xd6990624, 0xf40e3585, 0x106aa070,
  0x19a4c116, 0x1e376c08, 0x2748774c, 0x34b0bcb5, 0x391c0cb3, 0x4ed8aa4a, 0x5b9cca4f, 0x682e6ff3,
  0x748f82ee, 0x78a5636f, 0x84c87814, 0x8cc70208, 0x90befffa, 0xa4506ceb, 0xbef9a3f7, 0xc67178f2]

def mixA (x : UInt32) : UInt32 := rotateRight32 x 2 ^^^ rotateRight32 x 13 ^^^ rotateRight32 x 22

def mixE (x : UInt32) : UInt32 := rotateRight32 x 6 ^^^ rotateRight32 x 11 ^^^ rotateRight32 x 25

def spreadOld (x : UInt32) : UInt32 := rotateRight32 x 7 ^^^ rotateRight32 x 18 ^^^ x >>> 3

def spreadNew (x : UInt32) : UInt32 := rotateRight32 x 17 ^^^ rotateRight32 x 19 ^^^ x >>> 10

/-- The sixteen words of a block continued to one word per step. -/
def schedule (block : Bytes) : Array UInt32 :=
  (List.range 48).foldl (fun w i =>
    w.push (spreadNew (w.getD (i + 14) 0) + w.getD (i + 9) 0 + spreadOld (w.getD (i + 1) 0) +
      w.getD i 0)) ((chunks 4 block).map word32).toArray

def step (words : Array UInt32) (s : State) (i : Nat) : State :=
  let choice := (s.e &&& s.f) ^^^ (~~~s.e &&& s.g)
  let majority := (s.a &&& s.b) ^^^ (s.a &&& s.c) ^^^ (s.b &&& s.c)
  let t := s.h + mixE s.e + choice + cubeRoots.getD i 0 + words.getD i 0
  ⟨t + mixA s.a + majority, s.a, s.b, s.c, s.d + t, s.e, s.f, s.g⟩

def compress (s : State) (block : Bytes) : State :=
  let t := (List.range 64).foldl (step (schedule block)) s
  ⟨s.a + t.a, s.b + t.b, s.c + t.c, s.d + t.d, s.e + t.e, s.f + t.f, s.g + t.g, s.h + t.h⟩

def hash (message : Bytes) : Bytes :=
  let length := bytes64 (UInt64.ofNat (8 * message.length))
  let s := (chunks 64 (padded 64 length message)).foldl compress initial
  [s.a, s.b, s.c, s.d, s.e, s.f, s.g, s.h].flatMap bytes32

end Gntp.Digest.Sha256
