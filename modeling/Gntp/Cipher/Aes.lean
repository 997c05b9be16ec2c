import Gntp.Words

/-! The block cipher AES with a key of 24 bytes. The state is four columns of four bytes, the
first byte of a column being the high byte of its word. -/

namespace Gntp.Cipher.Aes

open Bytes Words

/-- Each of the four bytes of a word times x in the field with 256 elements. A bit that leaves a
byte at its high end comes back as the low terms of the field's polynomial. -/
def double (w : UInt32) : UInt32 :=
  let out := (w >>> 7) &&& 0x01010101
  ((w &&& 0x7f7f7f7f) <<< 1) ^^^ out ^^^ (out <<< 1) ^^^ (out <<< 3) ^^^ (out <<< 4)

/-- A single field element times x. -/
def twice (a : Nat) : Nat := 2 * a ^^^ a / 128 * 0x11b

/-- The product of two field elements, the second one of so many bits. -/
def times (bits a b : Nat) : Nat :=
  match bits with
  | 0 => 0
  | bits + 1 => b % 2 * a ^^^ times bits (twice a) (b / 2)

/-- The product of a field element with the square of another one, the square of that and so on. -/
def timesSquares (count product a : Nat) : Nat :=
  match count with
  | 0 => product
  | count + 1 =>
    let square := times 8 a a
    timesSquares count (times 8 product square) square

/-- The inverse of a field element, which is its power 2 + 4 + ... + 128; zero stays zero. -/
def inverse (a : Nat) : Nat := timesSquares 7 1 a

/-- The substitution: inversion followed by an affine map of the eight bits. -/
def substitute (a : Nat) : UInt8 :=
  let b := UInt8.ofNat (inverse a)
  let turn (n : UInt8) := b <<< n ||| b >>> (8 - n)
  b ^^^ turn 1 ^^^ turn 2 ^^^ turn 3 ^^^ turn 4 ^^^ 0x63

def sbox : Array UInt8 := ((List.range 256).map substitute).toArray

def inverseSbox : Array UInt8 :=
  (List.range 256).foldl (fun table a => table.setIfInBounds (sbox.getD a 0).toNat (UInt8.ofNat a))
    (Array.replicate 256 0)

/-- The word whose bytes, from the high one down, are the substitutes of the first byte of `w`,
the second of `x`, the third of `y` and the last of `z`. -/
def gather (table : Array UInt8) (w x y z : UInt32) : UInt32 :=
  let at8 (v : UInt32) : UInt32 := (table.getD v.toUInt8.toNat 0).toUInt32
  at8 (w >>> 24) <<< 24 ||| at8 (x >>> 16) <<< 16 ||| at8 (y >>> 8) <<< 8 ||| at8 z

/-- Mixes the bytes of a column with the weights 2, 3, 1, 1. -/
def mixColumn (w : UInt32) : UInt32 :=
  let d := double w
  d ^^^ rotateLeft32 (d ^^^ w) 8 ^^^ rotateLeft32 w 16 ^^^ rotateLeft32 w 24

/-- Undoes `mixColumn`, whose fourth power is the identity. -/
def unmixColumn (w : UInt32) : UInt32 := mixColumn (mixColumn (mixColumn w))

structure State where
  c0 : UInt32
  c1 : UInt32
  c2 : UInt32
  c3 : UInt32

namespace State

def ofBytes (block : Bytes) : State :=
  ⟨word32 (block.take 4), word32 ((block.drop 4).take 4), word32 ((block.drop 8).take 4),
    word32 ((block.drop 12).take 4)⟩

def toBytes (s : State) : Bytes := bytes32 s.c0 ++ bytes32 s.c1 ++ bytes32 s.c2 ++ bytes32 s.c3

/-- Adds the four words of the round key of a round. -/
def addKey (keys : Array UInt32) (s : State) (round : Nat) : State :=
  ⟨s.c0 ^^^ keys.getD (4 * round) 0, s.c1 ^^^ keys.getD (4 * round + 1) 0,
    s.c2 ^^^ keys.getD (4 * round + 2) 0, s.c3 ^^^ keys.getD (4 * round + 3) 0⟩

/-- Substitutes every byte and turns the rows. -/
def shift (s : State) : State :=
  ⟨gather sbox s.c0 s.c1 s.c2 s.c3, gather sbox s.c1 s.c2 s.c3 s.c0,
    gather sbox s.c2 s.c3 s.c0 s.c1, gather sbox s.c3 s.c0 s.c1 s.c2⟩

/-- Turns the rows back and undoes the substitution. -/
def unshift (s : State) : State :=
  ⟨gather inverseSbox s.c0 s.c3 s.c2 s.c1, gather inverseSbox s.c1 s.c0 s.c3 s.c2,
    gather inverseSbox s.c2 s.c1 s.c0 s.c3, gather inverseSbox s.c3 s.c2 s.c1 s.c0⟩

def map (f : UInt32 → UInt32) (s : State) : State := ⟨f s.c0, f s.c1, f s.c2, f s.c3⟩

end State

/-- The 52 words of the thirteen round keys. -/
def expandKey (key : Bytes) : Array UInt32 :=
  (List.range 46).foldl (fun w i =>
    let last := w.getD (i + 5) 0
    let round := UInt32.ofNat (i / 6)
    let next :=
      if i % 6 = 0 then
        let turned := rotateLeft32 last 8
        gather sbox turned turned turned turned ^^^ (1 <<< round) <<< 24
      else last
    w.push (w.getD i 0 ^^^ next)) ((chunks 4 key).map word32).toArray

/-- The rounds between the first and the last. -/
def middleRounds : List Nat := [1, 2, 3, 4, 5, 6, 7, 8, 9, 10, 11]

def encryptBlock (keys : Array UInt32) (block : Bytes) : Bytes :=
  let start := (State.ofBytes block).addKey keys 0
  let s := middleRounds.foldl (fun s round => (s.shift.map mixColumn).addKey keys round) start
  (s.shift.addKey keys 12).toBytes

def decryptBlock (keys : Array UInt32) (block : Bytes) : Bytes :=
  let start := ((State.ofBytes block).addKey keys 12).unshift
  let s := middleRounds.reverse.foldl
    (fun s round => ((s.addKey keys round).map unmixColumn).unshift) start
  (s.addKey keys 0).toBytes

end Gntp.Cipher.Aes
