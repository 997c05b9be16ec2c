import Gntp.Words

/-! The block cipher DES, also three times in a row with three keys. Positions in the tables
count from one at the high end of a word, as in the standard. -/

namespace Gntp.Cipher.Des

open Bytes Words

/-- The word whose bits, from the high one down, stand at these positions of a word of `width`
bits. -/
def select (width : Nat) (positions : List Nat) (x : UInt64) : UInt64 :=
  positions.foldl (fun y p => y <<< 1 ||| (x >>> UInt64.ofNat (width - p) &&& 1)) 0

def initialPermutation : List Nat := [
  58, 50, 42, 34, 26, 18, 10, 2, 60, 52, 44, 36, 28, 20, 12, 4,
  62, 54, 46, 38, 30, 22, 14, 6, 64, 56, 48, 40, 32, 24, 16, 8,
  57, 49, 41, 33, 25, 17, 9, 1, 59, 51, 43, 35, 27, 19, 11, 3,
  61, 53, 45, 37, 29, 21, 13, 5, 63, 55, 47, 39, 31, 23, 15, 7]

def finalPermutation : List Nat := [
  40, 8, 48, 16, 56, 24, 64, 32, 39, 7, 47, 15, 55, 23, 63, 31,
  38, 6, 46, 14, 54, 22, 62, 30, 37, 5, 45, 13, 53, 21, 61, 29,
  36, 4, 44, 12, 52, 20, 60, 28, 35, 3, 43, 11, 51, 19, 59, 27,
  34, 2, 42, 10, 50, 18, 58, 26, 33, 1, 41, 9, 49, 17, 57, 25]

/-- Where the 32 bits that leave the substitution boxes go. -/
def roundPermutation : List Nat := [
  16, 7, 20, 21, 29, 12, 28, 17, 1, 15, 23, 26, 5, 18, 31, 10,
  2, 8, 24, 14, 32, 27, 3, 9, 19, 13, 30, 6, 22, 11, 4, 25]

/-- The 56 key bits that count; the others are parity bits. -/
def keyChoice : List Nat := [
  57, 49, 41, 33, 25, 17, 9, 1, 58, 50, 42, 34, 26, 18,
  10, 2, 59, 51, 43, 35, 27, 19, 11, 3, 60, 52, 44, 36,
  63, 55, 47, 39, 31, 23, 15, 7, 62, 54, 46, 38, 30, 22,
  14, 6, 61, 53, 45, 37, 29, 21, 13, 5, 28, 20, 12, 4]

/-- The 48 bits of the turned halves that form a round key. -/
def roundKeyChoice : List Nat := [
  14, 17, 11, 24, 1, 5, 3, 28, 15, 6, 21, 10,
  23, 19, 12, 4, 26, 8, 16, 7, 27, 20, 13, 2,
  41, 52, 31, 37, 47, 55, 30, 40, 51, 45, 33, 48,
  44, 49, 39, 56, 34, 53, 46, 42, 50, 36, 29, 32]

/-- By how many bits the key halves have turned in each of the sixteen rounds. -/
def turns : List Nat := [1, 2, 4, 6, 8, 10, 12, 14, 15, 17, 19, 21, 23, 25, 27, 28]

/-- The eight substitution boxes, four rows of sixteen entries each. -/
def boxes : Array UInt64 := #[
  14, 4, 13, 1, 2, 15, 11, 8, 3, 10, 6, 12, 5, 9, 0, 7,
  0, 15, 7, 4, 14, 2, 13, 1, 10, 6, 12, 11, 9, 5, 3, 8,
  4, 1, 14, 8, 13, 6, 2, 11, 15, 12, 9, 7, 3, 10, 5, 0,
  15, 12, 8, 2, 4, 9, 1, 7, 5, 11, 3, 14, 10, 0, 6, 13,
  15, 1, 8, 14, 6, 11, 3, 4, 9, 7, 2, 13, 12, 0, 5, 10,
  3, 13, 4, 7, 15, 2, 8, 14, 12, 0, 1, 10, 6, 9, 11, 5,
  0, 14, 7, 11, 10, 4, 13, 1, 5, 8, 12, 6, 9, 3, 2, 15,
  13, 8, 10, 1, 3, 15, 4, 2, 11, 6, 7, 12, 0, 5, 14, 9,
  10, 0, 9, 14, 6, 3, 15, 5, 1, 13, 12, 7, 11, 4, 2, 8,
  13, 7, 0, 9, 3, 4, 6, 10, 2, 8, 5, 14, 12, 11, 15, 1,
  13, 6, 4, 9, 8, 15, 3, 0, 11, 1, 2, 12, 5, 10, 14, 7,
  1, 10, 13, 0, 6, 9, 8, 7, 4, 15, 14, 3, 11, 5, 2, 12,
  7, 13, 14, 3, 0, 6, 9, 10, 1, 2, 8, 5, 11, 12, 4, 15,
  13, 8, 11, 5, 6, 15, 0, 3, 4, 7, 2, 12, 1, 10, 14, 9,
  10, 6, 9, 0, 12, 11, 7, 13, 15, 1, 3, 14, 5, 2, 8, 4,
  3, 15, 0, 6, 10, 1, 13, 8, 9, 4, 5, 11, 12, 7, 2, 14,
  2, 12, 4, 1, 7, 10, 11, 6, 8, 5, 3, 15, 13, 0, 14, 9,
  14, 11, 2, 12, 4, 7, 13, 1, 5, 0, 15, 10, 3, 9, 8, 6,
  4, 2, 1, 11, 10, 13, 7, 8, 15, 9, 12, 5, 6, 3, 0, 14,
  11, 8, 12, 7, 1, 14, 2, 13, 6, 15, 0, 9, 10, 4, 5, 3,
  12, 1, 10, 15, 9, 2, 6, 8, 0, 13, 3, 4, 14, 7, 5, 11,
  10, 15, 4, 2, 7, 12, 9, 5, 6, 1, 13, 14, 0, 11, 3, 8,
  9, 14, 15, 5, 2, 8, 12, 3, 7, 0, 4, 10, 1, 13, 11, 6,
  4, 3, 2, 12, 9, 5, 15, 10, 11, 14, 1, 7, 6, 0, 8, 13,
  4, 11, 2, 14, 15, 0, 8, 13, 3, 12, 9, 7, 5, 10, 6, 1,
  13, 0, 11, 7, 4, 9, 1, 10, 14, 3, 5, 12, 2, 15, 8, 6,
  1, 4, 11, 13, 12, 3, 7, 14, 10, 15, 6, 8, 0, 5, 9, 2,
  6, 11, 13, 8, 1, 4, 10, 7, 9, 5, 0, 15, 14, 2, 3, 12,
  13, 2, 8, 4, 6, 15, 11, 1, 10, 9, 3, 14, 5, 0, 12, 7,
  1, 15, 13, 8, 10, 3, 7, 4, 12, 5, 6, 11, 0, 14, 9, 2,
  7, 11, 4, 1, 9, 12, 14, 2, 0, 6, 10, 13, 15, 3, 5, 8,
  2, 1, 14, 7, 4, 10, 8, 13, 15, 12, 9, 0, 3, 5, 6, 11]

/-- What six bits that enter box `i` contribute to the outcome of a round: the outer two bits
pick the row, the inner four the column, and the entry is sent to its four places. -/
def contribution (i six : Nat) : UInt32 :=
  let row := six / 32 * 2 + six % 2
  let column := six / 2 % 16
  let entry := boxes.getD (64 * i + 16 * row + column) 0
  (select 32 roundPermutation (entry <<< UInt64.ofNat (28 - 4 * i))).toUInt32

/-- All contributions, 64 for each box. -/
def contributions : Array UInt32 :=
  ((List.range 512).map fun n => contribution (n / 64) (n % 64)).toArray

/-- The sixteen round keys of a key of eight bytes. -/
def roundKeys (key : Bytes) : List UInt64 :=
  let chosen := select 64 keyChoice (word64 key)
  let left := chosen >>> 28
  let right := chosen &&& 0xfffffff
  let turn (half : UInt64) (n : Nat) : UInt64 :=
    (half <<< UInt64.ofNat n ||| half >>> UInt64.ofNat (28 - n)) &&& 0xfffffff
  turns.map fun n => select 56 roundKeyChoice (turn left n <<< 28 ||| turn right n)

def boxNumbers : List UInt32 := [0, 1, 2, 3, 4, 5, 6, 7]

/-- The round function: each box takes six neighbouring bits of the half and six key bits. -/
def feistel (half : UInt32) (key : UInt64) : UInt32 :=
  let turned := rotateRight32 half 1
  boxNumbers.foldl (fun out i =>
    let bits := rotateLeft32 turned (4 * i) >>> 26
    let keyBits := (key >>> (42 - 6 * i.toUInt64)).toUInt32 &&& 0x3f
    out ^^^ contributions.getD (64 * i + (bits ^^^ keyBits)).toNat 0) 0

/-- The sixteen rounds under these round keys. Decryption takes the keys in reverse. -/
def crypt (keys : List UInt64) (block : UInt64) : UInt64 :=
  let x := select 64 initialPermutation block
  let (left, right) := keys.foldl (fun (left, right) key => (right, left ^^^ feistel right key))
    ((x >>> 32).toUInt32, x.toUInt32)
  select 64 finalPermutation (right.toUInt64 <<< 32 ||| left.toUInt64)

/-- Runs a block through the round keys of one pass after the other. -/
def cryptBlock (passes : List (List UInt64)) (block : Bytes) : Bytes :=
  bytes64 (passes.foldl (fun x keys => crypt keys x) (word64 block))

end Gntp.Cipher.Des
