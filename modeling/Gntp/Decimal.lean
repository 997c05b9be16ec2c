import Gntp.Bytes

/-! Decimal numbers as text: counts and lengths are digits only, priorities carry a sign and
fit 32 bits, numbers on the command line may also have blanks in front. -/

namespace Gntp.Decimal

open Bytes

def isDigit (b : UInt8) : Bool := 0x30 ≤ b && b ≤ 0x39

def isNumeral (s : Bytes) : Bool := !s.isEmpty && s.all isDigit

/-- The value of a text of digits; leading zeros are fine. -/
def value (digits : Bytes) : Nat := digits.foldl (fun n b => 10 * n + (b - 0x30).toNat) 0

def digit (n : Nat) : UInt8 := 0x30 + UInt8.ofNat n

/-- A number in the fewest digits. -/
def ofNat (n : Nat) : Bytes := if n < 10 then [digit n] else ofNat (n / 10) ++ [digit (n % 10)]

/-- A number in the fewest digits, after a minus sign if it is negative. -/
def ofInt : Int → Bytes
  | .ofNat n => ofNat n
  | .negSucc n => 0x2d :: ofNat (n + 1)

/-- One optional sign and then digits only. -/
def signed? (s : Bytes) : Option Int :=
  match s with
  | 0x2b :: digits => if isNumeral digits then some (value digits) else none
  | 0x2d :: digits => if isNumeral digits then some (-value digits) else none
  | digits => if isNumeral digits then some (value digits) else none

/-- A signed number that fits 32 bits. -/
def int32? (s : Bytes) : Option Int :=
  (signed? s).filter fun n => -2147483648 ≤ n && n ≤ 2147483647

/-- A signed number from `low` to `high`, with blanks allowed in front but not behind. -/
def between? (low high : Int) (s : Bytes) : Option Int :=
  (signed? (trimStart s)).filter fun n => low ≤ n && n ≤ high

end Gntp.Decimal
