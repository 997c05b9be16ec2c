import Gntp.Bytes

/-! Hexadecimal text: bytes are written with small letters and read in either case. -/

namespace Gntp

/-- Why a text is not hexadecimal. -/
inductive HexFault where
  | oddLength
  | badDigit (text : Bytes)
  deriving DecidableEq

namespace HexFault

def message : HexFault → Bytes
  | oddLength => ascii "Hex string has odd length"
  | badDigit text => ascii "Invalid hex character in: " ++ text

end HexFault

namespace Hex

def digit (n : UInt8) : UInt8 := if n < 10 then 0x30 + n else 0x57 + n

/-- Two digits per byte, the high half first. -/
def encode (bytes : Bytes) : Bytes :=
  bytes.flatMap fun (b : UInt8) => [digit (b >>> 4), digit (b &&& 0x0f)]

/-- The value of a digit of either case. -/
def digitValue? (b : UInt8) : Option UInt8 :=
  if 0x30 ≤ b ∧ b ≤ 0x39 then some (b - 0x30)
  else if 0x61 ≤ b ∧ b ≤ 0x66 then some (b - 0x57)
  else if 0x41 ≤ b ∧ b ≤ 0x46 then some (b - 0x37)
  else none

/-- Reads pairs of digits; `done` holds the bytes already read, last one first. -/
def decodePairs (done : Bytes) : Bytes → Option Bytes
  | [] => some done.reverse
  | [_] => none
  | high :: low :: rest =>
    match digitValue? high, digitValue? low with
    | some h, some l => decodePairs ((h <<< 4 ||| l) :: done) rest
    | _, _ => none

/-- Reads a text of pairs of digits. -/
def decode (text : Bytes) : Except HexFault Bytes :=
  if text.length % 2 ≠ 0 then .error .oddLength
  else match decodePairs [] text with
    | some bytes => .ok bytes
    | none => .error (.badDigit text)

end Hex

end Gntp
