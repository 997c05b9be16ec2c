import Gntp.Decimal
import Gntp.Hex

/-! Numeric network addresses: four decimal numbers with points, or eight groups of hexadecimal
digits with colons, where `::` stands for groups of zeros. -/

namespace Gntp.Address

/-- A number up to 255 without needless zeros in front. -/
def isOctet (s : Bytes) : Bool :=
  Decimal.isNumeral s && s.length ≤ 3 && Decimal.ofNat (Decimal.value s) == s &&
    Decimal.value s ≤ 255

/-- Four octets with points. -/
def isIPv4 (s : Bytes) : Bool :=
  (Bytes.splitOn 0x2e s).length == 4 && (Bytes.splitOn 0x2e s).all isOctet

/-- One to four hexadecimal digits. -/
def isGroup (s : Bytes) : Bool :=
  !s.isEmpty && s.length ≤ 4 && s.all fun b => (Hex.digitValue? b).isSome

/-- How many groups of sixteen bits a list of fields stands for. The last field may be an address
of four octets, which stands for two of them. -/
def groupCount : List Bytes → Option Nat
  | [] => some 0
  | [last] => if isGroup last then some 1 else if isIPv4 last then some 2 else none
  | field :: rest => if isGroup field then (groupCount rest).map (· + 1) else none

/-- How many groups a text without `::` stands for. -/
def groups (s : Bytes) : Option Nat := if s = [] then some 0 else groupCount (Bytes.splitOn 0x3a s)

/-- The parts before and after the first `::`. -/
def cutAtGap : Bytes → Option (Bytes × Bytes)
  | [] => none
  | b :: rest =>
    if b = 0x3a ∧ rest.head? = some 0x3a then some ([], rest.tail)
    else (cutAtGap rest).map fun (before, after) => (b :: before, after)

/-- Eight groups, or at most seven and a gap. -/
def isIPv6 (s : Bytes) : Bool :=
  match cutAtGap s with
  | none => groups s == some 8
  | some (before, after) =>
    match groups before, groups after with
    | some m, some n => m + n ≤ 7 && (before.isEmpty || (Bytes.splitOn 0x3a before).all isGroup)
    | _, _ => false

/-- An address that can be listened on without looking up a name. -/
def isNumeric (s : Bytes) : Bool := isIPv4 s || isIPv6 s

end Gntp.Address
