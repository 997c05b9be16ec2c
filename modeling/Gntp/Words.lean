import Gntp.Bytes

/-! Machine words: reading them from bytes, writing them as bytes, and rotation. -/

namespace Gntp.Words

/-- A 32-bit word from its bytes, the most significant one first. -/
def word32 (bytes : Bytes) : UInt32 := bytes.foldl (fun w b => w <<< 8 ||| b.toUInt32) 0

/-- A 64-bit word from its bytes, the most significant one first. -/
def word64 (bytes : Bytes) : UInt64 := bytes.foldl (fun w b => w <<< 8 ||| b.toUInt64) 0

/-- The bytes of a 32-bit word, the most significant one first. -/
def bytes32 (w : UInt32) : Bytes :=
  [(w >>> 24).toUInt8, (w >>> 16).toUInt8, (w >>> 8).toUInt8, w.toUInt8]

/-- The bytes of a 64-bit word, the most significant one first. -/
def bytes64 (w : UInt64) : Bytes := bytes32 (w >>> 32).toUInt32 ++ bytes32 w.toUInt32

def rotateLeft32 (w : UInt32) (n : UInt32) : UInt32 := w <<< n ||| w >>> (32 - n)

def rotateRight32 (w : UInt32) (n : UInt32) : UInt32 := w >>> n ||| w <<< (32 - n)

def rotateRight64 (w : UInt64) (n : UInt64) : UInt64 := w >>> n ||| w <<< (64 - n)

end Gntp.Words
