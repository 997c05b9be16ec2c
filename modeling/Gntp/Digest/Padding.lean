import Gntp.Words

/-! The padding that closes a message before it is hashed. -/

namespace Gntp.Digest

/-- The message followed by the bit 1, the fewest zero bytes that leave room for the length
field at the end of a block, and that field. -/
def padded (block : Nat) (lengthField message : Bytes) : Bytes :=
  let used := (message.length + 1 + lengthField.length) % block
  message ++ 0x80 :: List.replicate ((block - used) % block) 0 ++ lengthField

end Gntp.Digest
