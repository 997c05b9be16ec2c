import Gntp.Cipher
import Gntp.Digest

/-! The algorithms at hand. What the library does is fixed, but which algorithms it can use is
not: an installation may lack the older ciphers, or everything. -/

namespace Gntp

structure Suite where
  digest : HashAlgorithm → Option (Bytes → Bytes)
  cipher : Cipher → Option (Bytes → BlockCipher)
  /-- Whether random numbers can be drawn. -/
  random : Bool

namespace Suite

def full : Suite where
  digest algorithm := some algorithm.hash
  cipher cipher := if cipher = .none then none else some cipher.keyed
  random := true

/-- Every algorithm but DES with a single key. -/
def modern : Suite where
  digest := full.digest
  cipher cipher := if cipher = .des then none else full.cipher cipher
  random := true

def empty : Suite where
  digest _ := none
  cipher _ := none
  random := false

end Suite

end Gntp
