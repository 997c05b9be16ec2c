import Gntp.Digest.Md5
import Gntp.Digest.Sha1
import Gntp.Digest.Sha256
import Gntp.Digest.Sha512

/-! The hash functions that a sender may name on the request line. -/

namespace Gntp

inductive HashAlgorithm where
  | md5
  | sha1
  | sha256
  | sha512
  deriving DecidableEq

namespace HashAlgorithm

def name : HashAlgorithm → Bytes
  | md5 => ascii "MD5"
  | sha1 => ascii "SHA1"
  | sha256 => ascii "SHA256"
  | sha512 => ascii "SHA512"

def all : List HashAlgorithm := [md5, sha1, sha256, sha512]

def ofName? (name : Bytes) : Option HashAlgorithm :=
  all.find? fun algorithm => algorithm.name = name

def hash : HashAlgorithm → Bytes → Bytes
  | md5 => Digest.Md5.hash
  | sha1 => Digest.Sha1.hash
  | sha256 => Digest.Sha256.hash
  | sha512 => Digest.Sha512.hash

end HashAlgorithm

end Gntp
