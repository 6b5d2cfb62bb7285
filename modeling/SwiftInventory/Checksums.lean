import SwiftInventory.Digest.Md5
import SwiftInventory.Digest.Sha1
import SwiftInventory.Digest.Sha256
import SwiftInventory.Text.Utf8

namespace SwiftInventory

structure Checksums where
  sha1 : String
  sha256 : String
  md5 : String
deriving DecidableEq

def Checksums.ofText (s : String) : Checksums :=
  let octets := Text.Utf8.encode s.toList
  ⟨Digest.Sha1.digest octets, Digest.Sha256.digest octets, Digest.Md5.digest octets⟩

end SwiftInventory
