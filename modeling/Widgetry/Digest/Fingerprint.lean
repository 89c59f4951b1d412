import Widgetry.Digest.Sha256
import Widgetry.Digest.XxHash64
import Widgetry.Settings.Basic
import Widgetry.Text.Utf8

/-!
# Fingerprints

What tells one source text from another without keeping it.
-/

namespace Widgetry

/-- The digest of some bytes in hexadecimal digits. -/
def DigestAlgorithm.hex (a : DigestAlgorithm) (bytes : List UInt8) : String :=
  let digest := match a with
    | xxhash64 => Digest.bytesOf 8 (Digest.XxHash64.digest bytes).toNat
    | sha256 => Digest.Sha256.digest bytes
  String.ofList (digest.flatMap fun b => Text.hexDigits 2 b.toNat)

def DigestAlgorithm.fingerprint (a : DigestAlgorithm) (source : String) : String :=
  a.hex (Text.encode source)

end Widgetry
