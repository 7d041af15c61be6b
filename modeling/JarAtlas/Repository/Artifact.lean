import JarAtlas.Checksum.Sha256
import JarAtlas.Json

/-! What a fetch leaves behind. -/
namespace JarAtlas

/-- A file that was fetched, with its count of octets and its digest. -/
structure Artifact where
  path : String
  size : Nat
  digest : String
  deriving DecidableEq, Repr

namespace Artifact

def ofContent (path : String) (content : Bytes) : Artifact :=
  ⟨path, content.length, Sha256.hexDigest content⟩

def toJson (a : Artifact) : Json :=
  .object [("path", .text a.path), ("size", .number a.size), ("sha256", .text a.digest)]

end Artifact
end JarAtlas
