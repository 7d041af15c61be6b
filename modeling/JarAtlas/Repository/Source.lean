import JarAtlas.Repository.Local
import JarAtlas.Repository.Remote

/-! Where artifacts come from. -/
namespace JarAtlas
namespace Repository

inductive Source where
  | inDirectory (r : LocalRepository)
  | onWeb (r : RemoteRepository)
  deriving DecidableEq, Repr

namespace Source

def describe : Source → String
  | .inDirectory r => r.root
  | .onWeb r => r.base.toString

variable {m : Type → Type} [Monad m] [Machine m] [Url.HostNames]

def fetch (c : Coordinate) (dir : String) : Source → m (Except Error Artifact)
  | .inDirectory r => r.fetch c dir
  | .onWeb r => r.fetch c dir

end Source
end Repository
end JarAtlas
