import JarAtlas.Modules.ClassName
import JarAtlas.Repository.Source
import JarAtlas.Text.Blank

/-! Settings from the environment. A variable that is blank counts as not set. -/
namespace JarAtlas

def defaultRepository : String := "https://maven-central.storage-download.googleapis.com/maven2/"

/-- Where to fetch from. A directory goes before the web. -/
structure FetchSettings where
  repository : String := defaultRepository
  user? : Option String := none
  password? : Option String := none
  localRoot? : Option String := none
  deriving DecidableEq, Repr

def defaultTool : String := "dot"

def defaultFormat : String := "png"

structure Settings where
  fetch : FetchSettings := {}
  rootNamespace : String := defaultRoot
  renderTool : String := defaultTool
  imageFormat : String := defaultFormat
  deriving DecidableEq, Repr

/-- The environment: what the variables hold, and the user's own directory. -/
structure Environment where
  setting? : String → Option String
  home? : Option String

namespace Environment

def get? (e : Environment) (name : String) : Option String :=
  (e.setting? name).filter fun v => !Text.blank v

def repositoryVariable : String := "JARMAP_REPOSITORY"

def userVariable : String := "JARMAP_USERNAME"

def passwordVariable : String := "JARMAP_PASSWORD"

def localVariable : String := "JARMAP_LOCAL_REPO"

def rootVariable : String := "JARMAP_ROOT_NAMESPACE"

def toolVariable : String := "JARMAP_RENDER_TOOL"

def formatVariable : String := "JARMAP_IMAGE_FORMAT"

def allVariables : List String :=
  [repositoryVariable, userVariable, passwordVariable, localVariable, rootVariable, toolVariable,
   formatVariable]

end Environment

namespace FetchSettings

open Environment

/-- The directory is named without the white space around it; the rest is taken as it stands. -/
def ofEnvironment (e : Environment) : FetchSettings where
  repository := (e.get? repositoryVariable).getD defaultRepository
  user? := e.get? userVariable
  password? := e.get? passwordVariable
  localRoot? := (e.get? localVariable).bind fun v =>
    LocalRepository.resolveRoot? e.home? (Text.trim v)

/-- What is to be warned of: the usual directory is asked for, but cannot be known. -/
def warning? (e : Environment) : Option String :=
  if (e.get? localVariable).isSome ∧ (ofEnvironment e).localRoot? = none then
    some "JARMAP_LOCAL_REPO=default but no home directory, using remote repository"
  else none

/-- A password alone is no credential, and a user without one has the empty password. -/
def credentials? (s : FetchSettings) : Option Credentials :=
  s.user?.map fun user => ⟨user, s.password?.getD ""⟩

def source [Url.HostNames] (s : FetchSettings) : Except Repository.Error Repository.Source :=
  match s.localRoot? with
  | some root => .ok (.inDirectory ⟨root⟩)
  | none => (RemoteRepository.ofBase s.repository s.credentials?).map .onWeb

end FetchSettings

namespace Settings

open Environment

def ofEnvironment (e : Environment) : Settings where
  fetch := .ofEnvironment e
  rootNamespace := (e.get? rootVariable).getD defaultRoot
  renderTool := (e.get? toolVariable).getD defaultTool
  imageFormat := (e.get? formatVariable).getD defaultFormat

end Settings
end JarAtlas
