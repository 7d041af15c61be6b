import JarAtlas.Machine.Fault
import JarAtlas.Machine.Web
import JarAtlas.Url.Basic

/-! Why an artifact cannot be fetched. -/
namespace JarAtlas
namespace Repository

inductive TransferError where
  | broken (f : TransferFault)
  | refused (status : Nat) (url : String)
  deriving DecidableEq, Repr

namespace TransferError

def message : TransferError → String
  | .broken f => "HTTP error: " ++ f.text
  | .refused status url => "HTTP " ++ toString status ++ " while downloading " ++ url

def causes : TransferError → List String
  | .broken f => f.text :: f.causes
  | .refused _ _ => []

end TransferError

/-- Whatever a transfer came to grief on, it is one kind of error. -/
inductive Error where
  | file (f : Fault)
  | address (e : Url.Error)
  | badCoordinate (text : String)
  | notFound (path : String)
  | transfer {e : TransferError}
  deriving DecidableEq, Repr

namespace Error

def broken (f : TransferFault) : Error := @transfer (.broken f)

def refused (status : Nat) (url : String) : Error := @transfer (.refused status url)

def message : Error → String
  | .file f => "IO error: " ++ f.message
  | .address e => "Invalid URL: " ++ e.message
  | .badCoordinate text => "Invalid coordinate: " ++ text
  | .notFound path => "Artifact not found: " ++ path
  | @transfer e => e.message

def causes : Error → List String
  | .file f => [f.message]
  | .address e => [e.message]
  | .badCoordinate _ | .notFound _ => []
  | @transfer e => e.causes

end Error
end Repository
end JarAtlas
