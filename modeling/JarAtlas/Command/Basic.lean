/-! The commands, with what each of them is told. -/
namespace JarAtlas

structure GraphOptions where
  jar : String
  output : String := "modules.dot"
  root? : Option String := none
  render : Bool := false
  format? : Option String := none
  json : Bool := false
  deriving DecidableEq, Repr

/-- Show the manifest of an archive, and draw it if an output is given. -/
structure ManifestOptions where
  jar : String
  output? : Option String := none
  render : Bool := false
  format? : Option String := none
  json : Bool := false
  deriving DecidableEq, Repr

structure FetchOptions where
  coordinate : String
  dir : String := "."
  localRepo? : Option String := none
  json : Bool := false
  deriving DecidableEq, Repr

structure InspectOptions where
  coordinate : String
  dir : String := "."
  localRepo? : Option String := none
  root? : Option String := none
  render : Bool := false
  format? : Option String := none
  deriving DecidableEq, Repr

inductive Command where
  | graph (o : GraphOptions)
  | manifest (o : ManifestOptions)
  | fetch (o : FetchOptions)
  | inspect (o : InspectOptions)
  deriving DecidableEq, Repr

end JarAtlas
