/-! The small command language in which tools are written: words with arguments in them, commands,
and conditions on how commands end. -/
namespace JarAtlas
namespace Script

/-- A part of a word that is put in when its command is run, or that stands for itself. -/
inductive Piece where
  | chars (s : String)
  | argument (n : Nat)
  | argumentCount
  | allArguments
  | processId
  deriving DecidableEq, Repr

abbrev Word := List Piece

/-- A simple command may put its output behind a file. -/
inductive Command where
  | nothing
  | simple (words : List Word) (log? : Option Word)
  | sequence (first second : Command)
  | orElse (first second : Command)
  | andThen (first second : Command)
  | whenever (condition body : Command)
  deriving Repr

end Script
end JarAtlas
