import MessageCompiler.Disk.Node

/-!
# Changes

What is new in a tree, compared with how it was: folders that were not there, and files that were
not there or had other contents. Links are neither listed nor followed.
-/

namespace MessageCompiler

/-- Something new in a tree. -/
structure Change where
  place : Place
  /-- The contents of a file; none for a folder. -/
  contents : Option Utf8.Bytes
  deriving DecidableEq

namespace Node

/-- Whether a file or folder was there before. -/
def sameAs (contents : Option Utf8.Bytes) : Option Node → Bool
  | some (.file old) => contents == some old
  | some (.folder _) => contents.isNone
  | _ => false

/-- The changes at a place: what is there now is listed unless it was there before. -/
def changesAt (before : Node) (place : Place) (contents : Option Utf8.Bytes) : List Change :=
  if sameAs contents (before.get? place) then [] else [⟨place, contents⟩]

mutual

/-- What is new at a place and below, given the node there now and the whole tree before. -/
def changesFrom (before : Node) (place : Place) : Node → List Change
  | .file contents => changesAt before place (some contents)
  | .link _ => []
  | .folder entries => changesAt before place none ++ changesAmong before place entries

/-- What is new among the entries of the folder at a place. -/
def changesAmong (before : Node) (place : Place) : List (Utf8.Bytes × Node) → List Change
  | [] => []
  | (name, node) :: rest =>
    changesFrom before (place ++ [name]) node ++ changesAmong before place rest

end

def changes (before after : Node) : List Change := changesFrom before [] after

end Node

end MessageCompiler
