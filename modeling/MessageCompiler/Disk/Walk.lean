import MessageCompiler.Disk.Node

/-!
# Following paths

A path leads from a folder through names to a node, and through links to wherever they point. A
walk goes from link to link: a *stretch* follows names until it ends or comes to a link, and the
walk goes on from there, through forty links at most.
-/

namespace MessageCompiler.Disk

/-- Why the disk refuses something. -/
inductive Cause where
  | notFound
  | exists
  | notADirectory
  | isADirectory
  | tooManyLinks
  /-- The contents are no text. -/
  | invalidUtf8
  /-- Any other reason, in the words of whoever gives it. -/
  | other (reason : Text)
  deriving DecidableEq, Repr

def Cause.message : Cause → Text
  | .notFound => "No such file or directory (os error 2)".toList
  | .exists => "File exists (os error 17)".toList
  | .notADirectory => "Not a directory (os error 20)".toList
  | .isADirectory => "Is a directory (os error 21)".toList
  | .tooManyLinks => "Too many levels of symbolic links (os error 40)".toList
  | .invalidUtf8 => "stream did not contain valid UTF-8".toList
  | .other reason => reason

/-- Where a path leads. -/
inductive Spot where
  /-- To the node at a place. -/
  | taken (place : Place)
  /-- To a name that the folder at a place does not have. -/
  | vacant (folder : Place) (name : Utf8.Bytes)
  deriving DecidableEq, Repr

/-- How a stretch ends. -/
inductive Stretch where
  | arrived (spot : Spot)
  | failed (cause : Cause)
  /-- At a link in the folder at a place, with the names that are left to follow. -/
  | linked (folder : Place) (target : Path) (rest : List Utf8.Bytes)
  deriving DecidableEq, Repr

/-- Follows names from the folder at a place, up to the first link. A file leads nowhere, so only
the last name may lead to one; only the last name may be missing. -/
def stretch (root : Node) (place : Place) : List Utf8.Bytes → Stretch
  | [] => .arrived (.taken place)
  | name :: rest =>
    if Path.isIdle name then stretch root place rest
    else if name = Path.up then stretch root place.dropLast rest
    else
      match root.get? (place ++ [name]) with
      | some (.folder _) => stretch root (place ++ [name]) rest
      | some (.file _) =>
        if rest.isEmpty then .arrived (.taken (place ++ [name])) else .failed .notADirectory
      | some (.link target) => .linked place target rest
      | none => if rest.isEmpty then .arrived (.vacant place name) else .failed .notFound

/-- The place from which a path is followed, given the folder that one is in. -/
def start (folder : Place) (p : Path) : Place := if p.isAbsolute then [] else folder

/-- Follows names from the folder at a place, through fewer links than `stretches`. -/
def follow (root : Node) : Nat → Place → List Utf8.Bytes → Except Cause Spot
  | 0, _, _ => .error .tooManyLinks
  | stretches + 1, place, names =>
    match stretch root place names with
    | .arrived spot => .ok spot
    | .failed cause => .error cause
    | .linked folder target rest =>
      follow root stretches (start folder target) (Path.segments target ++ rest)

/-- Where names lead from the folder at a place. -/
def walk (root : Node) (place : Place) (names : List Utf8.Bytes) : Except Cause Spot :=
  follow root 41 place names

end MessageCompiler.Disk
