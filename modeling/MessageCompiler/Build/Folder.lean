import MessageCompiler.Build.File
import MessageCompiler.Build.Totals

/-!
# Building a folder

The definition files of a folder are built in the order of their names. A file that fails is
logged and counted, and the others are built all the same.
-/

namespace MessageCompiler.Build

/-- What building folders leaves behind. -/
structure FolderBuild where
  totals : Totals
  disk : Disk
  events : List Log.Event

/-- The definition files directly in a folder with these entries: regular files, through links,
whose names say that they hold a definition. -/
def definitionFiles (disk : Disk) (folder : Path) (entries : Entries) : List Path :=
  (entries.map fun entry => folder.join entry.1).filter fun path =>
    path.isDefinitionFile && disk.isFile path

/-- The event that logs why a file failed. -/
def failureEvents (path : Path) : Outcome → List Log.Event
  | .error failure =>
    [.plain .error ("Failed to build ".toList ++ path.shown ++ ": ".toList ++ failure.message)]
  | .ok _ => []

def countFile (config : Config) (output : Option Path) (path : Path) (disk : Disk) :
    FolderBuild :=
  let file := buildFile config output path disk
  ⟨Totals.ofOutcome file.outcome, file.disk, file.events ++ failureEvents path file.outcome⟩

/-- Runs the second build on the disk that the first one leaves, and adds up the two. -/
def FolderBuild.andThen (first : FolderBuild) (second : Disk → FolderBuild) : FolderBuild :=
  let last := second first.disk
  ⟨first.totals + last.totals, last.disk, first.events ++ last.events⟩

/-- Runs builds one after the other and adds them up. -/
def inTurn {α : Type} (build : α → Disk → FolderBuild) : List α → Disk → FolderBuild
  | [], disk => ⟨{}, disk, []⟩
  | a :: rest, disk => (build a disk).andThen (inTurn build rest)

def buildFolder (config : Config) (output : Option Path) (folder : Path) (disk : Disk) :
    FolderBuild :=
  match disk.list folder with
  | .error _ =>
    ⟨{}, disk, [.plain .debug ("Skipping missing folder ".toList ++ folder.shown)]⟩
  | .ok entries =>
    inTurn (countFile config output) (definitionFiles disk folder entries) disk

end MessageCompiler.Build
