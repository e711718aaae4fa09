import MessageCompiler.Build.Folder

/-!
# Building a tree of folders

A tree build visits a folder and, below it, every folder that is reached through folders with a
message folder's name alone. Links to folders are not followed. The folders to visit are settled
before the first of them is built, so what the build adds to the tree is never taken for input.
-/

namespace MessageCompiler.Build

mutual

/-- The folders to visit from the folder with this path and node, outer folders first. -/
def foldersFrom (path : Path) : Node → List Path
  | .folder entries => path :: foldersAmong path entries
  | .file _ => []
  | .link _ => []

/-- The folders to visit among the entries of the folder with this path. -/
def foldersAmong (path : Path) : List (Utf8.Bytes × Node) → List Path
  | [] => []
  | (name, node) :: rest =>
    (if (path.join name).isMessageFolder then foldersFrom (path.join name) node else [])
      ++ foldersAmong path rest

end

/-- The folders that a tree build visits: the one it is asked for, whatever that is called, and the
message folders below. -/
def visitedFolders (disk : Disk) (folder : Path) : List Path :=
  folder :: foldersAmong folder ((disk.list folder).toOption.getD [])

def buildTree (config : Config) (output : Option Path) (folder : Path) (disk : Disk) :
    FolderBuild :=
  let build := inTurn (buildFolder config output) (visitedFolders disk folder) disk
  { build with
    events :=
      build.events ++ announce config ("Built all messages in ".toList ++ folder.shown) }

end MessageCompiler.Build
