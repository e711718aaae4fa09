import MessageCompiler.Disk.Walk

/-!
# Disks

A disk is a tree of files and the folder that relative paths start from. What is asked of it is
either done or refused for a cause; only `makeFolders` may have done a part of its work when it is
refused.
-/

namespace MessageCompiler

/-- A tree of files, seen from one of its folders. -/
structure Disk where
  root : Node
  /-- The folder that relative paths start from. -/
  folder : Place

namespace Disk

/-- The path from the root to the folder that relative paths start from. -/
def folderPath (d : Disk) : Path := Path.slash :: [Path.slash].intercalate d.folder

def locate (d : Disk) (p : Path) : Except Cause Spot :=
  if p.isEmpty then .error .notFound else walk d.root (start d.folder p) p.segments

def find (d : Disk) (p : Path) : Except Cause Node :=
  match d.locate p with
  | .error cause => .error cause
  | .ok (.vacant _ _) => .error .notFound
  | .ok (.taken place) =>
    match d.root.get? place with
    | some node => .ok node
    | none => .error .notFound

def isFile (d : Disk) (p : Path) : Bool :=
  match d.find p with
  | .ok (.file _) => true
  | _ => false

def isFolder (d : Disk) (p : Path) : Bool :=
  match d.find p with
  | .ok (.folder _) => true
  | _ => false

def readFile (d : Disk) (p : Path) : Except Cause Utf8.Bytes :=
  match d.find p with
  | .ok (.file contents) => .ok contents
  | .ok _ => .error .isADirectory
  | .error cause => .error cause

def readText (d : Disk) (p : Path) : Except Cause Text :=
  match d.readFile p with
  | .ok contents =>
    match Utf8.decode? contents with
    | some text => .ok text
    | none => .error .invalidUtf8
  | .error cause => .error cause

/-- The entries of a folder, in the order of their names. -/
def list (d : Disk) (p : Path) : Except Cause Entries :=
  match d.find p with
  | .ok (.folder entries) => .ok entries
  | .ok _ => .error .notADirectory
  | .error cause => .error cause

/-- The disk with a node at a place. -/
def put (place : Place) (node : Node) (d : Disk) : Disk := { d with root := Node.put node place d.root }

/-- Writes a file, in place of what the file held. -/
def write (p : Path) (contents : Utf8.Bytes) (d : Disk) : Except Cause Disk :=
  match d.locate p with
  | .error cause => .error cause
  | .ok (.vacant folder name) => .ok (d.put (folder ++ [name]) (.file contents))
  | .ok (.taken place) =>
    match d.root.get? place with
    | some (.file _) => .ok (d.put place (.file contents))
    | _ => .error .isADirectory

/-- Makes a folder. The path has to end in a name that is free, link or not. -/
def makeFolder (p : Path) (d : Disk) : Except Cause Disk :=
  if p.isEmpty then .error .notFound
  else
    -- slashes at the end do not count: the name is the last segment that has something in it
    match p.segments.reverse.dropWhile (·.isEmpty) with
    | [] => .error .exists
    | name :: outer =>
      match walk d.root (start d.folder p) outer.reverse with
      | .error cause => .error cause
      | .ok (.vacant _ _) => .error .notFound
      | .ok (.taken place) =>
        match d.root.get? place with
        | some (.folder entries) =>
          -- the names of dots are taken in every folder
          if name = Path.here || name = Path.up || (Entries.find? name entries).isSome then .error .exists
          else .ok (d.put (place ++ [name]) (.folder []))
        | _ => .error .notADirectory

/-- Makes the folder at the head of a list, given the paths above it, unless it is there. Where it
cannot be made for want of an outer folder, the paths above come first. -/
def makeAll : List Path → Disk → Disk × Option Cause
  | [], d => (d, none)
  | p :: outer, d =>
    if p.isEmpty then (d, none)
    else
      match d.makeFolder p with
      | .ok d => (d, none)
      | .error .notFound =>
        -- what is made on the way stays, even where the folder itself cannot be made after all
        match makeAll outer d with
        | (d, some cause) => (d, some cause)
        | (d, none) =>
          match d.makeFolder p with
          | .ok d => (d, none)
          | .error cause => (d, if d.isFolder p then none else some cause)
      | .error cause => (d, if d.isFolder p then none else some cause)

/-- Makes a folder and the folders that it lies in, where they are missing. -/
def makeFolders (p : Path) (d : Disk) : Disk × Option Cause := makeAll (p :: p.ancestors) d

/-- Puts a node where a path leads, in place of what is there. The folder that it lies in is made
if it is missing; a link at the very end of the path is replaced. -/
def place (p : Path) (node : Node) (d : Disk) : Except Cause Disk :=
  let (d, refused) := d.makeFolders ((p.parent?).getD [])
  match refused with
  | some cause => .error cause
  | none =>
    match p.segments.reverse.dropWhile Path.isIdle with
    | [] => .ok d
    | name :: outer =>
      -- the last name is not followed, so that a link is replaced and not what it leads to
      match walk d.root (start d.folder p) outer.reverse with
      | .ok (.taken folder) => .ok (d.put (folder ++ [name]) node)
      | .ok (.vacant _ _) => .error .notFound
      | .error cause => .error cause

/-- Removes what a path leads to, with all that is in it; a link at the very end of the path is
itself removed. -/
def remove (p : Path) (d : Disk) : Except Cause Disk :=
  match p.segments.reverse.dropWhile Path.isIdle with
  | [] => .error .notFound
  | name :: outer =>
    match walk d.root (start d.folder p) outer.reverse with
    | .ok (.taken folder) => .ok { d with root := d.root.erase (folder ++ [name]) }
    | .ok (.vacant _ _) => .error .notFound
    | .error cause => .error cause

end Disk

end MessageCompiler
