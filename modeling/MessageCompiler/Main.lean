import MessageCompiler.Command.Run
import MessageCompiler.Disk.Change

/-!
# The program

Everything that a command does is decided on a disk held as a value. This module takes those parts
of the real disk that the command may look at into such a value, carries out the command, and brings
what is new back to the real disk.
-/

namespace MessageCompiler.Main

/-- What has been taken over from the real disk. -/
structure Survey where
  root : Node := .folder []
  /-- The paths that have been looked at, so that no circle of links keeps one going. -/
  seen : List String := []

/-- The place of a real path without links. -/
def placeOf (path : String) : Place :=
  (Path.segments (Path.ofText path.toList)).filter fun segment => !Path.isIdle segment

/-- The real path of a place. -/
def pathOf (place : Place) : String :=
  String.ofList (Path.shown (Path.slash :: [Path.slash].intercalate place))

/-- A name in the folder at a place. -/
def entryAt (folder : Place) (name : Utf8.Bytes) : IO.FS.DirEntry :=
  { root := pathOf folder, fileName := String.ofList (Path.shown name) }

/-- What kind of thing a name stands for, if it stands for anything. -/
def kindOf (entry : IO.FS.DirEntry) : IO (Option IO.FS.FileType) :=
  try
    let metadata ← entry.path.symlinkMetadata
    return some metadata.type
  catch _ => return none

/-- The survey with an empty folder at a place, unless something is there already. -/
def Survey.addFolder (s : Survey) (place : Place) : Survey :=
  if (s.root.get? place).isSome then s else { s with root := Node.put (.folder []) place s.root }

/-- Takes over what a name stands for: a file with its contents, a folder with all that is in it,
and a link with what it leads to. -/
partial def Survey.take (s : Survey) (place : Place) (entry : IO.FS.DirEntry) : IO Survey := do
  let path := pathOf place
  if s.seen.contains path then return s
  let mut s := { s with seen := path :: s.seen }
  match ← kindOf entry with
  | some .dir =>
    s := s.addFolder place
    for inner in ← entry.path.readDir do
      s ← s.take (place ++ [Path.ofText inner.fileName.toList]) inner
    return s
  | some .file =>
    let contents ← IO.FS.readBinFile entry.path
    return { s with root := Node.put (.file contents.toList) place s.root }
  | some .symlink =>
    try
      let target := (← IO.FS.realPath entry.path).toString
      s := { s with root := Node.put (.link (Path.ofText target.toList)) place s.root }
      let there := placeOf target
      s.take there (entryAt there.dropLast (there.getLast?.getD []))
    catch _ => return s
  | _ => return s

/-- Takes over what lies on the way of a path from the folder at a place, and what it leads to. -/
def Survey.follow (s : Survey) (folder : Place) : List Utf8.Bytes → IO Survey
  | [] => s.take folder (entryAt folder Path.here)
  | name :: rest => do
    if Path.isIdle name then s.follow folder rest
    else if name = Path.up then s.follow folder.dropLast rest
    else
      let place := folder ++ [name]
      let entry := entryAt folder name
      match ← kindOf entry with
      | some .dir => (s.addFolder place).follow place rest
      | some .symlink =>
        let s ← s.take place entry
        try
          let there := placeOf (← IO.FS.realPath entry.path).toString
          (s.addFolder there).follow there rest
        catch _ => return s
      | some _ => s.take place entry
      | none => return s

def pathsOf : Command → List Path
  | .check o => [o.file]
  | .build o =>
    [o.path, o.path.defaultOutput, o.settings.getD (Path.ofText "rant.toml".toList)]
      ++ o.output.toList

/-- The part of the real disk that a command may look at. -/
def survey (command : Command) : IO Disk := do
  let folder := placeOf (← IO.FS.realPath (← IO.currentDir)).toString
  let mut s := ({} : Survey).addFolder folder
  for path in pathsOf command do
    s ← s.follow (Disk.start folder path) path.segments
  return ⟨s.root, folder⟩

/-- Brings what is new back to the real disk. -/
def store (before after : Node) : IO Unit := do
  for change in before.changes after do
    match change.contents with
    | none => IO.FS.createDirAll (pathOf change.place)
    | some contents => IO.FS.writeBinFile (pathOf change.place) (ByteArray.mk contents.toArray)

def print (stream : IO.FS.Stream) (text : Text) : IO Unit := do
  stream.putStr (String.ofList text)
  stream.flush

/-- Carries out a command and gives the exit code. -/
def carryOut (command : Command) : IO UInt32 := do
  let disk ← survey command
  let run := command.run disk
  store disk.root run.disk.root
  print (← IO.getStdout) run.printed
  match run.result with
  | .done good => return if good then 0 else 1
  | .refused reasons =>
    print (← IO.getStderr) ("Error: ".toList ++ "\n  ".toList.intercalate reasons ++ ['\n'])
    return 1
  | .aborted => return 101

/-- Answers a command line that gives no command, and gives the exit code. -/
def explain (usage : Command.Usage) : IO UInt32 := do
  if usage = .version then print (← IO.getStdout) Command.versionLine
  else
    let stream ← if usage.isSuccess then IO.getStdout else IO.getStderr
    print stream "Usage: rant msg <build|check> [OPTIONS] [PATH]\n".toList
  return if usage.isSuccess then 0 else 2

end MessageCompiler.Main

def main (arguments : List String) : IO UInt32 :=
  match MessageCompiler.Command.ofWords (arguments.map String.toList) with
  | .ok command => MessageCompiler.Main.carryOut command
  | .error usage => MessageCompiler.Main.explain usage
