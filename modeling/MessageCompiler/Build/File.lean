import MessageCompiler.Build.Failure
import MessageCompiler.Path.Definition

/-!
# Building a file

A definition file is read, compiled, and saved as one source file for each target. A path that
leads to no file, or to one whose name gives no message name, is passed over without a word.
-/

namespace MessageCompiler.Build

/-- What building a file leaves behind. -/
structure FileBuild where
  outcome : Outcome
  disk : Disk
  events : List Log.Event

/-- The event that a verbose build logs. -/
def announce (config : Config) (message : Text) : List Log.Event :=
  if config.verbose then [.plain .info message] else []

/-- The folder that takes the source of a definition file: the one that is asked for, or the
default. -/
def outputFolder (output : Option Path) (file : Path) : Path :=
  match output with
  | some folder => if folder.isEmpty then file.defaultOutput else folder
  | none => file.defaultOutput

/-- What saving source files leaves behind. -/
structure Saving where
  /-- The failure that ended it early, if one did. -/
  failure : Option Failure
  disk : Disk
  events : List Log.Event

/-- Saves source files in a folder, one after the other, up to the first that cannot be saved. -/
def save (config : Config) (folder : Path) : List SourceFile → Disk → Saving
  | [], disk => ⟨none, disk, []⟩
  | file :: files, disk =>
    let path := folder.join (Path.ofText file.name)
    match disk.write path (Utf8.encode file.contents) with
    | .error cause => ⟨some (.io path cause), disk, []⟩
    | .ok disk =>
      let saving := save config folder files disk
      { saving with
        events :=
          announce config ("Saved ".toList ++ file.name ++ " to ".toList ++ path.shown)
            ++ saving.events }

/-- Builds the message `name` from the definition file at a path. -/
def buildMessage (config : Config) (output : Option Path) (path : Path) (name : Text)
    (disk : Disk) : FileBuild :=
  let begun := announce config ("Building ".toList ++ name ++ "...".toList)
  match disk.readText path with
  | .error cause => ⟨.error (.io path cause), disk, begun⟩
  | .ok text =>
    let compiled := compile config name text
    -- what the compiler reports is logged, whether anything can be written or not
    let events := begun ++ compiled.journal.events
    let folder := outputFolder output path
    match disk.makeFolders folder with
    | (disk, some cause) => ⟨.error (.io folder cause), disk, events⟩
    | (disk, none) =>
      let saving := save config folder compiled.files disk
      -- what was saved before a failure stays on the disk
      match saving.failure with
      | some failure => ⟨.error failure, saving.disk, events ++ saving.events⟩
      | none => ⟨.ok (some compiled), saving.disk, events ++ saving.events⟩

def buildFile (config : Config) (output : Option Path) (path : Path) (disk : Disk) : FileBuild :=
  if path.isEmpty || !disk.isFile path then ⟨.ok none, disk, []⟩
  else
    match path.messageName? with
    | none => ⟨.ok none, disk, []⟩
    | some name => buildMessage config output path name disk

end MessageCompiler.Build
