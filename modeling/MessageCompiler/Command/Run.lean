import MessageCompiler.Build.Admission
import MessageCompiler.Build.Tree
import MessageCompiler.Command.Line
import MessageCompiler.Log.Tally
import MessageCompiler.Settings.Reading

/-!
# Carrying out a command

What a command prints, how it ends, and what it leaves on the disk. A check only reads. A build
finds its settings and lets the command line have its say; it is good if its totals show neither a
failure nor an error and no error was logged.
-/

namespace MessageCompiler.Command

/-- How a command ends. -/
inductive Result where
  /-- It is carried out, with a good or a bad result. -/
  | done (good : Bool)
  /-- It cannot be carried out, for reasons that go from the outermost inwards. -/
  | refused (reasons : List Text)
  /-- The program comes to a sudden end. -/
  | aborted
  deriving DecidableEq, Repr

/-- What carrying out a command leaves behind. -/
structure Run where
  printed : Text
  result : Result
  disk : Disk

/-- A run that ends before anything is printed or changed. -/
def Run.without (disk : Disk) (result : Result) : Run := ⟨[], result, disk⟩

def runCheck (o : CheckOptions) (disk : Disk) : Run :=
  match o.config? with
  | .error fault => .without disk (.refused [fault.message])
  | .ok config =>
    match disk.readText o.file with
    | .error cause =>
      .without disk
        (.refused ["Failed to read definition: ".toList ++ Text.quoted o.file, cause.message])
    | .ok text =>
      match o.file.messageName? with
      | none =>
        .without disk
          (.refused ["Cannot derive a message name from ".toList ++ Text.quoted o.file])
      | some name =>
        let compiled := compile config name text
        ⟨checkReport o.file o.print compiled, .done (!compiled.hasErrors), disk⟩

/-- Builds what a path leads to: a definition file, a folder, or a tree of folders. -/
def buildPath (config : Config) (o : BuildOptions) (disk : Disk) : Build.FolderBuild :=
  if disk.isFile o.path then Build.countFile config o.output o.path disk
  else if o.isRecursive then Build.buildTree config o.output o.path disk
  else Build.buildFolder config o.output o.path disk

/-- The filter of a build's log: a verbose build shows at least the events from `debug` up. -/
def buildFilter (config : Config) (level : Log.Level) : Log.Level :=
  if config.verbose then min level .debug else level

/-- The events of a build that found nothing to do. -/
def idleEvents (path : Path) (totals : Build.Totals) : List Log.Event :=
  if totals.compiled == 0 && totals.failed == 0 then
    [.plain .warn ("No message definitions found at ".toList ++ path.shown)]
  else []

/-- What a build prints before it begins. -/
def buildHeading (o : BuildOptions) : Text :=
  "Building messages in: ".toList ++ o.path.shown ++ ['\n']
    ++ match o.output with
      | some output => "Output: ".toList ++ output.shown ++ ['\n']
      | none => []

/-- What a build prints at its end. The last error is told only if the log let it through. -/
def buildSummary (good : Bool) (totals : Build.Totals) (tally : Log.Tally) : Text :=
  ['\n'] ++ mark good ++ [' '] ++ totals.shown ++ ['\n']
    ++ match good, tally.lastError with
      | false, some error => "Last error: ".toList ++ error ++ ['\n']
      | _, _ => []

/-- Carries out a build whose configuration and log filter are settled. -/
def runBuildWith (config : Config) (filter : Log.Level) (o : BuildOptions) (disk : Disk) : Run :=
  let build := buildPath config o disk
  let tally := ({} : Log.Tally).observeAll filter (build.events ++ idleEvents o.path build.totals)
  -- the tally has only what the filter lets through
  let good := build.totals.isSuccess && !tally.hasErrors
  ⟨buildHeading o ++ buildSummary good build.totals tally, .done good, build.disk⟩

def runBuild (o : BuildOptions) (disk : Disk) : Run :=
  match Settings.load o.settings disk.folderPath disk with
  | .error problem => .without disk (.refused problem.chain)
  | .ok settings =>
    -- the command line has the last word
    let config := o.apply settings.compiler
    match settings.logLevel with
    | .error problem => .without disk (.refused problem.chain)
    | .ok level =>
      match Build.admission config with
      | .refused failure =>
        .without disk (.refused ("Invalid build configuration".toList :: failure.chain))
      | .uncountable => .without disk .aborted
      | .granted => runBuildWith config (buildFilter config level) o disk

def run (command : Command) (disk : Disk) : Run :=
  match command with
  | .build options => runBuild options disk
  | .check options => runCheck options disk

end MessageCompiler.Command
