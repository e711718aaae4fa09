import MessageCompiler.Config
import MessageCompiler.Disk.Walk
import MessageCompiler.Log.Level
import MessageCompiler.Text.Quoted

/-!
# Settings

What a settings file may say: a configuration to compile with, and how the program itself is to
run. Settings are checked as a whole before anything is done with them.
-/

namespace MessageCompiler

/-- How the program is to run. -/
structure Runtime where
  /-- How many threads are to do the work; left to the system if there is no number. -/
  workerThreads : Option Nat := none
  /-- The name of a log level. -/
  logLevel : Option Text := none
  deriving DecidableEq, Repr

/-- What a settings file may say. -/
structure Settings where
  compiler : Config := {}
  runtime : Runtime := {}
  deriving DecidableEq, Repr

namespace Settings

/-- Why settings cannot be used. -/
inductive Problem where
  /-- The file cannot be read. -/
  | unreadable (path : Path) (cause : Disk.Cause)
  /-- The text is no TOML, or says something that settings do not. -/
  | unparsable
  /-- The configuration is refused. -/
  | compiler (fault : Fault)
  /-- No thread would do the work. -/
  | noWorkers
  /-- There is no such log level. -/
  | logLevel (name : Text) (fault : Fault)
  deriving DecidableEq

/-- The texts of a problem, from the outermost to what is behind it. What TOML is like is for its
own reader to say, so only a mark stands for that. -/
def Problem.chain : Problem → List Text
  | .unreadable path cause =>
    ["Failed to read settings: ".toList ++ Text.quoted path, cause.message]
  | .unparsable => ["Failed to parse settings".toList, "<toml>".toList]
  | .compiler fault => ["Invalid [compiler] section".toList, fault.message]
  | .noWorkers => ["runtime.worker_threads must be at least 1".toList]
  | .logLevel name fault => ["Invalid runtime.log_level: ".toList ++ name, fault.message]

/-- The log level that the settings ask for; if they name none, events from `info` up are shown. -/
def logLevel (s : Settings) : Except Problem Log.Level :=
  match s.runtime.logLevel with
  | none => .ok .info
  | some name =>
    match Log.Level.ofName name with
    | .ok level => .ok level
    | .error fault => .error (.logLevel name fault)

/-- Refuses settings that cannot be used, for the first problem there is. -/
def check (s : Settings) : Except Problem Unit :=
  match s.compiler.check with
  | .error fault => .error (.compiler fault)
  | .ok () =>
    if s.runtime.workerThreads = some 0 then .error .noWorkers
    else
      match s.logLevel with
      | .error problem => .error problem
      | .ok _ => .ok ()

end Settings

end MessageCompiler
