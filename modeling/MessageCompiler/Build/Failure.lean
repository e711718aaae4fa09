import MessageCompiler.Compiled
import MessageCompiler.Disk.Basic

/-!
# Failures

Why a definition file is not built, or a build not begun.
-/

namespace MessageCompiler.Build

/-- Why something is not built. -/
inductive Failure where
  /-- The disk refused what was to be done with a path. -/
  | io (path : Path) (cause : Disk.Cause)
  /-- The configuration cannot be built with. -/
  | config (fault : Fault)
  /-- The task that was to build a folder came to no end of its own. -/
  | taskFailed (reason : Text)
  deriving DecidableEq

def Failure.message : Failure → Text
  | .io path cause => "I/O error on ".toList ++ path.shown ++ ": ".toList ++ cause.message
  | .config fault => "invalid build configuration: ".toList ++ fault.message
  | .taskFailed reason => "build task failed: ".toList ++ reason

/-- The text of a failure and the text of what is behind it, if anything is. -/
def Failure.chain (f : Failure) : List Text :=
  match f with
  | .io _ cause => [f.message, cause.message]
  | .config fault => [f.message, fault.message]
  | .taskFailed _ => [f.message]

/-- What becomes of a definition file: it is compiled, or there is nothing to compile, or it
fails. -/
abbrev Outcome := Except Failure (Option Compiled)

end MessageCompiler.Build
