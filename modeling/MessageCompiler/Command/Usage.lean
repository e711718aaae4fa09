import MessageCompiler.Text.Basic

/-!
# Usage

What a command line may be instead of a command: a request for help or for the version, or a line
that the program does not understand.
-/

namespace MessageCompiler.Command

/-- Why a command line is not carried out. -/
inductive Usage where
  | help
  | version
  /-- The line ends where the name of a command is due. -/
  | commandMissing
  | unknownCommand
  /-- There is no such option, or there are more words than the command has a place for. -/
  | unknownArgument
  /-- A value is missing, or empty where that cannot be. -/
  | invalidValue
  /-- A value is not of the kind that is asked for. -/
  | malformedValue
  /-- A switch is given a value. -/
  | unwantedValue
  /-- Something that can be said once is said twice. -/
  | repeated
  /-- Something that has to be said is not. -/
  | argumentMissing
  deriving DecidableEq, Repr

/-- Whether the program has done what the line asks for. -/
def Usage.isSuccess : Usage → Bool
  | .help => true
  | .version => true
  | _ => false

/-- The line that tells the version. -/
def versionLine : Text := "rant 0.3.0\n".toList

end MessageCompiler.Command
