import MessageCompiler.Command.Build
import MessageCompiler.Compiled

/-!
# The words of a check

What a check is asked for on the command line. The languages are names of targets; each names one
more target that is generated, and without any the default ones are.
-/

namespace MessageCompiler.Command

/-- What a check is asked for. -/
structure CheckOptions where
  /-- The definition file. -/
  file : Path
  languages : List Text
  /-- Whether the generated source is shown. -/
  print : Bool
  deriving DecidableEq, Repr

def checkGrammar : Grammar where
  named :=
    [{ name := "lang".toList, short := some 'l', takes := .word, repeats := true },
      { name := "print".toList, short := some 'p' }]
  operand := { name := "file".toList, takes := .path }

namespace CheckOptions

def ofWords (words : List Text) : Except Usage CheckOptions :=
  match checkGrammar.read words with
  | .error usage => .error usage
  | .ok given =>
    match valuesOf given "file".toList with
    | [] => .error .argumentMissing
    | file :: _ =>
      .ok
        { file := Path.ofText file
          languages := valuesOf given "lang".toList
          print := isGiven given "print".toList }

/-- The targets with one more for each name, up to the first name that no target has. -/
def addTargets (targets : Targets) : List Text → Except Fault Targets
  | [] => .ok targets
  | name :: names =>
    match Target.ofName name with
    | .ok target => addTargets (targets.set target true) names
    | .error fault => .error fault

def config? (o : CheckOptions) : Except Fault Config :=
  if o.languages.isEmpty then .ok {}
  else (addTargets { csharp := false } o.languages).map fun targets => { targets }

end CheckOptions

/-- The mark in front of a good or a bad result. -/
def mark (good : Bool) : Text := if good then ['✓'] else ['✗']

/-- What a check tells about a definition. -/
def checkReport (file : Path) (print : Bool) (c : Compiled) : Text :=
  "Checking definition: ".toList ++ file.shown ++ ['\n']
    ++ mark true ++ " Message: ".toList ++ c.name ++ " (".toList ++ c.kind.name ++ ")\n".toList
    ++ c.diagnostics.flatMap (fun d => "  ".toList ++ d.shown ++ ['\n'])
    ++ mark (!c.hasErrors) ++ [' '] ++ Text.decimal c.warnings ++ " warnings, ".toList
    ++ Text.decimal c.errors ++ " errors\n".toList
    ++ (if print then
        c.files.flatMap fun f => "\n==> ".toList ++ f.name ++ " <==\n".toList ++ f.contents
      else [])

end MessageCompiler.Command
