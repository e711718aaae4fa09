import MessageCompiler.Config
import MessageCompiler.Definition.Reading
import MessageCompiler.Source.Basic

/-!
# Compiling a definition

A definition is read once and then written once for each enabled target. Compiling never fails:
whatever is wrong with the text is told by the diagnostics, and the rest is generated all the same.
-/

namespace MessageCompiler

/-- What compiling a definition gives. -/
structure Compiled where
  name : Text
  kind : Kind
  /-- One file for each enabled target, in their order. -/
  files : List SourceFile
  /-- What was reported and logged on the way. -/
  journal : Journal
  deriving DecidableEq, Repr

namespace Compiled

def diagnostics (c : Compiled) : List Diagnostic := c.journal.diagnostics

def count (severity : Severity) (c : Compiled) : Nat :=
  c.diagnostics.countP (·.severity == severity)

def warnings (c : Compiled) : Nat := c.count .warning

def errors (c : Compiled) : Nat := c.count .error

def hasErrors (c : Compiled) : Bool := c.diagnostics.any Diagnostic.isError

def file? (t : Target) (c : Compiled) : Option SourceFile := c.files.find? (·.target == t)

end Compiled

/-- Warns that a field of the message `name` is renamed in the source for a target, because it would
hide the creation time. -/
def Target.warnHidden (t : Target) (name : Text) (j : Journal) (f : Field) : Journal :=
  let message := "field '".toList ++ f.name
    ++ "' collides with the generated timestamp; renamed to '".toList ++ f.name ++ "_' in ".toList
    ++ t.name ++ " output".toList
  (j.log { level := .warn, message, definition := some name, line := some f.line }).push
    { severity := .warning, line := some f.line, message }

/-- Warns about all fields that would hide the creation time in a target. -/
def Definition.warnHidden (d : Definition) (j : Journal) (t : Target) : Journal :=
  (d.fields.filter (t.hidesCreationTime ·.name)).foldl (t.warnHidden d.name) j

/-- Compiles the definition of the message `name` for every enabled target. -/
def compile (config : Config) (name text : Text) : Compiled :=
  let (definition, journal) := Definition.ofText name text
  let targets := config.targets.enabled
  { name
    kind := definition.kind
    files := targets.map (SourceFile.ofDefinition definition)
    journal := targets.foldl definition.warnHidden journal }

end MessageCompiler
