import MessageCompiler.Text.Basic

/-!
# Diagnostics

A problem found inside a definition. Diagnostics never stop compilation.
-/

namespace MessageCompiler

/-- How serious a diagnostic is. -/
inductive Severity where
  | warning
  | error
  deriving DecidableEq, Repr

def Severity.name : Severity → Text
  | .warning => "warning".toList
  | .error => "error".toList

/-- A problem found inside a definition. -/
structure Diagnostic where
  severity : Severity
  /-- The line at fault, where one line is. -/
  line : Option Nat
  message : Text
  deriving DecidableEq, Repr

namespace Diagnostic

/-- Whether the diagnostic makes a build fail. -/
def isError (d : Diagnostic) : Bool := d.severity == .error

def shown (d : Diagnostic) : Text :=
  match d.line with
  | some line =>
    d.severity.name ++ " (line ".toList ++ Text.decimal line ++ "): ".toList ++ d.message
  | none => d.severity.name ++ ": ".toList ++ d.message

end Diagnostic

end MessageCompiler
