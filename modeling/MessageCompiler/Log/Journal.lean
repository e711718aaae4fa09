import MessageCompiler.Definition.Diagnostic
import MessageCompiler.Log.Event

/-!
# Journals

What compiling one definition leaves behind besides source, in two channels: the diagnostics that
the caller gets, and the events that the log gets. Each channel is written on its own. What is worth
a warning or an error goes to both of them; a remark goes to the log alone.
-/

namespace MessageCompiler

/-- The diagnostics and events of one definition, oldest first. -/
structure Journal where
  diagnostics : List Diagnostic := []
  events : List Log.Event := []
  deriving DecidableEq, Repr

namespace Journal

/-- Adds a diagnostic for the caller. -/
def push (d : Diagnostic) (j : Journal) : Journal := { j with diagnostics := j.diagnostics ++ [d] }

/-- Adds an event to the log. -/
def log (e : Log.Event) (j : Journal) : Journal := { j with events := j.events ++ [e] }

/-- Warns about a line of the message `definition`. -/
def warn (definition : Text) (line : Nat) (message : Text) (j : Journal) : Journal :=
  (j.log { level := .warn, message, definition := some definition, line := some line }).push
    { severity := .warning, line := some line, message }

/-- Records an error in a line of the message `definition`. -/
def error (definition : Text) (line : Nat) (message : Text) (j : Journal) : Journal :=
  (j.log { level := .error, message, definition := some definition, line := some line }).push
    { severity := .error, line := some line, message }

/-- Logs a remark about a line, which is no diagnostic. -/
def remark (definition : Text) (line : Nat) (message : Text) (j : Journal) : Journal :=
  j.log { level := .debug, message, definition := some definition, line := some line }

end Journal

end MessageCompiler
