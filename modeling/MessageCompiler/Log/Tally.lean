import MessageCompiler.Log.Event

/-!
# Tallies

A tally counts the warnings and errors among the events that a filter lets through, and keeps the
last error. It counts nothing else: a level that is no warning and no error leaves it as it is.
-/

namespace MessageCompiler.Log

/-- A count of warnings and errors, with the text of the last error. -/
structure Tally where
  warnings : Nat := 0
  errors : Nat := 0
  lastError : Option Text := none
  deriving DecidableEq, Repr

namespace Tally

/-- Counts something that happened at a level. -/
def record (level : Level) (message : Text) (t : Tally) : Tally :=
  match level with
  | .warn => { t with warnings := t.warnings + 1 }
  | .error => { t with errors := t.errors + 1, lastError := some message }
  | _ => t

/-- Counts an event in whatever shape, if the filter lets it through. -/
def hear (filter : Level) (t : Tally) (s : Signal) : Tally :=
  if s.passes filter then t.record s.level s.rendered else t

/-- Counts an event, if the filter lets it through. -/
def observe (filter : Level) (t : Tally) (e : Event) : Tally := t.hear filter e.signal

def observeAll (filter : Level) (t : Tally) (es : List Event) : Tally :=
  es.foldl (observe filter) t

def hasErrors (t : Tally) : Bool := 0 < t.errors

end Tally

end MessageCompiler.Log
