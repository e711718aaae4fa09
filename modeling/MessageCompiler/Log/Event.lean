import MessageCompiler.Log.Signal

/-!
# Log events

What happens while messages are compiled and built. An event may name the message and the line that
it is about.
-/

namespace MessageCompiler

namespace Log

/-- Something that happened. -/
structure Event where
  level : Level
  message : Text
  /-- The message definition that the event is about. -/
  definition : Option Text := none
  /-- The source line that the event is about. -/
  line : Option Nat := none
  deriving DecidableEq, Repr

namespace Event

/-- An event about no particular definition. -/
def plain (level : Level) (message : Text) : Event := { level, message }

/-- What an event tells: its message, the definition and the line, in this order. An event without a
message has an empty one. -/
def notes (e : Event) : List Note :=
  { name := Note.messageName, value := e.message }
    :: ((e.definition.map fun d => { name := "definition".toList, value := d }).toList
      ++ (e.line.map fun n => { name := "line".toList, value := Text.decimal n }).toList)

/-- The event as it reaches those who listen. -/
def signal (e : Event) : Signal := ⟨e.level, e.notes⟩

def rendered (e : Event) : Text := e.signal.rendered

def passes (e : Event) (filter : Level) : Bool := filter != .off && filter ≤ e.level

end Event

end Log

end MessageCompiler
