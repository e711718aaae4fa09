import MessageCompiler.Log.Level

/-!
# Signals

What an event is to whoever listens to the log: a level, and notes that come one by one, each a text
under a name. The note that is called `message` is the message of the event, and all others are its
fields. A listener writes them down on one line.
-/

namespace MessageCompiler.Log

/-- Something that an event tells. Its name stands in the program that logs, and begins with no
blank. -/
structure Note where
  name : Text
  value : Text
  named : name.head?.all (!Text.isBlank ·) = true := by decide
  deriving DecidableEq, Repr

namespace Note

/-- The name of the note that is the message. -/
def messageName : Text := "message".toList

/-- Whether the note is the message of its event. -/
def isMessage (n : Note) : Bool := n.name == messageName

/-- A note that is a field, as `name=value`. -/
def shown (n : Note) : Text := n.name ++ '=' :: n.value

end Note

/-- What has been written down of an event so far. -/
structure Transcript where
  message : Text := []
  /-- The fields, each after a space. -/
  fields : Text := []
  deriving DecidableEq, Repr

namespace Transcript

/-- Writes down one more note. A message takes the place of the one before. -/
def add (t : Transcript) (n : Note) : Transcript :=
  if n.isMessage then { t with message := n.value }
  else { t with fields := t.fields ++ ' ' :: n.shown }

/-- The line that comes of it. -/
def line (t : Transcript) : Text :=
  if t.fields.isEmpty then t.message
  else if t.message.isEmpty then Text.trimStart t.fields
  else t.message ++ t.fields

end Transcript

/-- An event as it reaches those who listen. -/
structure Signal where
  level : Level
  notes : List Note
  deriving DecidableEq, Repr

namespace Signal

def rendered (s : Signal) : Text := (s.notes.foldl Transcript.add {}).line

def passes (s : Signal) (filter : Level) : Bool := filter != .off && filter ≤ s.level

end Signal

end MessageCompiler.Log
