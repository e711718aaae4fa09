import MessageCompiler.Log.Tally

/-!
# Log sessions

A session watches a log through a filter and counts what the filter lets through. The filter may
change and the count may start again at any time; neither touches what happened before.
-/

namespace MessageCompiler.Log

/-- A filter and the tally of what it has let through. -/
structure Session where
  filter : Level
  tally : Tally := {}
  deriving DecidableEq, Repr

namespace Session

/-- What may happen in a session. -/
inductive Action where
  | setLevel (level : Level)
  /-- The count starts again. -/
  | reset
  /-- Events are logged, in order. -/
  | log (events : List Event)
  /-- Something else is logged, in whatever shape. -/
  | hear (signal : Signal)
  deriving DecidableEq, Repr

/-- The session after something has happened. -/
def act (s : Session) : Action → Session
  | .setLevel level => { s with filter := level }
  | .reset => { s with tally := {} }
  | .log events => { s with tally := s.tally.observeAll s.filter events }
  | .hear signal => { s with tally := s.tally.hear s.filter signal }

def run (s : Session) (actions : List Action) : Session := actions.foldl act s

end Session

end MessageCompiler.Log
