import MessageCompiler.Source.CSharp
import MessageCompiler.Source.Python

/-!
# Generated source

The source of a message in a target language, and the file that holds it. Source is made of lines,
each closed by a line feed.
-/

namespace MessageCompiler

namespace Source

def lines : Target → Definition → List Text
  | .csharp, d => CSharp.lines d
  | .python, d => Python.lines d

/-- The source of a message, given as the target spells it. -/
def render (t : Target) (d : Definition) : Text := Text.unlines (lines t d)

end Source

structure SourceFile where
  target : Target
  name : Text
  contents : Text
  deriving DecidableEq, Repr

namespace SourceFile

/-- The name of the file that holds a message in a target language. -/
def nameFor (message : Text) (t : Target) : Text := message ++ ['.'] ++ t.extension

/-- The file that holds a definition in a target language. -/
def ofDefinition (d : Definition) (t : Target) : SourceFile where
  target := t
  name := nameFor d.name t
  contents := Source.render t (d.spelled t)

end SourceFile

end MessageCompiler
