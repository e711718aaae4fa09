import MessageCompiler.Source.Placeholder
import MessageCompiler.Target.Spelling

/-!
# C# source

A message in C#: the header declares its namespaces and imports, one to a line; the body declares
the creation time, the members in order, and an empty constructor.
-/

namespace MessageCompiler.Source.CSharp

def importLine (i : Import) : Text :=
  match i.kind with
  | .home => "namespace ".toList ++ i.name ++ [';']
  | .uses => "using ".toList ++ i.name ++ [';']

/-- The line of one comment in the documentation of a field. -/
def docLine (doc : Text) : Text :=
  if doc.isEmpty then "    ///".toList else "    /// ".toList ++ doc

/-- The documentation of a field, between its opening and its closing line. -/
def docLines (docs : List Text) : List Text :=
  if docs.isEmpty then []
  else "    /// <summary>".toList :: docs.map docLine ++ ["    /// </summary>".toList]

/-- The line that declares a field. -/
def fieldLine (f : Field) : Text :=
  "    public ".toList ++ f.type ++ [' '] ++ f.name ++ [';']

def memberLines : Member → List Text
  | .field f => docLines f.docs ++ [fieldLine f, []]
  | .invalid line => ["    // ".toList ++ placeholder line]

def creationLine : Text :=
  "    public DateTime ".toList ++ Target.csharp.creationTime
    ++ " \x7b get; set; \x7d = DateTime.UtcNow;".toList

/-- The line that opens the declaration of the message. -/
def typeLine (d : Definition) : Text :=
  "public ".toList ++ d.kind.name ++ [' '] ++ d.name ++ " : ".toList ++ messageInterface

def constructorLine (name : Text) : Text := "    public ".toList ++ name ++ "()\x7b\x7d".toList

/-- The lines before the declaration of the message. -/
def headerLines (imports : List Import) : List Text :=
  ["using ".toList ++ messageModule ++ [';'], []] ++ imports.flatMap fun i => [importLine i, []]

def lines (d : Definition) : List Text :=
  headerLines d.imports ++ [typeLine d, ['\x7b'], creationLine, []]
    ++ d.members.flatMap memberLines ++ [constructorLine d.name, ['\x7d']]

end MessageCompiler.Source.CSharp
