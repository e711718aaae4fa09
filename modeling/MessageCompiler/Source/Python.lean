import MessageCompiler.Source.Placeholder
import MessageCompiler.Target.Spelling

/-!
# Python source

A message in Python is a dataclass. Its first field is the creation time; each member follows after
an empty line. Imports have no place in it: a Python module is its own namespace.
-/

namespace MessageCompiler.Source.Python

/-- The type of a field and its value when none is given: the zero of a basic type, and nothing at
all for any other type. -/
def typeHint (type : Text) : Text :=
  if type = "int".toList then "int = 0".toList
  else if type = "float".toList then "float = 0.0".toList
  else if type = "str".toList then "str = \"\"".toList
  else if type = "bool".toList then "bool = False".toList
  else "Optional[".toList ++ type ++ "] = None".toList

/-- The line of one comment in the documentation of a field. -/
def docLine (doc : Text) : Text :=
  if doc.isEmpty then "    #:".toList else "    #: ".toList ++ doc

/-- The line that declares a field. -/
def fieldLine (f : Field) : Text :=
  "    ".toList ++ f.name ++ ": ".toList ++ typeHint f.type

def memberLines : Member → List Text
  | .field f => [] :: f.docs.map docLine ++ [fieldLine f]
  | .invalid line => [[], "    # ".toList ++ placeholder line]

def creationLine : Text :=
  "    ".toList ++ Target.python.creationTime
    ++ ": datetime = field(default_factory=lambda: datetime.now(timezone.utc))".toList

/-- The line that opens the class of the message. -/
def classLine (name : Text) : Text :=
  "class ".toList ++ name ++ ['('] ++ messageInterface ++ "):".toList

/-- The lines before the class of the message. -/
def headerLines : List Text :=
  ["from __future__ import annotations".toList,
    [],
    "from dataclasses import dataclass, field".toList,
    "from datetime import datetime, timezone".toList,
    "from typing import Optional".toList,
    [],
    "from rant.messages import ".toList ++ messageInterface,
    [],
    [],
    "@dataclass".toList]

def lines (d : Definition) : List Text :=
  headerLines ++ [classLine d.name, creationLine] ++ d.members.flatMap memberLines

end MessageCompiler.Source.Python
