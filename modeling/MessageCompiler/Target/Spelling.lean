import MessageCompiler.Definition.Basic
import MessageCompiler.Target.Reserved

/-!
# Spelling a definition for a target

The types and names of a definition are spelled anew for each target: well-known types get the
target's own names, a path in front of a type is dropped, and a name that the target cannot use is
escaped. Everything else in a definition stays as it is.
-/

namespace MessageCompiler

namespace Target

/-- The C# name of a well-known type. -/
def csharpType? (type : Text) : Option Text :=
  [("float64", "double"), ("Float64", "double"), ("float32", "float"), ("Float32", "float"),
    ("int32", "int"), ("Int32", "int"), ("int64", "long"), ("Int64", "long"),
    ("String", "string"), ("geometry_msgs/Vector3", "Vector3"),
    ("geometry_msgs/Point", "Vector3"), ("geometry_msgs/Point32", "Vector3"),
    ("geometry_msgs/Quaternion", "Quaternion"), ("geometry_msgs/Transform", "Transform"),
    ("geometry_msgs/Pose", "Transform")].findSome? fun (known, spelled) =>
      if known.toList = type then some spelled.toList else none

/-- The Python name for a C# type: text, whole numbers and other numbers have one type each. -/
def pythonType? (type : Text) : Option Text :=
  [("string", "str"), ("char", "str"), ("byte", "int"), ("sbyte", "int"), ("short", "int"),
    ("ushort", "int"), ("uint", "int"), ("long", "int"), ("ulong", "int"), ("double", "float"),
    ("decimal", "float")].findSome? fun (known, spelled) =>
      if known.toList = type then some spelled.toList else none

/-- A type without the path in front of it. -/
def withoutPath (type : Text) : Text :=
  match Text.splitLast '/' type with
  | some (_, last) => last
  | none => type

/-- A type as the target spells it. A type that is not well known keeps its name. -/
def typeName (t : Target) (type : Text) : Text :=
  let base := withoutPath ((csharpType? type).getD type)
  match t with
  | .csharp => base
  | .python => (pythonType? base).getD base

/-- The name of the member that holds the time of creation, which every message has. -/
def creationTime : Target → Text
  | .csharp => "Timestamp".toList
  | .python => "timestamp".toList

/-- Whether a field of this name would hide the creation time. -/
def hidesCreationTime (t : Target) (name : Text) : Bool := name == t.creationTime

/-- A field's name as the target can use it. A name that would hide the creation time, and a
reserved word in Python, gets an underscore; a reserved word in C# is marked as verbatim. -/
def fieldName (t : Target) (name : Text) : Text :=
  if t.hidesCreationTime name then name ++ ['_']
  else if t.isReserved name then
    match t with
    | .csharp => '@' :: name
    | .python => name ++ ['_']
  else name

end Target

/-- A field as the target spells it. -/
def Field.spelled (t : Target) (f : Field) : Field :=
  { f with type := t.typeName f.type, name := t.fieldName f.name }

def Member.spelled (t : Target) : Member → Member
  | .field f => .field (f.spelled t)
  | .invalid line => .invalid line

def Definition.spelled (t : Target) (d : Definition) : Definition :=
  { d with members := d.members.map (Member.spelled t) }

end MessageCompiler
