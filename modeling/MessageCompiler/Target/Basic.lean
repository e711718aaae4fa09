import MessageCompiler.Fault

/-!
# Target languages

The languages that a message can be compiled to. Wherever several targets are at work they take
turns in the order of `Target.all`.
-/

namespace MessageCompiler

/-- A language that a message can be compiled to. -/
inductive Target where
  | csharp
  | python
  deriving DecidableEq, Repr

namespace Target

/-- Every target, in the order in which files are generated. -/
def all : List Target := [.csharp, .python]

def name : Target → Text
  | .csharp => "csharp".toList
  | .python => "python".toList

/-- The extension of a generated file, without the dot. -/
def extension : Target → Text
  | .csharp => "cs".toList
  | .python => "py".toList

/-- The target with this name or short name; the letters A to Z may be written in either case. -/
def ofName (t : Text) : Except Fault Target :=
  let lower := Text.lowerAscii t
  if lower = "csharp".toList || lower = "cs".toList || lower = "c#".toList then .ok .csharp
  else if lower = "python".toList || lower = "py".toList then .ok .python
  else .error (.unknownTarget t)

theorem mem_all (t : Target) : t ∈ all := by cases t <;> decide

end Target

end MessageCompiler
