import MessageCompiler.Text.Basic

/-!
# Definition kinds

The structural category of a message, as a `type` line asks for it and as C# source writes it.
-/

namespace MessageCompiler

/-- The structural category of a message. -/
inductive Kind where
  | classType
  | recordType
  | structType
  | recordClass
  | recordStruct
  deriving DecidableEq, Repr

namespace Kind

/-- A message is an immutable value unless it says otherwise. -/
def default : Kind := .recordStruct

instance : Inhabited Kind := ⟨default⟩

/-- Every kind, in the order in which messages list them. -/
def all : List Kind := [.classType, .recordType, .structType, .recordClass, .recordStruct]

def name : Kind → Text
  | .classType => "class".toList
  | .recordType => "record".toList
  | .structType => "struct".toList
  | .recordClass => "record class".toList
  | .recordStruct => "record struct".toList

def ofName? (t : Text) : Option Kind := all.find? (·.name == t)

@[simp] theorem ofName?_name (k : Kind) : ofName? k.name = some k := by cases k <;> rfl

end Kind

end MessageCompiler
