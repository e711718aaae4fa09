import MessageCompiler.Definition.Diagnostic
import MessageCompiler.Definition.Kind

/-!
# Message definitions

What a definition says, before any target language is considered: its kind, its namespaces and
imports, and its members in source order.
-/

namespace MessageCompiler

/-- The namespace that holds the message interface; every message imports it. -/
def messageModule : Text := "Rant.Messages".toList

/-- The interface that every message implements. -/
def messageInterface : Text := "IMessage".toList

/-- How a name is brought into the generated source. -/
inductive ImportKind where
  | home
  | uses
  deriving DecidableEq, Repr

/-- A namespace that the message belongs to or uses. -/
structure Import where
  kind : ImportKind
  name : Text
  deriving DecidableEq, Repr

namespace Import

/-- The namespace that a message is declared in by an argument of a `namespace` line. -/
def homeName (argument : Text) : Text := argument ++ ".Messages".toList

def home (argument : Text) : Import := ⟨.home, homeName argument⟩

def uses (name : Text) : Import := ⟨.uses, name⟩

/-- Whether the name needs no import any more: it is among the imports, or it is the namespace that
every message imports. -/
def known (imports : List Import) (name : Text) : Bool :=
  name == messageModule || imports.any (·.name == name)

/-- The imports with `i` after them, unless its name is known. -/
def add? (imports : List Import) (i : Import) : Option (List Import) :=
  if known imports i.name then none else some (imports ++ [i])

end Import

/-- A field, with the comments that document it. -/
structure Field where
  /-- The source line of the field. -/
  line : Nat
  type : Text
  name : Text
  docs : List Text
  deriving DecidableEq, Repr

/-- A member of a message. -/
inductive Member where
  | field (f : Field)
  /-- A malformed line, of which only the number is kept. -/
  | invalid (line : Nat)
  deriving DecidableEq, Repr

def Member.field? : Member → Option Field
  | .field f => some f
  | .invalid _ => none

/-- What a definition says. -/
structure Definition where
  name : Text
  kind : Kind
  imports : List Import
  members : List Member
  deriving DecidableEq, Repr

def Definition.fields (d : Definition) : List Field := d.members.filterMap Member.field?

end MessageCompiler
