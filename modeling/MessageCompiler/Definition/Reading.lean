import MessageCompiler.Definition.Basic
import MessageCompiler.Definition.Line
import MessageCompiler.Log.Journal

/-!
# Reading a definition

A definition is read in two passes. The first follows the directives and imports the namespaces of
qualified types; what it leaves is a list of *body lines* without directives. The second attaches
comments to the fields that follow them and keeps a place for every malformed line. Reading never
fails: each problem is reported in the journal.
-/

namespace MessageCompiler

/-- What a line contributes to the members, once directives are gone and types are unqualified. -/
inductive Body where
  | comment (text : Text)
  | field (type name : Text)
  | malformed
  deriving DecidableEq, Repr

/-- A numbered body line. -/
structure BodyLine where
  number : Nat
  body : Body
  deriving DecidableEq, Repr

/-- What the first pass has gathered so far. -/
structure Header where
  kind : Kind := Kind.default
  imports : List Import := []
  journal : Journal := {}
  deriving DecidableEq, Repr

namespace Header

/-- Follows a `type` line: an unknown kind is an error, and the kind stays as it was. -/
def setKind (name : Text) (line : Nat) (argument : Text) (h : Header) : Header :=
  match Kind.ofName argument with
  | .ok kind => { h with kind }
  | .error fault => { h with journal := h.journal.error name line fault.message }

/-- Follows a `namespace` or `using` line: a known name is worth a warning and nothing else. -/
def request (name : Text) (line : Nat) (argument : Text) (i : Import) (h : Header) : Header :=
  match Import.add? h.imports i with
  | some imports => { h with imports }
  | none =>
    { h with
      journal := h.journal.warn name line ("skipping duplicate namespace ".toList ++ argument) }

/-- Imports the namespace of a qualified type: that it is known already is only worth a remark. -/
def qualify (name : Text) (line : Nat) (qualifier : Text) (h : Header) : Header :=
  match Import.add? h.imports (.uses qualifier) with
  | some imports => { h with imports }
  | none =>
    { h with
      journal := h.journal.remark name line
        ("namespace ".toList ++ qualifier ++ " already imported".toList) }

/-- Reads the type of a field: the last part of a qualified type is its own name, and the rest is a
namespace to import. A type that ends in a dot has no name, so its line is malformed. -/
def fieldType (name : Text) (line : Nat) (type fieldName : Text) (h : Header) : Header × Body :=
  match Text.splitLast '.' type with
  | none => (h, .field type fieldName)
  | some (qualifier, last) =>
    if last.isEmpty then (h, .malformed)
    else if qualifier.isEmpty then (h, .field last fieldName)
    else (h.qualify name line qualifier, .field last fieldName)

/-- Reads one line of the message `name`: what it leaves for the body, if anything. -/
def step (name : Text) (h : Header) (line : Line) : Header × Option BodyLine :=
  match line.content with
  | .directive (.kind argument) => (h.setKind name line.number argument, none)
  | .directive (.home argument) => (h.request name line.number argument (.home argument), none)
  | .directive (.uses argument) => (h.request name line.number argument (.uses argument), none)
  | .field type fieldName =>
    let (h, body) := h.fieldType name line.number type fieldName
    (h, some ⟨line.number, body⟩)
  | .comment text => (h, some ⟨line.number, .comment text⟩)
  | .malformed => (h, some ⟨line.number, .malformed⟩)

/-- The first pass over the lines of the message `name`. -/
def read (name : Text) (h : Header) : List Line → Header × List BodyLine
  | [] => (h, [])
  | line :: lines =>
    let (h, kept) := h.step name line
    let (h, rest) := h.read name lines
    (h, kept.toList ++ rest)

end Header

namespace Body

/-- The warning about comments that no field of the message `name` follows. It is about no line. -/
def warnTrailing (name : Text) (j : Journal) : Journal :=
  (j.push
    { severity := .warning
      line := none
      message := "dropping trailing comment with no field after it".toList }).log
    { level := .warn
      message := "dropping trailing comment with no field after it".toList
      definition := some name }

/-- The second pass over the message `name`, given the comments that wait for a field: the members,
and the journal with what is wrong with them. -/
def members (name : Text) (docs : List Text) (j : Journal) :
    List BodyLine → List Member × Journal
  | [] => ([], if docs.isEmpty then j else warnTrailing name j)
  | ⟨_, .comment text⟩ :: rest => members name (docs ++ [text]) j rest
  | ⟨number, .field type fieldName⟩ :: rest =>
    let (ms, j) := members name [] j rest
    (.field ⟨number, type, fieldName, docs⟩ :: ms, j)
  | ⟨number, .malformed⟩ :: rest =>
    let j := j.warn name number
      ("skipping line ".toList ++ Text.decimal number ++ " - type or name is empty".toList)
    -- the comments go on waiting
    let (ms, j) := members name docs j rest
    (.invalid number :: ms, j)

end Body

namespace Definition

def ofText (name text : Text) : Definition × Journal :=
  let (header, body) := ({} : Header).read name (Line.scan text)
  let (members, journal) := Body.members name [] header.journal body
  (⟨name, header.kind, header.imports, members⟩, journal)

end Definition

end MessageCompiler
