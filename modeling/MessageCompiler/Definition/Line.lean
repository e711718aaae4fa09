import MessageCompiler.Text.Basic

/-!
# Source lines

A definition is read line by line. A line is trimmed, loses the semicolons at its end, and is then
a comment, a directive, a field, or malformed; a line of which nothing is left is dropped. Every
line keeps the number that it has in the source, counted from one.
-/

namespace MessageCompiler

/-- A line that configures the message. -/
inductive Directive where
  | kind (argument : Text)
  | home (argument : Text)
  | uses (argument : Text)
  deriving DecidableEq, Repr

/-- What a line says. -/
inductive Content where
  /-- A comment, without its marker and the blanks around it. -/
  | comment (text : Text)
  | directive (d : Directive)
  /-- A type and a name; whatever follows the name is ignored. -/
  | field (type name : Text)
  /-- A single word, which lacks either a type or a name. -/
  | malformed
  deriving DecidableEq, Repr

/-- A line of which something is left. -/
structure Line where
  number : Nat
  content : Content
  deriving DecidableEq, Repr

namespace Line

/-- What counts of a source line: neither the blanks around it nor the semicolons at its end. -/
def significant (raw : Text) : Text :=
  Text.trimEnd (Text.dropEndWhile (· == ';') (Text.trim raw))

/-- What follows the comment marker, if the line starts with one. -/
def comment? : Text → Option Text
  | '/' :: '/' :: rest => some rest
  | '#' :: rest => some rest
  | _ => none

/-- What a line says whose first word is `head` and which goes on with `rest`. -/
def ofWords (head rest : Text) : Content :=
  if head = "type".toList then .directive (.kind (Text.collapse rest))
  else if head = "namespace".toList then .directive (.home (Text.collapse rest))
  else if head = "using".toList then .directive (.uses (Text.collapse rest))
  else .field head ((Text.words rest).headD [])

/-- What a trimmed line says. -/
def classify (line : Text) : Content :=
  match comment? line with
  | some text => .comment (Text.trim text)
  | none =>
    let rest := Text.trimStart (line.dropWhile (!Text.isBlank ·))
    if rest.isEmpty then .malformed
    else ofWords (line.takeWhile (!Text.isBlank ·)) rest

/-- The line with the given number, if anything is left of it. -/
def ofRaw? (number : Nat) (raw : Text) : Option Line :=
  let line := significant raw
  if line.isEmpty then none else some ⟨number, classify line⟩

/-- The lines among `raws`, the first of which has the given number. -/
def scanFrom (number : Nat) : List Text → List Line
  | [] => []
  | raw :: raws => (ofRaw? number raw).toList ++ scanFrom (number + 1) raws

def scan (text : Text) : List Line := scanFrom 1 (Text.lines text)

end Line

end MessageCompiler
