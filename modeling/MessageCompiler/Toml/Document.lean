import MessageCompiler.Toml.Quoted

/-!
# TOML documents

A document is a list of lines: each opens a table, adds a table to an array of tables, or gives a
value to a key of the table that was opened last. Whatever breaks a rule spoils the document as a
whole, so reading gives a table or nothing. Arrays and inline tables may be nested eighty deep.
-/

namespace MessageCompiler.Toml

/-- What follows the blanks, line ends and comments at the start of a text. A comment may hold plain
characters only. -/
def skip? (inComment : Bool) : Text → Option Text
  | [] => some []
  | '\n' :: rest => skip? false rest
  | '\r' :: '\n' :: rest => skip? false rest
  | c :: rest =>
    if inComment then if isPlain c then skip? true rest else none
    else if isSpace c then skip? false rest
    else if c = '#' then skip? true rest
    else some (c :: rest)

/-- What follows a line of which only blanks and a comment are left. -/
def endLine? (inComment : Bool) : Text → Option Text
  | [] => some []
  | '\n' :: rest => some rest
  | '\r' :: '\n' :: rest => some rest
  | c :: rest =>
    if inComment then if isPlain c then endLine? true rest else none
    else if isSpace c then endLine? false rest
    else if c = '#' then endLine? true rest
    else none

/-- What follows the blanks at the start of a text. -/
def skipSpace (t : Text) : Text := t.dropWhile isSpace

/-- What follows a character and the blanks around it. -/
def after? (c : Char) (t : Text) : Option Text :=
  match skipSpace t with
  | d :: rest => if d = c then some (skipSpace rest) else none
  | [] => none

def isKeyChar (c : Char) : Bool :=
  isDecimalDigit c || ('a' ≤ c && c ≤ 'z') || ('A' ≤ c && c ≤ 'Z') || c == '_' || c == '-'

/-- Reads one part of a key. -/
def simpleKey? (t : Text) : Option (Text × Text) :=
  match t with
  | [] => none
  | c :: _ =>
    if c = '"' || c = '\'' then
      if (afterQuotes? c t).isSome then none else quoted? t
    else
      let (key, rest) := t.span isKeyChar
      if key.isEmpty then none else some (key, rest)

/-- Reads a key: its parts but the last, and the last. -/
def key? : Nat → Text → Option (List Text × Text × Text)
  | 0, _ => none
  | steps + 1, t => do
    let (part, rest) ← simpleKey? t
    match after? '.' rest with
    | none => some ([], part, rest)
    | some rest =>
      let (path, last, rest) ← key? steps rest
      some (part :: path, last, rest)

/-- Whether an unquoted piece of text goes on with the character. -/
def isScalarChar (c : Char) : Bool :=
  !(c.isWhitespace || ['#', '=', ',', '[', ']', '\x7b', '\x7d', '"', '\''].contains c)

/-- Whether the text is shaped like a date. -/
def isDateShaped (t : Text) : Bool :=
  t.length == 10 && t.zipIdx.all fun (c, i) =>
    if i == 4 || i == 7 then c == '-' else isDecimalDigit c

/-- An unquoted piece of text and what follows it. A space after a date goes with it if a digit
comes next. -/
def scalarText (t : Text) : Text × Text :=
  let (piece, rest) := t.span isScalarChar
  match rest with
  | ' ' :: c :: more =>
    if isDateShaped piece && isDecimalDigit c then
      let (time, rest) := (c :: more).span isScalarChar
      (piece ++ [' '] ++ time, rest)
    else (piece, rest)
  | _ => (piece, rest)

mutual

/-- Reads a value, given how deep arrays and inline tables may still be nested. -/
def value? : Nat → Nat → Text → Option (Value × Text)
  | 0, _, _ => none
  | steps + 1, depth, t =>
    match t, depth with
    | '[' :: rest, depth + 1 => items? steps depth [] rest
    | '\x7b' :: rest, depth + 1 => fields? steps depth ⟨.inline, []⟩ rest
    | '[' :: _, 0 => none
    | '\x7b' :: _, 0 => none
    | t, _ =>
      match quotedLines? t, quoted? t with
      | some (text, rest), _ => some (.text text, rest)
      | none, some (text, rest) =>
        -- three quotes that do not enclose a text of several lines are no empty text
        if (afterQuotes? '"' t).isSome || (afterQuotes? '\'' t).isSome then none
        else some (.text text, rest)
      | none, none =>
        let (piece, rest) := scalarText t
        (scalar? piece).map fun v => (v, rest)

/-- Reads the items of an array up to its closing bracket, given those before. A comma may follow
the last item. -/
def items? : Nat → Nat → List Value → Text → Option (Value × Text)
  | 0, _, _, _ => none
  | steps + 1, depth, items, t => do
    match ← skip? false t with
    | ']' :: rest => some (.array false items, rest)
    | t =>
      let (item, rest) ← value? steps depth t
      match ← skip? false rest with
      | ',' :: rest => items? steps depth (items ++ [item]) rest
      | ']' :: rest => some (.array false (items ++ [item]), rest)
      | _ => none

/-- Reads the fields of an inline table up to its closing brace, given the table so far. A comma may
follow the last field. -/
def fields? : Nat → Nat → Table → Text → Option (Value × Text)
  | 0, _, _, _ => none
  | steps + 1, depth, table, t => do
    match ← skip? false t with
    | '\x7d' :: rest => some (table.toValue, rest)
    | t =>
      let (path, key, rest) ← key? (t.length + 1) t
      let (value, rest) ← value? steps depth (← after? '=' rest)
      let table ← table.define path key value
      match ← skip? false rest with
      | ',' :: rest => fields? steps depth table rest
      | '\x7d' :: rest => some (table.toValue, rest)
      | _ => none

end

/-- A document as far as it has been read: its tables, and the path of the one opened last. -/
structure Reading where
  root : Table
  current : List Text

/-- Reads the header of an element of an array of tables, given what follows its opening
brackets. -/
def Reading.element? (r : Reading) (t : Text) : Option (Reading × Text) := do
  let (path, key, rest) ← key? (t.length + 1) (skipSpace t)
  let root ← r.root.openElement path key
  match skipSpace rest with
  | ']' :: ']' :: rest => some (⟨root, path ++ [key]⟩, rest)
  | _ => none

/-- Reads the header of a table, given what follows its opening bracket. -/
def Reading.table? (r : Reading) (t : Text) : Option (Reading × Text) := do
  let (path, key, rest) ← key? (t.length + 1) (skipSpace t)
  let root ← r.root.openTable path key
  match skipSpace rest with
  | ']' :: rest => some (⟨root, path ++ [key]⟩, rest)
  | _ => none

/-- Reads a key and its value. -/
def Reading.define? (r : Reading) (t : Text) : Option (Reading × Text) := do
  let (path, key, rest) ← key? (t.length + 1) t
  let (value, rest) ← value? (t.length + 1) 80 (← after? '=' rest)
  -- the table was opened before, so nothing is missing on the way to it
  let root ← r.root.change .implied (·.define path key value) r.current
  some ({ r with root }, rest)

/-- Reads the lines of a document, given what comes before them. -/
def Reading.lines? : Nat → Reading → Text → Option Table
  | 0, _, _ => none
  | steps + 1, r, t => do
    match ← skip? false t with
    | [] => some r.root
    | '[' :: '[' :: rest =>
      let (r, rest) ← r.element? rest
      lines? steps r (← endLine? false rest)
    | '[' :: rest =>
      let (r, rest) ← r.table? rest
      lines? steps r (← endLine? false rest)
    | t =>
      let (r, rest) ← r.define? t
      lines? steps r (← endLine? false rest)

/-- Reads a document. A byte order mark at its start does not count. -/
def document? (t : Text) : Option Table :=
  let t := if t.head? = some '\uFEFF' then t.drop 1 else t
  -- each line takes a character at least, so there are steps enough
  Reading.lines? (t.length + 1) ⟨⟨.header, []⟩, []⟩ t

end MessageCompiler.Toml
