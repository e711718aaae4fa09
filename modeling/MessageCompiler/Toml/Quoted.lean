import MessageCompiler.Toml.Scalar

/-!
# Quoted texts

The four forms of quoted text: on one line or on several, with escapes or to the letter. Each
reader starts after the opening quotes and gives the text and what follows the closing quotes. The
number of steps that it is given bounds the characters it reads.
-/

namespace MessageCompiler.Toml

/-- The characters that may stand for themselves: all but controls, of which a tab is allowed. -/
def isPlain (c : Char) : Bool := c == '\t' || (0x20 ≤ c.toNat && c.toNat != 0x7F)

/-- A blank within a line. -/
def isSpace (c : Char) : Bool := c == ' ' || c == '\t'

/-- The character with a number in hexadecimal, if there is such a character. -/
def charOf? (hex : Text) : Option Char :=
  let n := numberOf 16 hex
  if hex.all (isDigitOf 16) && n.isValidChar then some (Char.ofNat n) else none

/-- The character that an escape of `n` hexadecimal digits stands for, and what follows. -/
def numbered? (n : Nat) (t : Text) : Option (Char × Text) :=
  if n ≤ t.length then (charOf? (t.take n)).map fun c => (c, t.drop n) else none

/-- The character that an escape stands for, given what follows its backslash, and the rest. -/
def escape? : Text → Option (Char × Text)
  | 'b' :: rest => some ('\x08', rest)
  | 't' :: rest => some ('\t', rest)
  | 'n' :: rest => some ('\n', rest)
  | 'f' :: rest => some ('\x0c', rest)
  | 'r' :: rest => some ('\r', rest)
  | 'e' :: rest => some ('\x1b', rest)
  | '"' :: rest => some ('"', rest)
  | '\\' :: rest => some ('\\', rest)
  | 'x' :: rest => numbered? 2 rest
  | 'u' :: rest => numbered? 4 rest
  | 'U' :: rest => numbered? 8 rest
  | _ => none

/-- What follows a line end, if the text starts with one. -/
def afterLineEnd? : Text → Option Text
  | '\n' :: rest => some rest
  | '\r' :: '\n' :: rest => some rest
  | _ => none

/-- What follows the blanks and line ends at the start of a text. -/
def skipBlankLines : Text → Text
  | ' ' :: rest => skipBlankLines rest
  | '\t' :: rest => skipBlankLines rest
  | '\n' :: rest => skipBlankLines rest
  | '\r' :: '\n' :: rest => skipBlankLines rest
  | rest => rest

/-- What is read and what follows it, with a text in front of what is read. -/
def prepend (t : Text) (read : Text × Text) : Text × Text := (t ++ read.1, read.2)

/-- Reads a text with escapes on one line. -/
def basic? : Nat → Text → Option (Text × Text)
  | 0, _ => none
  | _ + 1, [] => none
  | steps + 1, c :: rest =>
    if c = '"' then some ([], rest)
    else if c = '\\' then do
      let (c, rest) ← escape? rest
      (basic? steps rest).map (prepend [c])
    else if isPlain c then (basic? steps rest).map (prepend [c])
    else none

/-- Reads a text to the letter on one line. -/
def literal? : Text → Option (Text × Text)
  | [] => none
  | c :: rest =>
    if c = '\'' then some ([], rest)
    else if isPlain c then (literal? rest).map (prepend [c])
    else none

/-- What a text over several lines ends with, after three quotes: up to two more belong to it. -/
def closing (quote : Char) : Text → Text × Text
  | a :: b :: rest =>
    if a = quote && b = quote then ([a, b], rest)
    else if a = quote then ([a], b :: rest)
    else ([], a :: b :: rest)
  | [a] => if a = quote then ([a], []) else ([], [a])
  | [] => ([], [])

/-- What follows the three quotes at the start of a text. -/
def afterQuotes? (quote : Char) : Text → Option Text
  | a :: b :: c :: rest => if a = quote && b = quote && c = quote then some rest else none
  | _ => none

/-- Reads a text over several lines, with escapes or to the letter. Every line end becomes a line
feed; a backslash at the end of a line joins the text to whatever comes next. -/
def several? (escapes : Bool) (quote : Char) : Nat → Text → Option (Text × Text)
  | 0, _ => none
  | steps + 1, t =>
    match afterQuotes? quote t, afterLineEnd? t, t with
    | some rest, _, _ => some (closing quote rest)
    | none, some rest, _ => (several? escapes quote steps rest).map (prepend ['\n'])
    | none, none, [] => none
    | none, none, c :: rest =>
      if escapes && c = '\\' then
        match afterLineEnd? (rest.dropWhile isSpace) with
        | some rest => several? escapes quote steps (skipBlankLines rest)
        | none => do
          let (c, rest) ← escape? rest
          (several? escapes quote steps rest).map (prepend [c])
      else if isPlain c then (several? escapes quote steps rest).map (prepend [c])
      else none

/-- Reads a text that starts with a quote on a single line. -/
def quoted? : Text → Option (Text × Text)
  | '"' :: rest => basic? (rest.length + 1) rest
  | '\'' :: rest => literal? rest
  | _ => none

/-- Reads a text that starts with three quotes. A line end right after them does not count. -/
def quotedLines? (t : Text) : Option (Text × Text) :=
  let body (rest : Text) : Text := (afterLineEnd? rest).getD rest
  match afterQuotes? '"' t, afterQuotes? '\'' t with
  | some rest, _ => several? true '"' (rest.length + 1) (body rest)
  | none, some rest => several? false '\'' (rest.length + 1) (body rest)
  | none, none => none

end MessageCompiler.Toml
