/-!
# Text

Text is the list of its characters. This module holds the cuts that every reader of the library
makes: into lines, into words, and off either end. "Blank" always means the Unicode property
White_Space, and lines end at a line feed only.
-/

namespace MessageCompiler

/-- A text is the list of its characters. -/
abbrev Text := List Char

namespace Text

/-- The characters with the Unicode property White_Space. -/
def isBlank (c : Char) : Bool :=
  let n := c.toNat
  (0x09 ≤ n && n ≤ 0x0D) || n == 0x20 || n == 0x85 || n == 0xA0 || n == 0x1680
    || (0x2000 ≤ n && n ≤ 0x200A) || n == 0x2028 || n == 0x2029 || n == 0x202F || n == 0x205F
    || n == 0x3000

/-- The text without the characters at its end that satisfy `p`. -/
def dropEndWhile (p : Char → Bool) (t : Text) : Text := (t.reverse.dropWhile p).reverse

def trimStart (t : Text) : Text := t.dropWhile isBlank

def trimEnd (t : Text) : Text := dropEndWhile isBlank t

def trim (t : Text) : Text := trimEnd (trimStart t)

/-- The pieces between the elements that satisfy `p`, empty pieces included: one more than there
are such elements. -/
def splitWhen {α : Type} (p : α → Bool) : List α → List (List α)
  | [] => [[]]
  | a :: rest =>
    if p a then [] :: splitWhen p rest
    else
      match splitWhen p rest with
      | [] => [[a]]
      | piece :: pieces => (a :: piece) :: pieces

/-- The pieces between line feeds. No other character ends a line. -/
def lines (t : Text) : List Text := splitWhen (· == '\n') t

/-- The maximal runs of characters that are no blanks. -/
def words (t : Text) : List Text := (splitWhen isBlank t).filter (!·.isEmpty)

/-- The words of a text with one space between them. -/
def collapse (t : Text) : Text := [' '].intercalate (words t)

/-- What stands before and after the last `sep`, if there is one. -/
def splitLast {α : Type} [BEq α] (sep : α) (t : List α) : Option (List α × List α) :=
  match t.reverse.span (· != sep) with
  | (_, []) => none
  | (last, _ :: initial) => some (initial.reverse, last.reverse)

/-- The lines of a file, each closed by a line feed. -/
def unlines (ls : List Text) : Text := ls.flatMap (· ++ ['\n'])

/-- A number in decimal, without leading zeros. -/
def decimal (n : Nat) : Text := Nat.toDigits 10 n

/-- The text with the letters A to Z in lower case; every other character is kept. -/
def lowerAscii (t : Text) : Text :=
  t.map fun c => if 'A' ≤ c && c ≤ 'Z' then Char.ofNat (c.toNat + 32) else c

end Text

end MessageCompiler
