import MessageCompiler.Text.Basic
import MessageCompiler.Text.UpperCase.Table

/-!
# Upper case

The upper case of a character is a text: most characters have one of a single character, but the
German sharp s becomes two, and some ligatures become three.
-/

namespace MessageCompiler.Text

/-- The upper case of a code point, if the run holds it. -/
def UpperCase.Run.upperOf? (run : UpperCase.Run) (n : Nat) : Option Nat :=
  if run.first ≤ n && n ≤ run.last && (n - run.first) % run.stride == 0 then
    some (run.upper + (n - run.first))
  else none

/-- The upper case of a code point. -/
def upperCodes (n : Nat) : List Nat :=
  match UpperCase.expansions.lookup n with
  | some codes => codes
  | none =>
    match UpperCase.runs.findSome? (·.upperOf? n) with
    | some code => [code]
    | none => [n]

/-- The upper case of a character, which may be several characters. -/
def upper (c : Char) : Text := (upperCodes c.toNat).map Char.ofNat

/-- The text with its first character in upper case. -/
def upperFirst : Text → Text
  | [] => []
  | c :: rest => upper c ++ rest

end MessageCompiler.Text
