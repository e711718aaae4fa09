import MessageCompiler.Text.Basic

/-!
# Counts

Counts come from settings files and command lines, and have to fit into 64 bits.
-/

namespace MessageCompiler.Count

/-- The first number that does not fit into 64 bits. -/
def limit : Nat := 18446744073709551616

example : limit = Nat.pow 2 64 := by decide

/-- The count that a word writes: decimal digits, perhaps after a plus sign. -/
def ofText? (word : Text) : Option Nat :=
  let digits :=
    match word with
    | '+' :: rest => rest
    | _ => word
  let n := digits.foldl (fun n c => n * 10 + (c.toNat - 0x30)) 0
  if !digits.isEmpty && digits.all (fun c => '0' ≤ c && c ≤ '9') && n < limit then some n
  else none

end MessageCompiler.Count
