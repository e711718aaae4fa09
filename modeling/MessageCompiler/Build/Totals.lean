import MessageCompiler.Build.Failure

/-!
# Totals

What a build has done so far, in numbers. Totals add up: those of a folder are the sum over its
files, and those of a tree the sum over its folders.
-/

namespace MessageCompiler.Build

/-- The numbers of a build. -/
structure Totals where
  /-- Definition files that were compiled and saved. -/
  compiled : Nat := 0
  /-- Source files of those definitions. -/
  written : Nat := 0
  /-- Definition files that failed. -/
  failed : Nat := 0
  warnings : Nat := 0
  errors : Nat := 0
  deriving DecidableEq, Repr

namespace Totals

def add (a b : Totals) : Totals where
  compiled := a.compiled + b.compiled
  written := a.written + b.written
  failed := a.failed + b.failed
  warnings := a.warnings + b.warnings
  errors := a.errors + b.errors

instance : Add Totals := ⟨add⟩

/-- The numbers of one file. -/
def ofOutcome : Outcome → Totals
  | .ok (some c) => ⟨1, c.files.length, 0, c.warnings, c.errors⟩
  | .ok none => {}
  | .error _ => { failed := 1 }

/-- The numbers with one more file. -/
def record (outcome : Outcome) (t : Totals) : Totals := t + ofOutcome outcome

/-- Whether nothing failed and no definition has an error. Warnings are no obstacle. -/
def isSuccess (t : Totals) : Bool := t.failed == 0 && t.errors == 0

def shown (t : Totals) : Text :=
  Text.decimal t.compiled ++ " compiled, ".toList ++ Text.decimal t.written
    ++ " written, ".toList ++ Text.decimal t.failed ++ " failed, ".toList
    ++ Text.decimal t.warnings ++ " warnings, ".toList ++ Text.decimal t.errors
    ++ " errors".toList

end Totals

end MessageCompiler.Build
