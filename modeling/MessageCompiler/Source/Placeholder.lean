import MessageCompiler.Text.Basic

/-!
# Placeholders

A malformed line leaves a comment in the generated source, so that readers see that something is
missing and where to look for it.
-/

namespace MessageCompiler.Source

/-- The comment that stands in for the malformed line of this number. -/
def placeholder (line : Nat) : Text :=
  "Message line ".toList ++ Text.decimal line ++ " is invalid. Skipped.".toList

end MessageCompiler.Source
