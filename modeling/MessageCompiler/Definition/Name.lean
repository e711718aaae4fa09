import MessageCompiler.Text.UpperCase

/-!
# Message names

A message is named after its file: the words of the file's stem, each with its first character in
upper case, written without the spaces between them. Only the space U+0020 divides words here.
-/

namespace MessageCompiler.Text

/-- The space-separated words of a text, each with its first character in upper case, joined. -/
def pascal (t : Text) : Text := (splitWhen (· == ' ') t).flatMap upperFirst

end MessageCompiler.Text
