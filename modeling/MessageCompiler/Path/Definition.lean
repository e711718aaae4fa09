import MessageCompiler.Definition.Name
import MessageCompiler.Path.Basic

/-!
# Where definitions lie

Which names make a file a definition and a folder one that is searched for definitions, what the
message in a file is called, and where its source goes unless another place is asked for.
-/

namespace MessageCompiler.Path

/-- The names of the folders that are searched. -/
def messageFolderNames : List Text :=
  ["msg", "messages", "msgs", "mesg", "mesgs", "builtin_msgs"].map String.toList

def isMessageFolder (p : Path) : Bool :=
  match fileName? p with
  | some name => (messageFolderNames.map ofText).contains name
  | none => false

/-- Whether the name of a file says that it holds a definition. -/
def isDefinitionFile (p : Path) : Bool := extension? p == some (ofText "msg".toList)

/-- The folder that takes the source of the message in a file, unless another is asked for. -/
def defaultOutput (file : Path) : Path :=
  let folder := (parent? file).getD []
  join (if folder.isEmpty then here else folder) (ofText "built".toList)

/-- The name of the message in a file, if the file's stem gives one. -/
def messageName? (file : Path) : Option Text := do
  let stem ← stem? file
  let name := Text.pascal (← Utf8.decode? stem)
  if name.isEmpty then none else some name

end MessageCompiler.Path
