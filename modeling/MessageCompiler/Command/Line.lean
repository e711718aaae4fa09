import MessageCompiler.Command.Check

/-!
# Command lines

A command line names a command, step by step, and goes on with the words of that command. At each
step it may ask for help instead, and at the first one for the version.
-/

namespace MessageCompiler

/-- What the program can be told to do. -/
inductive Command where
  | build (options : Command.BuildOptions)
  | check (options : Command.CheckOptions)
  deriving DecidableEq, Repr

namespace Command

/-- The names that may follow the names of a command: a group of commands has its members and the
command for help. -/
def namesAfter (path : List Text) : List Text :=
  if path.isEmpty then ["msg".toList, "help".toList]
  else if path = ["msg".toList] then ["build".toList, "check".toList, "help".toList]
  else []

/-- Answers a request for help about the command that names lead to. -/
def helpFor (path : List Text) : List Text → Usage
  | [] => .help
  | name :: rest =>
    if (namesAfter path).contains name then helpFor (path ++ [name]) rest else .unknownCommand

/-- What an option amounts to where the name of a command is due, given what follows its first
dash. -/
def optionFor (path : List Text) : Text → Usage
  | '-' :: word =>
    let (name, tail) := word.span (· != '=')
    let answer : Option Usage :=
      if name = "help".toList then some .help
      else if name = "version".toList && path.isEmpty then some .version
      else none
    match answer with
    | some usage => if tail.isEmpty then usage else .unwantedValue
    | none => .unknownArgument
  | 'h' :: _ => .help
  | 'V' :: _ => if path.isEmpty then .version else .unknownArgument
  | _ => .unknownArgument

/-- The name of the next command, given the names before, and the words that follow it. -/
def next (path : List Text) : List Text → Except Usage (Text × List Text)
  | [] => .error .commandMissing
  | word :: rest =>
    if word = ['-', '-'] then
      .error (if rest.isEmpty then .commandMissing else .unknownArgument)
    else if isOption word then .error (optionFor path (word.drop 1))
    else if !(namesAfter path).contains word then .error .unknownCommand
    else if word = "help".toList then .error (helpFor path rest)
    else .ok (word, rest)

def ofWords (words : List Text) : Except Usage Command :=
  match next [] words with
  | .error usage => .error usage
  | .ok (group, words) =>
    match next [group] words with
    | .error usage => .error usage
    | .ok (name, words) =>
      if name = "build".toList then (BuildOptions.ofWords words).map .build
      else (CheckOptions.ofWords words).map .check

end Command

end MessageCompiler
