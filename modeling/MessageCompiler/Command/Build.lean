import MessageCompiler.Command.Occurrence
import MessageCompiler.Config
import MessageCompiler.Path.Basic

/-!
# The words of a build

What a build is asked for on the command line. Three choices are pairs of a switch and its
opposite, of which the last one counts; a choice that is not made leaves the configuration as it
is.
-/

namespace MessageCompiler.Command

/-- What a build is asked for. -/
structure BuildOptions where
  /-- A definition file, or the folder to build. -/
  path : Path
  /-- The folder that takes the source, instead of the default ones. -/
  output : Option Path
  settings : Option Path
  recursive : Option Bool
  csharp : Option Bool
  python : Option Bool
  /-- Whether every file is announced. -/
  verbose : Bool
  /-- How many folders may be at work at once. -/
  cap : Option Nat
  deriving DecidableEq, Repr

/-- A switch and the switch that takes it back, which has the same name after `no-`. -/
def pair (name : Text) : List Parameter :=
  let opposite := "no-".toList ++ name
  [{ name, opposite := some opposite }, { name := opposite, opposite := some name }]

def buildGrammar : Grammar where
  named :=
    pair "recursive".toList
      ++ [{ name := "output".toList, short := some 'o', takes := .path },
        { name := "config".toList, short := some 'c', takes := .path }]
      ++ pair "csharp".toList ++ pair "python".toList
      ++ [{ name := "verbose".toList, short := some 'v' },
        { name := "max-concurrent".toList, takes := .count }]
  operand := { name := "path".toList, takes := .path }

def isGiven (given : List Given) (name : Text) : Bool := given.any (·.name == name)

def valuesOf (given : List Given) (name : Text) : List Text :=
  (given.filter (·.name == name)).map (·.value)

/-- The choice that a pair of switches makes. -/
def choice (given : List Given) (name : Text) : Option Bool :=
  if isGiven given name then some true
  else if isGiven given ("no-".toList ++ name) then some false
  else none

namespace BuildOptions

/-- What a build is asked for by the parameters that are given. Without a path it is asked for the
folder that one is in. -/
def ofGiven (given : List Given) : BuildOptions :=
  let path? (name : String) : Option Path :=
    ((valuesOf given name.toList).head?).map Path.ofText
  { path := (path? "path").getD Path.here
    output := path? "output"
    settings := path? "config"
    recursive := choice given "recursive".toList
    csharp := choice given "csharp".toList
    python := choice given "python".toList
    verbose := isGiven given "verbose".toList
    cap := ((valuesOf given "max-concurrent".toList).head?).bind Count.ofText? }

def ofWords (words : List Text) : Except Usage BuildOptions :=
  (buildGrammar.read words).map ofGiven

/-- Whether the folders below are built too; they are unless the command line says otherwise. -/
def isRecursive (o : BuildOptions) : Bool := o.recursive.getD true

/-- A configuration with what the command line says in place of what it says itself. -/
def apply (o : BuildOptions) (config : Config) : Config where
  targets :=
    { csharp := o.csharp.getD config.targets.csharp
      python := o.python.getD config.targets.python }
  verbose := o.verbose || config.verbose
  cap := o.cap.or config.cap

end BuildOptions

end MessageCompiler.Command
