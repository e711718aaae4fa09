import MessageCompiler.Definition.Kind

/-!
# Faults

What a request can be refused for before anything is compiled. Problems inside a definition stop
nothing: they are reported as diagnostics, and a fault's text is then part of one.
-/

namespace MessageCompiler

/-- Why a name or a configuration is refused. -/
inductive Fault where
  | unknownKind (found : Text)
  | unknownTarget (found : Text)
  | unknownLevel (found : Text)
  /-- The configuration contradicts itself. -/
  | invalidConfig (reason : Text)
  deriving DecidableEq, Repr

def Fault.message : Fault → Text
  | .unknownKind found =>
    "unknown definition kind: expected one of ".toList
      ++ ", ".toList.intercalate (Kind.all.map (·.name)) ++ ", found ".toList ++ found
  | .unknownTarget found => "unknown target: ".toList ++ found
  | .unknownLevel found => "unknown log level: ".toList ++ found
  | .invalidConfig reason => "invalid configuration: ".toList ++ reason

def Kind.ofName (t : Text) : Except Fault Kind :=
  match ofName? t with
  | some kind => .ok kind
  | none => .error (.unknownKind t)

end MessageCompiler
