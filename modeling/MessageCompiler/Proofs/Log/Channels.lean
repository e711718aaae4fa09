import MessageCompiler.Compiled

/-!
# Two channels

What is wrong with a definition is written down twice, for the caller and for the log, and five places
of the compiler do so, each for itself. Here the diagnostics that there may be are spelled out, and the
event that the log should have for each of them. Every place writes the one and the other.

* **`Diagnostic.event`**: what the log should have for a diagnostic.
* **`Journal.told`**: a journal that is told a diagnostic in both channels.
* **`Journal.warn_eq_told`, `Journal.error_eq_told`, `Body.warnTrailing_eq_told`,
  `Definition.foldl_warnHidden`**: that is what the places do that report.
-/

namespace MessageCompiler

/-! ## The diagnostics that there may be -/

namespace Diagnostic

/-- The error about a kind that there is not. -/
def unknownKind (number : Nat) (argument : Text) : Diagnostic where
  severity := .error
  line := some number
  message := "unknown definition kind: expected one of class, record, struct, ".toList
    ++ "record class, record struct, found ".toList ++ argument

/-- The warning about a request for a name that needs no import. -/
def duplicate (number : Nat) (argument : Text) : Diagnostic where
  severity := .warning
  line := some number
  message := "skipping duplicate namespace ".toList ++ argument

/-- The warning about a line in which the type or the name is missing. -/
def malformed (number : Nat) : Diagnostic where
  severity := .warning
  line := some number
  message := "skipping line ".toList ++ Text.decimal number ++ " - type or name is empty".toList

/-- The warning about comments that no field follows. -/
def trailing : Diagnostic where
  severity := .warning
  line := none
  message := "dropping trailing comment with no field after it".toList

/-- The warning about a field that is renamed because it would hide the creation time. -/
def renamed (t : Target) (number : Nat) (name : Text) : Diagnostic where
  severity := .warning
  line := some number
  message := "field '".toList ++ name
    ++ "' collides with the generated timestamp; renamed to '".toList ++ name
    ++ match t with
      | .csharp => "_' in csharp output".toList
      | .python => "_' in python output".toList

end Diagnostic

/-- The warnings about fields that would hide the creation time in a target. -/
def Definition.hidingFields (d : Definition) (t : Target) : List Diagnostic :=
  (d.fields.filter (t.hidesCreationTime ·.name)).map fun f => .renamed t f.line f.name

/-! ## Both channels -/

/-- The level at which a diagnostic of this severity is logged. -/
def Severity.level : Severity → Log.Level
  | .warning => .warn
  | .error => .error

/-- What the log should have for a diagnostic of the message `definition`. -/
def Diagnostic.event (definition : Text) (d : Diagnostic) : Log.Event where
  level := d.severity.level
  message := d.message
  definition := some definition
  line := d.line

namespace Journal

/-- The journal is told a diagnostic of the message `definition` in both channels. -/
def told (definition : Text) (d : Diagnostic) (j : Journal) : Journal where
  diagnostics := j.diagnostics ++ [d]
  events := j.events ++ [d.event definition]

/-- The journal is told several diagnostics, in order. -/
def toldAll (definition : Text) (ds : List Diagnostic) (j : Journal) : Journal :=
  ds.foldl (fun j d => j.told definition d) j

variable (definition : Text) (j : Journal)

theorem diagnostics_toldAll (ds : List Diagnostic) :
    (j.toldAll definition ds).diagnostics = j.diagnostics ++ ds := by
  induction ds generalizing j with
  | nil => exact (List.append_nil _).symm
  | cons d rest ih =>
    show ((j.told definition d).toldAll definition rest).diagnostics = _
    rw [ih]
    exact List.append_assoc j.diagnostics [d] rest

theorem toldAll_append (ds ds' : List Diagnostic) :
    j.toldAll definition (ds ++ ds') = (j.toldAll definition ds).toldAll definition ds' :=
  List.foldl_append

theorem warn_eq_told (line : Nat) (message : Text) :
    j.warn definition line message = j.told definition ⟨.warning, some line, message⟩ := rfl

theorem error_eq_told (line : Nat) (message : Text) :
    j.error definition line message = j.told definition ⟨.error, some line, message⟩ := rfl

end Journal

theorem Body.warnTrailing_eq_told (name : Text) (j : Journal) :
    warnTrailing name j = j.told name .trailing := rfl

theorem Target.warnHidden_eq_told (t : Target) (name : Text) (j : Journal) (f : Field) :
    t.warnHidden name j f = j.told name (.renamed t f.line f.name) := by
  have hmessage : "field '".toList ++ f.name
      ++ "' collides with the generated timestamp; renamed to '".toList ++ f.name ++ "_' in ".toList
      ++ t.name ++ " output".toList = (Diagnostic.renamed t f.line f.name).message := by
    unfold Diagnostic.renamed
    simp only [List.append_assoc]
    cases t <;> rfl
  unfold warnHidden
  dsimp only
  rw [hmessage]
  rfl

theorem Definition.warnHidden_eq_toldAll (d : Definition) (j : Journal) (t : Target) :
    d.warnHidden j t = j.toldAll d.name (d.hidingFields t) := by
  unfold warnHidden hidingFields Journal.toldAll
  rw [List.foldl_map]
  congr 1
  funext j f
  exact t.warnHidden_eq_told d.name j f

/-- **What is renamed is told target by target.** -/
theorem Definition.foldl_warnHidden (d : Definition) (ts : List Target) (j : Journal) :
    ts.foldl d.warnHidden j = j.toldAll d.name (ts.flatMap d.hidingFields) := by
  induction ts generalizing j with
  | nil => rfl
  | cons t rest ih =>
    rw [List.foldl_cons, ih, d.warnHidden_eq_toldAll, List.flatMap_cons, Journal.toldAll_append]

end MessageCompiler
