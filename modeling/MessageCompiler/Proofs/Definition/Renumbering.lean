import MessageCompiler.Proofs.Definition.Diagnostics

/-!
# Line numbers are carried along

Reading a definition never looks at the number of a line: it hands the number on, to members and to
diagnostics, and quotes it in the warning about a malformed line. So if the lines of two texts differ
in their numbers only, what is read differs in these numbers only.

* **`Body.made_renumber`**: the second pass hands numbers on.
* **`Diagnostic.ofDirectives_renumber`**, **`ofMalformed_renumber`**, **`ofTrailing_renumber`**: so do
  the diagnostics, source by source.
* **`Definition.renumber_ofText`**: definitions and diagnostics of two such texts.
-/

namespace MessageCompiler

open Text

variable (follow : Nat → Nat)

/-! ## Other numbers -/

/-- The line at the place that `follow` tells for it. -/
def Line.renumber (line : Line) : Line := { line with number := follow line.number }

def BodyLine.renumber (line : BodyLine) : BodyLine := { line with number := follow line.number }

def Member.renumber : Member → Member
  | .field f => .field { f with line := follow f.line }
  | .invalid line => .invalid (follow line)

def Definition.renumber (d : Definition) : Definition :=
  { d with members := d.members.map (Member.renumber follow) }

/-- The diagnostic for the line at its new place. The warning about a malformed line quotes the number
as well. -/
def Diagnostic.renumber (d : Diagnostic) : Diagnostic :=
  match d.line with
  | none => d
  | some line =>
    if d = .malformed line then .malformed (follow line)
    else { d with line := some (follow line) }

@[simp] theorem Line.renumber_content (line : Line) :
    (line.renumber follow).content = line.content := rfl

@[simp] theorem Line.renumber_number (line : Line) :
    (line.renumber follow).number = follow line.number := rfl

theorem Line.filterMap_content_renumber {α : Type} (g : Content → Option α) (ls : List Line) :
    (ls.map (renumber follow)).filterMap (fun line => g line.content)
      = ls.filterMap fun line => g line.content := by
  rw [List.filterMap_map]
  rfl

/-! ## Diagnostics -/

namespace Diagnostic

@[simp] theorem renumber_malformed (line : Nat) :
    (malformed line).renumber follow = malformed (follow line) := if_pos rfl

theorem renumber_eq {d : Diagnostic} {line : Nat} (hline : d.line = some line)
    (h : d ≠ malformed line) : d.renumber follow = { d with line := some (follow line) } := by
  unfold renumber
  rw [hline]
  exact if_neg h

@[simp] theorem renumber_unknownKind (line : Nat) (argument : Text) :
    (unknownKind line argument).renumber follow = unknownKind (follow line) argument :=
  renumber_eq follow rfl fun h => Severity.noConfusion (congrArg Diagnostic.severity h)

@[simp] theorem renumber_duplicate (line : Nat) (argument : Text) :
    (duplicate line argument).renumber follow = duplicate (follow line) argument := by
  apply renumber_eq follow rfl
  intro h
  have hmessage := congrArg Diagnostic.message h
  simp [duplicate, malformed] at hmessage

@[simp] theorem renumber_renamed (t : Target) (line : Nat) (name : Text) :
    (renamed t line name).renumber follow = renamed t (follow line) name := by
  apply renumber_eq follow rfl
  intro h
  have hmessage := congrArg Diagnostic.message h
  simp [renamed, malformed] at hmessage

theorem ofDirective?_renumber (names : List Text) (line : Line) :
    ofDirective? names (line.renumber follow) = (ofDirective? names line).map (renumber follow) := by
  obtain ⟨number, content⟩ := line
  unfold ofDirective? Line.renumber
  cases content with
  | comment text => rfl
  | field type name => rfl
  | malformed => rfl
  | directive d =>
    cases d <;> dsimp only <;> split_ifs <;> simp

theorem namesAfter_renumber (ls : List Line) :
    Import.namesAfter (ls.map (Line.renumber follow)) = Import.namesAfter ls := by
  unfold Import.namesAfter
  rw [Line.filterMap_content_renumber]

theorem ofDirectives_renumber (ls : List Line) :
    ofDirectives (ls.map (Line.renumber follow)) = (ofDirectives ls).map (renumber follow) := by
  unfold ofDirectives
  rw [List.zipIdx_map, List.filterMap_map, List.map_filterMap]
  apply List.filterMap_congr
  intro p _
  show ofDirective? (Import.namesAfter ((ls.map (Line.renumber follow)).take p.2))
    (p.1.renumber follow) = _
  rw [← List.map_take, namesAfter_renumber, ofDirective?_renumber]

theorem ofMalformed_renumber (ls : List Line) :
    ofMalformed (ls.map (Line.renumber follow)) = (ofMalformed ls).map (renumber follow) := by
  unfold ofMalformed
  rw [List.filter_map, List.map_map, List.map_map]
  simp [Function.comp_def]

theorem ofTrailing_renumber (ls : List Line) :
    ofTrailing (ls.map (Line.renumber follow)) = (ofTrailing ls).map (renumber follow) := by
  have hany : ((ls.map (Line.renumber follow)).rtakeWhile (!·.content.isField)).any
      (·.content.isComment) = (ls.rtakeWhile (!·.content.isField)).any (·.content.isComment) := by
    unfold List.rtakeWhile
    rw [← List.map_reverse, List.takeWhile_map, ← List.map_reverse, List.any_map]
    rfl
  unfold ofTrailing
  rw [hany]
  split <;> rfl

end Diagnostic

/-! ## Definitions -/

theorem BodyLine.ofLine?_renumber (line : Line) :
    ofLine? (line.renumber follow) = (ofLine? line).map (renumber follow) := by
  obtain ⟨number, content⟩ := line
  cases content <;> rfl

/-- **The second pass hands numbers on.** -/
theorem Body.made_renumber (docs : List Text) (body : List BodyLine) :
    made docs (body.map (BodyLine.renumber follow))
      = (made docs body).map (Member.renumber follow) := by
  induction body generalizing docs with
  | nil => rfl
  | cons line rest ih =>
    obtain ⟨number, body⟩ := line
    cases body with
    | comment text => exact ih (docs ++ [text])
    | field type name => exact congrArg (_ :: ·) (ih [])
    | malformed =>
      rw [made_malformed]
      exact (made_malformed docs _ _).trans (congrArg (_ :: ·) (ih docs))

namespace Definition

theorem fields_renumber (d : Definition) :
    (d.renumber follow).fields = d.fields.map fun f => { f with line := follow f.line } := by
  unfold fields renumber
  rw [List.filterMap_map, List.map_filterMap]
  congr 1
  funext m
  cases m <;> rfl

theorem hidingFields_renumber (d : Definition) (t : Target) :
    (d.renumber follow).hidingFields t
      = (d.hidingFields t).map (Diagnostic.renumber follow) := by
  unfold hidingFields
  rw [fields_renumber, List.filter_map, List.map_map, List.map_map]
  simp [Function.comp_def]

variable {follow} {text text' : Text}

/-- **If the lines of two texts differ in their numbers only, so do their definitions and what is found
wrong with them.** -/
theorem renumber_ofText (h : Line.ofText text' = (Line.ofText text).map (Line.renumber follow))
    (name : Text) : (ofText name text').1 = (ofText name text).1.renumber follow
      ∧ (ofText name text').2.diagnostics
        = (ofText name text).2.diagnostics.map (Diagnostic.renumber follow) := by
  have hkind : (ofText name text').1.kind = (ofText name text).1.kind := by
    rw [kind_ofText, kind_ofText, h, Line.filterMap_content_renumber]
  have himports : (ofText name text').1.imports = (ofText name text).1.imports := by
    simp only [ofText_eq, Header.imports_read, Line.scan_eq_ofText, h]
    rw [Line.filterMap_content_renumber]
  have hmembers : (ofText name text').1.members
      = (ofText name text).1.members.map (Member.renumber follow) := by
    rw [members_ofText, members_ofText, Line.scan_eq_ofText, Line.scan_eq_ofText, h,
      ← Body.made_renumber, List.filterMap_map, List.map_filterMap]
    congr 3
    exact funext (BodyLine.ofLine?_renumber follow)
  constructor
  · have hparts : (ofText name text').1 = ⟨name, (ofText name text').1.kind,
        (ofText name text').1.imports, (ofText name text').1.members⟩ := rfl
    rw [hparts, hkind, himports, hmembers]
    rfl
  · rw [diagnostics_ofText, diagnostics_ofText, h, Diagnostic.ofDirectives_renumber,
      Diagnostic.ofMalformed_renumber, Diagnostic.ofTrailing_renumber, List.map_append,
      List.map_append]

end Definition

end MessageCompiler
