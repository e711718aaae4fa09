import MessageCompiler.Definition.Reading
import MessageCompiler.Proofs.Definition.Lines

/-!
# The members of a definition

The two passes over the lines of a definition carry a header, waiting comments and a journal along.
The first pass keeps body lines one by one, whatever the header is (`read_snd`). What the second pass
makes of them depends on no journal (`fst_members`), and it is one member for each body line that is no
comment (`map_declaration_made`).

* **`map_declaration_ofText`**: the members of a definition come from its lines, one by one and in
  order.
* **`lf_not_mem_imports`, `field_of_mem_ofText`**: imports and comments stay within a line, and
  fields are made of words.
-/

namespace MessageCompiler

open Text

/-- What a member declares, apart from documentation and source lines: a field, or the place of a
malformed line. -/
inductive Declaration where
  | field (type name : Text)
  | placeholder (line : Nat)
  deriving DecidableEq, Repr

def Member.declaration : Member → Declaration
  | .field f => .field f.type f.name
  | .invalid line => .placeholder line

/-! ## The first pass, line by line -/

/-- What a field leaves for the body: the last part of its type is its own name, and without one the
line is malformed. -/
def Body.ofField (type name : Text) : Body :=
  match splitLast '.' type with
  | none => .field type name
  | some (_, last) => if last.isEmpty then .malformed else .field last name

/-- What a line leaves for the body, if anything. -/
def BodyLine.ofLine? (line : Line) : Option BodyLine :=
  match line.content with
  | .directive _ => none
  | .field type name => some ⟨line.number, Body.ofField type name⟩
  | .comment text => some ⟨line.number, .comment text⟩
  | .malformed => some ⟨line.number, .malformed⟩

namespace Header

/-- What a field leaves for the body does not depend on what was imported before. -/
theorem fieldType_snd (name : Text) (line : Nat) (type fieldName : Text) (h : Header) :
    (h.fieldType name line type fieldName).2 = Body.ofField type fieldName := by
  rw [fieldType, Body.ofField]
  cases splitLast '.' type with
  | none => rfl
  | some parts =>
    obtain ⟨qualifier, last⟩ := parts
    by_cases hlast : last.isEmpty
    · simp only [hlast, if_true]
    by_cases hqualifier : qualifier.isEmpty
    · simp only [hlast, hqualifier, if_true]
      rfl
    · simp only [hlast, hqualifier]
      rfl

theorem step_snd (name : Text) (h : Header) (line : Line) :
    (h.step name line).2 = BodyLine.ofLine? line := by
  rw [step, BodyLine.ofLine?]
  split
  · next hc => rw [hc]
  · next hc => rw [hc]
  · next hc => rw [hc]
  · next type fieldName hc =>
    rw [hc]
    show some (BodyLine.mk line.number (h.fieldType name line.number type fieldName).2) = _
    rw [fieldType_snd]
  · next hc => rw [hc]
  · next hc => rw [hc]

/-- **The first pass keeps body lines one by one**, whatever header it starts with. -/
theorem read_snd (name : Text) (h : Header) (lines : List Line) :
    (h.read name lines).2 = lines.filterMap BodyLine.ofLine? := by
  induction lines generalizing h with
  | nil => rfl
  | cons line rest ih =>
    show (h.step name line).2.toList ++ ((h.step name line).1.read name rest).2 = _
    rw [ih, step_snd, List.filterMap_cons]
    cases BodyLine.ofLine? line <;> rfl

/-! ## What is imported stays within a line -/

/-- No import of the header has a line feed. -/
def InLine (h : Header) : Prop := ∀ i ∈ h.imports, '\n' ∉ i.name

theorem lf_not_mem_homeName {argument : Text} (h : '\n' ∉ argument) :
    '\n' ∉ Import.homeName argument := by
  simp [Import.homeName, h]

theorem lf_not_mem_add? {imports imports' : List Import} {i : Import}
    (himports : ∀ j ∈ imports, '\n' ∉ j.name) (hi : '\n' ∉ i.name)
    (h : Import.add? imports i = some imports') : ∀ j ∈ imports', '\n' ∉ j.name := by
  rw [Import.add?] at h
  split at h
  · exact absurd h (Option.some_ne_none imports').symm
  · rw [← Option.some.inj h]
    intro j hj
    rcases List.mem_append.1 hj with hj | hj
    · exact himports j hj
    · rw [List.mem_singleton.1 hj]
      exact hi

theorem InLine.setKind {h : Header} (hh : h.InLine) (name : Text) (line : Nat) (argument : Text) :
    (h.setKind name line argument).InLine := by
  rw [Header.setKind]
  cases Kind.ofName argument with
  | ok kind => exact hh
  | error fault => exact hh

theorem InLine.request {h : Header} (hh : h.InLine) (name : Text) (line : Nat) (argument : Text)
    {i : Import} (hi : '\n' ∉ i.name) : (h.request name line argument i).InLine := by
  rw [Header.request]
  cases hadd : Import.add? h.imports i with
  | some imports => exact lf_not_mem_add? hh hi hadd
  | none => exact hh

theorem InLine.qualify {h : Header} (hh : h.InLine) (name : Text) (line : Nat) {qualifier : Text}
    (hq : '\n' ∉ qualifier) : (h.qualify name line qualifier).InLine := by
  rw [Header.qualify]
  cases hadd : Import.add? h.imports (.uses qualifier) with
  | some imports => exact lf_not_mem_add? hh hq hadd
  | none => exact hh

theorem InLine.fieldType {h : Header} (hh : h.InLine) (name : Text) (line : Nat) {type : Text}
    (ht : '\n' ∉ type) (fieldName : Text) :
    (h.fieldType name line type fieldName).1.InLine := by
  rw [Header.fieldType]
  by_cases hdot : '.' ∈ type
  · obtain ⟨qualifier, last, rfl, hlast⟩ := exists_eq_append_cons_of_mem hdot
    have hq : '\n' ∉ qualifier := fun hmem => ht (List.mem_append_left _ hmem)
    rw [splitLast_append_cons hlast]
    show (if last.isEmpty then (h, Body.malformed) else _ : Header × Body).1.InLine
    split
    · exact hh
    split
    · exact hh
    · exact hh.qualify name line hq
  · rw [splitLast_eq_none hdot]
    exact hh

theorem InLine.step {h : Header} (hh : h.InLine) (name : Text) {line : Line}
    (hline : line.content.Sound) : (h.step name line).1.InLine := by
  rw [Header.step]
  split
  · exact hh.setKind name _ _
  · next hc =>
    rw [hc] at hline
    exact hh.request name _ _ (lf_not_mem_homeName hline)
  · next hc =>
    rw [hc] at hline
    exact hh.request name _ _ hline
  · next type fieldName hc =>
    rw [hc] at hline
    exact hh.fieldType name _ (hline.1.solid.not_mem rfl) fieldName
  · exact hh
  · exact hh

theorem InLine.read {h : Header} (hh : h.InLine) (name : Text) {lines : List Line}
    (hlines : ∀ line ∈ lines, line.content.Sound) : (h.read name lines).1.InLine := by
  induction lines generalizing h with
  | nil => exact hh
  | cons line rest ih =>
    show ((h.step name line).1.read name rest).1.InLine
    exact ih (hh.step name (hlines line List.mem_cons_self))
      fun l hl => hlines l (List.mem_cons_of_mem _ hl)

end Header

/-! ## The second pass, line by line -/

/-- What a body line declares, unless it is a comment. -/
def BodyLine.declaration? (line : BodyLine) : Option Declaration :=
  match line.body with
  | .comment _ => none
  | .field type name => some (.field type name)
  | .malformed => some (.placeholder line.number)

namespace Body

/-- The members that the second pass makes, given the comments that wait for a field. -/
def made (docs : List Text) (body : List BodyLine) : List Member := (members [] docs {} body).1

/-- **Whose members they are and what was reported before makes no difference to them.** -/
theorem fst_members (name : Text) (docs : List Text) (j : Journal) (body : List BodyLine) :
    (members name docs j body).1 = made docs body := by
  suffices h : ∀ name' j', (members name docs j body).1 = (members name' docs j' body).1 from h [] {}
  induction body generalizing docs j with
  | nil => exact fun _ _ => rfl
  | cons line rest ih =>
    intro name' j'
    obtain ⟨number, body⟩ := line
    cases body with
    | comment text => exact ih (docs ++ [text]) j name' j'
    | field type fieldName => exact congrArg (_ :: ·) (ih [] j name' j')
    | malformed => exact congrArg (Member.invalid number :: ·) (ih docs _ name' _)

section Made

variable (docs : List Text) (number : Nat) (rest : List BodyLine)

@[simp] theorem made_nil : made docs [] = [] := rfl

@[simp] theorem made_comment (text : Text) :
    made docs (⟨number, .comment text⟩ :: rest) = made (docs ++ [text]) rest := rfl

@[simp] theorem made_field (type name : Text) : made docs (⟨number, .field type name⟩ :: rest)
    = .field ⟨number, type, name, docs⟩ :: made [] rest := rfl

@[simp] theorem made_malformed :
    made docs (⟨number, .malformed⟩ :: rest) = .invalid number :: made docs rest :=
  congrArg (Member.invalid number :: ·) (fst_members [] docs _ rest)

end Made

/-- **The second pass makes one member of each body line that is no comment**, whatever comments
wait for a field. -/
theorem map_declaration_made (docs : List Text) (body : List BodyLine) :
    (made docs body).map Member.declaration = body.filterMap BodyLine.declaration? := by
  induction body generalizing docs with
  | nil => rfl
  | cons line rest ih =>
    obtain ⟨number, body⟩ := line
    cases body with
    | comment text => exact ih (docs ++ [text])
    | field type name => exact congrArg (Declaration.field type name :: ·) (ih [])
    | malformed =>
      rw [made_malformed]
      exact congrArg (Declaration.placeholder number :: ·) (ih docs)

/-- A body line is well-formed if a comment stays within a line and a field is made of words. -/
def WellFormed : Body → Prop
  | .comment text => '\n' ∉ text
  | .field type name => IsWord type ∧ IsWord name
  | .malformed => True

/-- The last part of a word is a word, unless the word ends in a dot. -/
theorem wellFormed_ofField {type name : Text} (htype : IsWord type) (hname : IsWord name) :
    (ofField type name).WellFormed := by
  rw [ofField]
  by_cases hdot : '.' ∈ type
  · obtain ⟨qualifier, last, rfl, hlast⟩ := exists_eq_append_cons_of_mem hdot
    rw [splitLast_append_cons hlast]
    show (if last.isEmpty then Body.malformed else .field last name).WellFormed
    split
    · trivial
    · next hne =>
      refine ⟨⟨by simpa using hne, fun c hc => htype.solid c ?_⟩, hname⟩
      exact List.mem_append_right _ (List.mem_cons_of_mem _ hc)
  · rw [splitLast_eq_none hdot]
    exact ⟨htype, hname⟩

end Body

theorem BodyLine.wellFormed_ofLine? {line : Line} (hline : line.content.Sound) {kept : BodyLine}
    (h : BodyLine.ofLine? line = some kept) : kept.body.WellFormed := by
  obtain ⟨number, content⟩ := line
  cases content with
  | directive d => exact absurd h (Option.some_ne_none kept).symm
  | field type name =>
    rw [← Option.some.inj h]
    exact Body.wellFormed_ofField hline.1 hline.2
  | comment text =>
    rw [← Option.some.inj h]
    exact hline
  | malformed =>
    rw [← Option.some.inj h]
    trivial

/-- The fields that well-formed body lines make: words, documented within lines. -/
theorem Body.field_of_mem_made {docs : List Text} {body : List BodyLine}
    (hdocs : ∀ doc ∈ docs, '\n' ∉ doc) (hbody : ∀ line ∈ body, line.body.WellFormed) {f : Field}
    (h : .field f ∈ made docs body) :
    IsWord f.type ∧ IsWord f.name ∧ ∀ doc ∈ f.docs, '\n' ∉ doc := by
  induction body generalizing docs with
  | nil => exact absurd h List.not_mem_nil
  | cons line rest ih =>
    have hline := hbody line List.mem_cons_self
    have hrest : ∀ l ∈ rest, l.body.WellFormed := fun l hl => hbody l (List.mem_cons_of_mem _ hl)
    obtain ⟨number, body⟩ := line
    cases body with
    | comment text =>
      -- the comments that wait for a field are carried along, with what is known of them
      refine ih (fun doc hdoc => ?_) hrest h
      rcases List.mem_append.1 hdoc with hdoc | hdoc
      · exact hdocs doc hdoc
      · rw [List.mem_singleton.1 hdoc]
        exact hline
    | field type name =>
      rcases List.mem_cons.1 h with h | h
      · rw [Member.field.inj h]
        exact ⟨hline.1, hline.2, hdocs⟩
      · exact ih (fun _ hdoc => absurd hdoc List.not_mem_nil) hrest h
    | malformed =>
      rw [made_malformed] at h
      rcases List.mem_cons.1 h with h | h
      · exact absurd h Member.noConfusion
      · exact ih hdocs hrest h

/-! ## The definition that a text says -/

namespace Definition

theorem ofText_eq (name text : Text) :
    let header := (({} : Header).read name (Line.scan text)).1
    let members := Body.members name [] header.journal ((Line.scan text).filterMap BodyLine.ofLine?)
    ofText name text = (⟨name, header.kind, header.imports, members.1⟩, members.2) := by
  rw [← Header.read_snd name {}]
  rfl

theorem members_ofText (name text : Text) : (ofText name text).1.members
    = Body.made [] ((Line.scan text).filterMap BodyLine.ofLine?) := by
  rw [ofText_eq]
  exact Body.fst_members name [] _ _

/-- **The members of a definition come from its lines**, one by one and in order. -/
theorem map_declaration_ofText (name text : Text) :
    (ofText name text).1.members.map Member.declaration
      = (Line.scan text).filterMap fun line =>
          (BodyLine.ofLine? line).bind BodyLine.declaration? := by
  rw [members_ofText, Body.map_declaration_made, List.filterMap_filterMap]

theorem lf_not_mem_imports {name text : Text} {i : Import}
    (h : i ∈ (ofText name text).1.imports) : '\n' ∉ i.name := by
  have hempty : Header.InLine {} := fun _ hi => absurd hi List.not_mem_nil
  exact hempty.read name (fun _ => Line.sound_of_mem_scan) i h

/-- **Fields are made of words**, and documented by texts within a line. -/
theorem field_of_mem_ofText {name text : Text} {f : Field}
    (h : .field f ∈ (ofText name text).1.members) :
    IsWord f.type ∧ IsWord f.name ∧ ∀ doc ∈ f.docs, '\n' ∉ doc := by
  rw [members_ofText] at h
  refine Body.field_of_mem_made (fun _ hdoc => absurd hdoc List.not_mem_nil) ?_ h
  intro line hline
  obtain ⟨source, hsource, hkept⟩ := List.mem_filterMap.1 hline
  exact BodyLine.wellFormed_ofLine? (Line.sound_of_mem_scan hsource) hkept

end Definition

end MessageCompiler
