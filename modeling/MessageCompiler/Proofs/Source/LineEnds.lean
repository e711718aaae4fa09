import MessageCompiler.Proofs.Definition.Requests
import MessageCompiler.Proofs.Source.Declared

/-!
# What ends a line of generated source

A definition is cut into lines at line feeds, but C# also ends a line at a carriage return, a next
line, a line separator and a paragraph separator, and Python at a carriage return. These are all
blanks, and blanks cut a text into words: what is made of words has none of them. A comment is only
trimmed, so it may have them inside.

* **`Definition.docs_isPrefix`**: what documents the fields are the comments of the text, each once and
  in order, up to those that no field follows.
* **`Definition.isSpaced_imports`**: an import has no blank but spaces.
* **`eq_docLine_of_mem_lines`**: a line of generated source with any other blank, which is not in
  the name of the message, is a line of documentation.
* **`lineEnds_compile`**: the line feeds of a generated file are those that close its lines, and
  whatever else may end a line stands in the documentation of a field.
-/

namespace MessageCompiler

open Text

/-! ## The ends of lines -/

namespace Text

/-- The characters besides the line feed that end a line in C#: carriage return, next line, line
separator and paragraph separator. -/
def isLineEnd (c : Char) : Bool :=
  c == '\r' || c == '\u0085' || c == '\u2028' || c == '\u2029'

theorem isBlank_of_isLineEnd {c : Char} (h : isLineEnd c = true) : isBlank c = true ∧ c ≠ ' ' := by
  simp only [isLineEnd, Bool.or_eq_true, beq_iff_eq] at h
  rcases h with ((rfl | rfl) | rfl) | rfl <;> decide

end Text

/-! ## Where comments go -/

/-- The comments of a text in their order, without their markers and the blanks around them. -/
def Line.comments (text : Text) : List Text :=
  (lines text).filterMap fun raw => (comment? (significant raw)).map trim

/-- The comment that a body line is, if it is one. -/
def BodyLine.comment? (line : BodyLine) : Option Text :=
  match line.body with
  | .comment text => some text
  | _ => none

/-- **The second pass documents fields with the comments that wait and those of the lines**, each
once and in order, up to those that no field follows. -/
theorem Body.docs_made (docs : List Text) (body : List BodyLine) :
    ((made docs body).filterMap Member.field?).flatMap (·.docs)
      <+: docs ++ body.filterMap BodyLine.comment? := by
  induction body generalizing docs with
  | nil => exact List.nil_prefix
  | cons line rest ih =>
    obtain ⟨number, body⟩ := line
    cases body with
    | comment text =>
      have hrest := ih (docs ++ [text])
      rwa [List.append_assoc] at hrest
    | field type name => exact (List.prefix_append_right_inj docs).2 (ih [])
    | malformed =>
      rw [made_malformed]
      exact ih docs

/-- The comment that a line is, if it is one. -/
def Content.comment? : Content → Option Text
  | .comment text => some text
  | _ => none

theorem BodyLine.comment?_ofLine? (line : Line) :
    (ofLine? line).bind comment? = line.content.comment? := by
  rw [ofLine?]
  cases line.content with
  | directive d => rfl
  | comment text => rfl
  | malformed => rfl
  | field type name =>
    show (BodyLine.mk line.number (Body.ofField type name)).comment? = none
    rw [Body.ofField_eq]
    split <;> rfl

theorem Line.comment?_classify (line : Text) :
    (classify line).comment? = (comment? line).map trim := by
  rw [classify]
  cases comment? line with
  | some text => rfl
  | none =>
    -- without a marker a line is malformed, a directive, or a field
    simp only [Option.map_none]
    split
    · rfl
    unfold ofWords
    repeat' split
    all_goals rfl

theorem Line.ofRaw?_comment (number : Nat) (raw : Text) :
    ((ofRaw? number raw).bind BodyLine.ofLine?).bind BodyLine.comment?
      = (comment? (significant raw)).map trim := by
  rw [ofRaw?]
  generalize significant raw = line
  by_cases hempty : line.isEmpty = true
  · rw [if_pos hempty, List.isEmpty_iff.1 hempty]
    rfl
  · rw [if_neg hempty, Option.bind_some, BodyLine.comment?_ofLine?]
    exact comment?_classify line

namespace Definition

/-- **Fields are documented with the comments of the text**, each once and in order, up to those
that no field follows. -/
theorem docs_isPrefix (name text : Text) :
    (ofText name text).1.fields.flatMap (·.docs) <+: Line.comments text := by
  have hcomments : ((Line.scan text).filterMap BodyLine.ofLine?).filterMap BodyLine.comment?
      = Line.comments text := by
    have hraws : ((lines text).zipIdx 1).filterMap
        ((fun raw => (Line.comment? (Line.significant raw)).map trim) ∘ Prod.fst)
        = Line.comments text := by
      rw [← List.filterMap_map, List.zipIdx_map_fst]
      rfl
    rw [Line.scan_eq_filterMap, List.filterMap_filterMap, List.filterMap_filterMap, ← hraws]
    congr 1
    funext ⟨raw, number⟩
    rw [Function.comp_apply, ← Line.ofRaw?_comment number raw]
    cases Line.ofRaw? number raw <;> rfl
  rw [fields, members_ofText, ← hcomments]
  exact Body.docs_made [] _

theorem lf_not_mem_docs {name text doc : Text}
    (h : doc ∈ (ofText name text).1.fields.flatMap (·.docs)) : '\n' ∉ doc := by
  obtain ⟨f, hf, hdoc⟩ := mem_docs_iff.1 h
  exact (field_of_mem_ofText hf).2.2 doc hdoc

theorem docs_spelled (t : Target) (d : Definition) :
    (d.spelled t).fields.flatMap (·.docs) = d.fields.flatMap (·.docs) := by
  rw [fields_spelled, List.flatMap_map]
  rfl

/-! ## What is made of words -/

theorem isSpaced_of_ofRaw? {raw : Text} {i : Import} (h : Import.ofRaw? raw = some i) :
    IsSpaced i.name := by
  unfold Import.ofRaw? at h
  dsimp only at h
  split at h
  · cases h
  split at h
  · next head next others hwords =>
    have hsolid : ∀ w ∈ head :: next :: others, IsSolid w := fun w hw =>
      (isWord_of_mem_words (hwords ▸ hw)).solid
    have hargument := isSpaced_intercalate fun w hw => hsolid w (List.mem_cons_of_mem _ hw)
    split at h
    · rw [← Option.some.inj h]
      exact hargument.append (by decide)
    split at h
    · rw [← Option.some.inj h]
      exact hargument
    split at h
    · cases h
    · obtain ⟨qualifier, hqualifier, rfl⟩ := Option.map_eq_some_iff.1 h
      obtain ⟨last, rfl, -, -, -⟩ := Import.qualifier?_eq_some_iff.1 hqualifier
      -- the qualifier is a part of the first word
      exact IsSolid.isSpaced fun c hc =>
        hsolid _ List.mem_cons_self c (List.mem_append_left _ hc)
  · cases h

/-- **An import has no blank but spaces.** -/
theorem isSpaced_imports {name text : Text} {i : Import} (h : i ∈ (ofText name text).1.imports) :
    IsSpaced i.name := by
  rw [imports_ofText_eq] at h
  have hrequested := List.mem_of_find?_eq_some (Import.mem_firsts_iff.1 (List.mem_filter.1 h).1)
  obtain ⟨raw, -, hraw⟩ := List.mem_filterMap.1 hrequested
  exact isSpaced_of_ofRaw? hraw

end Definition

/-! ## Which lines have other blanks -/

namespace Source

namespace CSharp

theorem docLine_mem_memberLines {f : Field} {doc : Text} (h : doc ∈ f.docs) :
    docLine doc ∈ memberLines (.field f) := by
  have hne : f.docs.isEmpty = false := by
    rw [List.isEmpty_eq_false_iff]
    exact List.ne_nil_of_mem h
  have hline : docLine doc ∈ docLines f.docs := by
    rw [docLines, hne, if_neg Bool.false_ne_true]
    exact List.mem_append_left _ (List.mem_cons_of_mem _ (List.mem_map_of_mem h))
  exact List.mem_append_left _ hline

end CSharp

namespace Python

theorem docLine_mem_memberLines {f : Field} {doc : Text} (h : doc ∈ f.docs) :
    docLine doc ∈ memberLines (.field f) :=
  List.mem_append_left _ (List.mem_cons_of_mem _ (List.mem_map_of_mem h))

end Python

/-- The mark of a line of documentation in a target. -/
def docMark : Target → Text
  | .csharp => CSharp.docMark
  | .python => Python.docMark

/-- **A line with a blank that is no space is a line of documentation**, if the name of the message
does not have the blank. -/
theorem eq_docLine_of_mem_lines {d : Definition} (himports : ∀ i ∈ d.imports, IsSpaced i.name)
    (hfields : ∀ f, .field f ∈ d.members → f.Printable) {c : Char} (hblank : isBlank c = true)
    (hspace : c ≠ ' ') (hname : c ∉ d.name) (t : Target) {l : Text} (hl : l ∈ lines t d)
    (hc : c ∈ l) : ∃ doc ∈ d.fields.flatMap (·.docs), l = docLine (docMark t) doc := by
  cases t with
  | csharp =>
    obtain ⟨doc, hdoc, rfl⟩ :=
      CSharp.eq_docLine_of_mem_lines hblank hspace hname
        (fun i hi => (himports i hi).not_mem hblank hspace) hfields hl hc
    exact ⟨doc, hdoc, csharp_docLine_eq doc⟩
  | python =>
    obtain ⟨doc, hdoc, rfl⟩ := Python.eq_docLine_of_mem_lines hblank hspace hname hfields hl hc
    exact ⟨doc, hdoc, python_docLine_eq doc⟩

/-- **Each comment that documents a field has a line of documentation of its own.** -/
theorem docLine_mem_lines {d : Definition} (t : Target) {doc : Text}
    (h : doc ∈ d.fields.flatMap (·.docs)) : docLine (docMark t) doc ∈ lines t d := by
  obtain ⟨f, hf, hdoc⟩ := Definition.mem_docs_iff.1 h
  cases t with
  | csharp =>
    have hline := List.mem_flatMap.2 ⟨_, hf, CSharp.docLine_mem_memberLines hdoc⟩
    have hdocLine : docLine (docMark .csharp) doc = CSharp.docLine doc := (csharp_docLine_eq doc).symm
    rw [hdocLine]
    exact List.mem_append_left _ (List.mem_append_right _ hline)
  | python =>
    have hline := List.mem_flatMap.2 ⟨_, hf, Python.docLine_mem_memberLines hdoc⟩
    have hdocLine : docLine (docMark .python) doc = Python.docLine doc := (python_docLine_eq doc).symm
    rw [hdocLine]
    exact List.mem_append_right _ hline

/-! ## What ends a line of a file -/

theorem mem_unlines_iff {ls : List Text} {c : Char} (h : c ≠ '\n') :
    c ∈ unlines ls ↔ ∃ l ∈ ls, c ∈ l := by
  rw [unlines, List.mem_flatMap]
  simp [h]

theorem mem_docLine_iff (t : Target) {c : Char} (hblank : isBlank c = true) (hspace : c ≠ ' ')
    {doc : Text} : c ∈ docLine (docMark t) doc ↔ c ∈ doc := by
  have hmark : IsSpaced (docMark t) := by cases t <;> decide
  exact mem_docLine_iff_of_not_mem (hmark.not_mem hblank hspace) hspace

/-- **Comments stay on their own lines of documentation, but may be ended there.** The comments that
document fields are those of the text, up to the ones that no field follows. If the name of the message
has no line feed and nothing else that ends a line, then the line feeds of a generated file are
those that close its lines; each of these comments is a line of the file, after its mark; and every
other line is free of whatever ends a line. So a file has a carriage return, a next line or a line or
paragraph separator exactly if such a comment has it, and a comment that has it ends there. -/
theorem lineEnds_compile {config : Config} {t : Target} (ht : config.targets.isEnabled t)
    {name : Text} (hline : '\n' ∉ name) (hname : ∀ c ∈ name, isLineEnd c = false) (text : Text) :
    let docs := (Definition.ofText name text).1.fields.flatMap (·.docs)
    docs <+: Line.comments text
      ∧ ∃ file, (compile config name text).file? t = some file
        ∧ ∃ ls, file.contents = unlines ls ∧ (∀ l ∈ ls, '\n' ∉ l)
          ∧ (∀ doc ∈ docs, docLine (docMark t) doc ∈ ls)
          ∧ (∀ l ∈ ls, (∃ c ∈ l, isLineEnd c = true) → ∃ doc ∈ docs, l = docLine (docMark t) doc)
          ∧ ∀ c, isLineEnd c = true → (c ∈ file.contents ↔ ∃ doc ∈ docs, c ∈ doc) := by
  intro docs
  -- a blank other than a space comes from a comment, since names and types have none
  have hdocLine {c : Char} (hblank : isBlank c = true) (hspace : c ≠ ' ') (hc : c ∉ name) {l : Text}
      (hl : l ∈ lines t ((Definition.ofText name text).1.spelled t)) (hmem : c ∈ l) :
      ∃ doc ∈ docs, l = docLine (docMark t) doc ∧ c ∈ doc := by
    have himports : ∀ i ∈ ((Definition.ofText name text).1.spelled t).imports, IsSpaced i.name :=
      fun _ => Definition.isSpaced_imports
    obtain ⟨doc, hdoc, rfl⟩ := eq_docLine_of_mem_lines himports
      (fun _ => Definition.printable_of_mem_spelled_ofText) hblank hspace hc t hl hmem
    rw [Definition.docs_spelled] at hdoc
    exact ⟨doc, hdoc, rfl, (mem_docLine_iff t hblank hspace).1 hmem⟩
  have hown : ∀ doc ∈ docs,
      docLine (docMark t) doc ∈ lines t ((Definition.ofText name text).1.spelled t) :=
    fun doc hdoc => docLine_mem_lines t (by rwa [Definition.docs_spelled])
  have hlf : ∀ l ∈ lines t ((Definition.ofText name text).1.spelled t), '\n' ∉ l := fun l hl hmem => by
    obtain ⟨doc, hdoc, -, hmem⟩ := hdocLine rfl (by decide) hline hl hmem
    exact Definition.lf_not_mem_docs hdoc hmem
  have hends {c : Char} (hc : isLineEnd c = true) : c ∉ name := fun hmem =>
    Bool.false_ne_true ((hname c hmem).symm.trans hc)
  refine ⟨Definition.docs_isPrefix name text, _, Compiled.file?_compile ht name text, _, rfl, hlf, hown,
    ?_, ?_⟩
  · rintro l hl ⟨c, hmem, hc⟩
    obtain ⟨hblank, hspace⟩ := isBlank_of_isLineEnd hc
    obtain ⟨doc, hdoc, hl, -⟩ := hdocLine hblank hspace (hends hc) hl hmem
    exact ⟨doc, hdoc, hl⟩
  · intro c hc
    obtain ⟨hblank, hspace⟩ := isBlank_of_isLineEnd hc
    have hne : c ≠ '\n' := fun heq => by
      rw [heq] at hc
      exact absurd hc (by decide)
    show c ∈ unlines (lines t ((Definition.ofText name text).1.spelled t)) ↔ _
    rw [mem_unlines_iff hne]
    constructor
    · rintro ⟨l, hl, hmem⟩
      obtain ⟨doc, hdoc, -, hmem⟩ := hdocLine hblank hspace (hends hc) hl hmem
      exact ⟨doc, hdoc, hmem⟩
    · rintro ⟨doc, hdoc, hmem⟩
      exact ⟨_, hown doc hdoc, (mem_docLine_iff t hblank hspace).2 hmem⟩

/-- The comment of `x` has a line separator inside, so the line of its documentation is two lines to
C#, the second of which is code. -/
theorem lineEnds_compile_separator :
    let text := "# a\u2028public int y;\nint x".toList
    ∃ file, (compile {} "M".toList text).file? .csharp = some file
      ∧ '\u2028' ∈ file.contents ∧ '\r' ∉ file.contents := by
  obtain ⟨-, file, hfile, -, -, -, -, -, hmem⟩ := @lineEnds_compile {} .csharp rfl "M".toList
    (by decide) (List.forall_mem_singleton.2 (by decide)) "# a\u2028public int y;\nint x".toList
  refine ⟨file, hfile, (hmem '\u2028' rfl).2 ?_, fun h => ?_⟩
  · exact ⟨"a\u2028public int y".toList, by decide +kernel, by decide⟩
  · exact absurd ((hmem '\r' rfl).1 h) (by decide +kernel)

/-- **A comment may spill into code**: a carriage return ends the line of the comment, and what
follows it in the comment is a line of its own. In C# this one declares a field. -/
theorem spills_carriageReturn :
    let text := "# a\rpublic int y; //\nint x".toList
    let config : Config := { targets := { python := true } }
    let name := "M".toList
    '\n' ∉ name ∧ (∀ c ∈ name, isLineEnd c = false)
      ∧ ∀ t : Target, ∃ file, (compile config name text).file? t = some file
        ∧ '\r' ∈ file.contents
        ∧ "public int y; //".toList
          ∈ splitWhen (fun c => c == '\n' || isLineEnd c) file.contents := by
  refine ⟨by decide, List.forall_mem_singleton.2 (by decide), fun t =>
    ⟨_, Compiled.file?_compile (by cases t <;> rfl) _ _, ?_⟩⟩
  cases t <;> decide +kernel

end Source

end MessageCompiler
