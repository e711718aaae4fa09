import MessageCompiler.Proofs.Source.Marks

/-!
# Reading Python source back

`Python.read?` reads the text of a generated Python file and says which message and which members
it shows; imports and the kind of the message have no place in it. Every member follows an empty
line, so the lines after the creation time are cut into *paragraphs*, one for each member, whose
last line declares it and whose other lines are its documentation. That is what keeps a field named
`#` apart from a comment.

* **`paragraphs?_flatMap_memberLines`**: the paragraphs of a file are its members' lines.
* **`member?_paragraph`**: a member is read back from its paragraph.
* **`eq_docLine_of_mem_lines`**: a blank that is no space, and not in the name of the message, is in a
  line of documentation.
* **`read?_render`**: the name and members of a printable definition are read back.
-/

namespace MessageCompiler.Source.Python

/-! ## The reader -/

/-- The mark of a line of documentation. -/
def docMark : Text := "    #:".toList

/-- The mark of a comment. -/
def commentMark : Text := "    # ".toList

/-- The type that an annotation with a default value says. -/
def type? (annotated : Text) : Option Text :=
  if annotated = "int = 0".toList then some "int".toList
  else if annotated = "float = 0.0".toList then some "float".toList
  else if annotated = "str = \"\"".toList then some "str".toList
  else if annotated = "bool = False".toList then some "bool".toList
  else Text.between? "Optional[".toList "] = None".toList annotated

/-- The type and name that a line declares a field with: the name stands before the first space,
with a colon after it. -/
def field? (line : Text) : Option (Text × Text) :=
  match line.dropPrefix? "    ".toList with
  | some rest =>
    match (rest.takeWhile (· != ' ')).dropSuffix? [':'], rest.dropWhile (· != ' ') with
    | some name, ' ' :: annotated => (type? annotated).map (·, name)
    | _, _ => none
  | none => none

/-- The member that a paragraph shows. -/
def member? (paragraph : List Text) : Option Member :=
  match paragraph.getLast? with
  | none => none
  | some line =>
    match placeholder? commentMark line with
    | some number => if paragraph.length = 1 then some (.invalid number) else none
    | none =>
      match field? line, paragraph.dropLast.mapM (doc? docMark) with
      | some (type, name), some docs => some (.field ⟨0, type, name, docs⟩)
      | _, _ => none

/-- The paragraphs of some lines, if an empty line stands before each. -/
def paragraphs? (lines : List Text) : Option (List (List Text)) :=
  match Text.splitWhen List.isEmpty lines with
  | [] :: paragraphs => some paragraphs
  | _ => none

/-- The name of the message that a line opens the class of. -/
def class? (line : Text) : Option Text :=
  Text.between? "class ".toList (['('] ++ messageInterface ++ "):".toList) line

/-- The message name and the members that the lines after the header show. -/
def body? : List Text → Option (Text × List Member)
  | classLine :: creation :: rest =>
    match class? classLine, (paragraphs? rest).bind (·.mapM member?) with
    | some name, some members => if creation = creationLine then some (name, members) else none
    | _, _ => none
  | _ => none

/-- The message name and the members that the text of a file shows. -/
def read? (contents : Text) : Option (Text × List Member) :=
  (Text.closedLines? contents).bind fun lines => (lines.dropPrefix? headerLines).bind body?

/-! ## The lines of a member -/

/-- The lines of a member after the empty one. -/
def paragraph : Member → List Text
  | .field f => f.docs.map docLine ++ [fieldLine f]
  | .invalid line => [commentMark ++ placeholder line]

theorem memberLines_eq (m : Member) : memberLines m = [] :: paragraph m := by
  cases m <;> rfl

/-- Unfolding equation for `fieldLine`: the first space follows the name and its colon. -/
theorem fieldLine_eq (f : Field) :
    fieldLine f = "    ".toList ++ (f.name ++ [':'] ++ ' ' :: typeHint f.type) := by
  have h : fieldLine f = "    ".toList ++ f.name ++ ": ".toList ++ typeHint f.type := rfl
  have hcolon : ": ".toList = [':', ' '] := by simp
  rw [h, hcolon]
  simp

/-- **A type is read back from its annotation**, which tells the basic types by their default
values and brackets every other. -/
theorem type?_typeHint (type : Text) : type? (typeHint type) = some type := by
  unfold typeHint
  split
  · next h => rw [type?, if_pos rfl, h]
  split
  · next h => rw [type?, if_neg (by simp), if_pos rfl, h]
  split
  · next h => rw [type?, if_neg (by simp), if_neg (by simp), if_pos rfl, h]
  split
  · next h => rw [type?, if_neg (by simp), if_neg (by simp), if_neg (by simp), if_pos rfl, h]
  -- what is in brackets has no default value of a basic type
  · rw [type?, if_neg (by simp), if_neg (by simp), if_neg (by simp), if_neg (by simp),
      Text.between?_append]

theorem span_fieldLine {f : Field} (hf : f.Printable) (annotated : Text) :
    (f.name ++ [':'] ++ ' ' :: annotated).takeWhile (· != ' ') = f.name ++ [':']
      ∧ (f.name ++ [':'] ++ ' ' :: annotated).dropWhile (· != ' ') = ' ' :: annotated := by
  have hsolid : ∀ c ∈ f.name ++ [':'], (c != ' ') = true := by
    intro c hc
    rcases List.mem_append.1 hc with hc | hc
    · have hspace := hf.name_solid.not_mem (c := ' ') rfl
      simpa using fun heq : c = ' ' => hspace (heq ▸ hc)
    · rw [List.mem_singleton.1 hc]
      rfl
  constructor
  · rw [List.takeWhile_append_of_pos hsolid]
    simp
  · rw [List.dropWhile_append_of_pos hsolid]
    simp

theorem field?_fieldLine {f : Field} (hf : f.Printable) :
    field? (fieldLine f) = some (f.type, f.name) := by
  obtain ⟨htake, hdrop⟩ := span_fieldLine hf (typeHint f.type)
  have hindent (rest : Text) :
      ("    ".toList ++ rest).dropPrefix? "    ".toList = some rest :=
    List.dropPrefix?_eq_some_iff.2 ⟨_, rfl, beq_self_eq_true _⟩
  have hcolon : (f.name ++ [':']).dropSuffix? [':'] = some f.name :=
    List.dropSuffix?_eq_some_iff.2 ⟨[':'], rfl, beq_self_eq_true _⟩
  rw [field?, fieldLine_eq, hindent]
  simp only [htake, hdrop, hcolon, type?_typeHint, Option.map_some]

/-- The line of a field is no placeholder, also when the field is named `#`: a colon follows a
name. -/
theorem placeholder?_fieldLine {f : Field} (hf : f.Printable) :
    placeholder? commentMark (fieldLine f) = none := by
  refine placeholder?_eq_none fun hprefix => ?_
  obtain ⟨rest, hrest⟩ := hprefix
  obtain ⟨htake, -⟩ := span_fieldLine hf (typeHint f.type)
  have hmark : commentMark ++ "Message line ".toList ++ rest
      = "    ".toList ++ ('#' :: ' ' :: ("Message line ".toList ++ rest)) := by
    unfold commentMark
    simp
  -- up to the first space a placeholder has its mark alone, and a field a name and a colon
  rw [hmark, fieldLine_eq] at hrest
  rw [← List.append_cancel_left hrest] at htake
  have hlast := congrArg List.getLast? htake
  simp at hlast

/-- **A member is read back from its paragraph.** -/
theorem member?_paragraph {m : Member} (hm : ∀ f, m = .field f → f.Printable) :
    member? (paragraph m) = some m.unnumbered := by
  cases m with
  | field f =>
    have hf := hm f rfl
    have hlines : docLine = Source.docLine docMark := funext python_docLine_eq
    have hdocs : (f.docs.map docLine).mapM (doc? docMark) = some f.docs := by
      rw [hlines, mapM_doc?_map_docLine]
    rw [paragraph, member?, List.getLast?_concat, List.dropLast_concat]
    simp only [placeholder?_fieldLine hf, field?_fieldLine hf, hdocs]
    rfl
  | invalid number =>
    rw [paragraph, member?, List.getLast?_singleton]
    simp only [placeholder?_placeholder, List.length_singleton, if_true]
    rfl

theorem docLine_ne_nil (doc : Text) : (docLine doc).isEmpty = false := by
  rw [docLine]
  split <;> simp

theorem isEmpty_of_mem_paragraph {m : Member} : ∀ l ∈ paragraph m, l.isEmpty = false := by
  intro l hl
  cases m with
  | field f =>
    rcases List.mem_append.1 hl with hl | hl
    · obtain ⟨doc, -, rfl⟩ := List.mem_map.1 hl
      exact docLine_ne_nil doc
    · rw [List.mem_singleton.1 hl, fieldLine_eq]
      simp
  | invalid number =>
    rw [List.mem_singleton.1 hl]
    unfold commentMark
    simp

/-- **The paragraphs of a file are its members' lines.** -/
theorem paragraphs?_flatMap_memberLines (ms : List Member) :
    paragraphs? (ms.flatMap memberLines) = some (ms.map paragraph) := by
  have hlines : memberLines = fun m => [] :: paragraph m := funext memberLines_eq
  rw [paragraphs?, hlines, Text.splitWhen_flatMap_cons rfl paragraph
    fun m _ => isEmpty_of_mem_paragraph]

theorem mapM_member?_map_paragraph {ms : List Member} (hms : ∀ f, .field f ∈ ms → f.Printable) :
    (ms.map paragraph).mapM member? = some (ms.map Member.unnumbered) := by
  induction ms with
  | nil => rfl
  | cons m rest ih =>
    have hm : ∀ f, m = .field f → f.Printable := fun f hf => hms f (hf ▸ List.mem_cons_self)
    have hrest := ih fun f hf => hms f (List.mem_cons_of_mem _ hf)
    rw [List.map_cons, List.mapM_cons, member?_paragraph hm, hrest]
    rfl

/-! ## The line of the class -/

theorem classLine_eq (name : Text) : classLine name
    = "class ".toList ++ name ++ (['('] ++ messageInterface ++ "):".toList) := by
  have h : classLine name = "class ".toList ++ name ++ ['('] ++ messageInterface ++ "):".toList :=
    rfl
  rw [h]
  simp only [List.append_assoc]

theorem class?_classLine (name : Text) : class? (classLine name) = some name := by
  rw [class?, classLine_eq, Text.between?_append]

/-! ## Other blanks than spaces -/

theorem isSpaced_typeHint {type : Text} (h : Text.IsSolid type) : Text.IsSpaced (typeHint type) := by
  have hopening : Text.IsSpaced "Optional[".toList := by decide
  have hclosing : Text.IsSpaced "] = None".toList := by decide
  unfold typeHint
  split
  · decide
  split
  · decide
  split
  · decide
  split
  · decide
  · exact (hopening.append h.isSpaced).append hclosing

theorem isSpaced_fieldLine {f : Field} (hf : f.Printable) : Text.IsSpaced (fieldLine f) := by
  have hindent : Text.IsSpaced "    ".toList := by decide
  have hcolon : Text.IsSpaced ": ".toList := by decide
  exact ((hindent.append hf.name_solid.isSpaced).append hcolon).append
    (isSpaced_typeHint hf.type_solid)

/-- Only a comment can bring other blanks than spaces into the lines of a member. -/
theorem isSpaced_or_docLine {m : Member} (hm : ∀ f, m = .field f → f.Printable) {l : Text}
    (hl : l ∈ memberLines m) :
    Text.IsSpaced l ∨ ∃ f, m = .field f ∧ ∃ doc ∈ f.docs, l = docLine doc := by
  cases m with
  | field f =>
    rcases List.mem_append.1 hl with hl | hl
    · rcases List.mem_cons.1 hl with rfl | hl
      · exact .inl (by decide)
      · obtain ⟨doc, hdoc, rfl⟩ := List.mem_map.1 hl
        exact .inr ⟨f, rfl, doc, hdoc, rfl⟩
    · rw [List.mem_singleton.1 hl]
      exact .inl (isSpaced_fieldLine (hm f rfl))
  | invalid number =>
    have hmark : Text.IsSpaced "    # ".toList := by decide
    rcases List.mem_pair.1 hl with rfl | rfl
    · exact .inl (by decide)
    · exact .inl (hmark.append (isSpaced_placeholder number))

section Blank

variable {c : Char} (hblank : Text.isBlank c = true) (hspace : c ≠ ' ')
include hblank hspace

theorem not_mem_classLine {name : Text} (hname : c ∉ name) : c ∉ classLine name := by
  have hopening : Text.IsSpaced "class ".toList := by decide
  have hclosing : Text.IsSpaced (['('] ++ messageInterface ++ "):".toList) := by decide
  rw [classLine_eq, List.mem_append, List.mem_append, not_or, not_or]
  exact ⟨⟨hopening.not_mem hblank hspace, hname⟩, hclosing.not_mem hblank hspace⟩

theorem eq_docLine_of_mem_lines {d : Definition} (hname : c ∉ d.name)
    (hfields : ∀ f, .field f ∈ d.members → f.Printable) {l : Text} (hl : l ∈ lines d) (hc : c ∈ l) :
    ∃ doc ∈ d.fields.flatMap (·.docs), l = docLine doc := by
  have hspaced {s : Text} (hs : Text.IsSpaced s) : c ∉ s := hs.not_mem hblank hspace
  have hheader : ∀ l ∈ headerLines, Text.IsSpaced l := by decide
  simp only [lines, List.mem_append, List.mem_cons, List.not_mem_nil, or_false] at hl
  rcases hl with (hl | rfl | rfl) | hl
  · exact absurd hc (hspaced (hheader l hl))
  · exact absurd hc (not_mem_classLine hblank hspace hname)
  · exact absurd hc (hspaced (by decide))
  · obtain ⟨m, hm, hl⟩ := List.mem_flatMap.1 hl
    rcases isSpaced_or_docLine (fun f hf => hfields f (hf ▸ hm)) hl with h | ⟨f, rfl, doc, hdoc, rfl⟩
    · exact absurd hc (hspaced h)
    · exact ⟨doc, Definition.mem_docs_iff.2 ⟨f, hm, hdoc⟩, rfl⟩

end Blank

theorem lf_not_mem_lines {d : Definition} (hd : d.Printable) : ∀ l ∈ lines d, '\n' ∉ l := by
  intro l hl hc
  obtain ⟨doc, hdoc, rfl⟩ := eq_docLine_of_mem_lines rfl (by decide) hd.name_line hd.fields hl hc
  obtain ⟨f, hf, hdoc⟩ := Definition.mem_docs_iff.1 hdoc
  rw [python_docLine_eq, mem_docLine_iff_of_not_mem (by decide) (by decide)] at hc
  exact (hd.fields f hf).docs_line doc hdoc hc

/-! ## The whole text -/

/-- **The name and members of a printable definition are read back from its source**, but for the
source lines of its fields. -/
theorem read?_render {d : Definition} (hd : d.Printable) :
    read? (Source.render .python d) = some (d.name, d.members.map Member.unnumbered) := by
  have hlines : lines d
      = headerLines ++ classLine d.name :: creationLine :: d.members.flatMap memberLines := by
    rw [lines, List.append_assoc, List.cons_append, List.singleton_append]
  have hheader (rest : List Text) : (headerLines ++ rest).dropPrefix? headerLines = some rest :=
    List.dropPrefix?_eq_some_iff.2 ⟨headerLines, rfl, beq_self_eq_true _⟩
  have hclosed := Text.closedLines?_unlines (lf_not_mem_lines hd)
  rw [read?, show Source.render .python d = Text.unlines (lines d) from rfl, hclosed,
    Option.bind_some, hlines, hheader, Option.bind_some, body?, class?_classLine,
    paragraphs?_flatMap_memberLines, Option.bind_some, mapM_member?_map_paragraph hd.fields]
  exact if_pos rfl

end MessageCompiler.Source.Python
