import MessageCompiler.Proofs.Source.Marks

/-!
# Reading C# source back

`CSharp.read?` reads the text of a generated C# file and says what definition it shows. It goes
through the lines once and accounts for every one of them: a line that is none of those that a
definition is written with ends the reading with `none`.

* **`members?_flatMap_memberLines`**: the members are read back from their lines, up to the line
  that follows them. A block of documentation ends at the line of its field, whatever the comments
  in it say.
* **`eq_docLine_of_mem_lines`**: a blank that is no space, and not in the name of the message or of an
  import, is in a line of documentation. So no line feed is inside a line.
* **`read?_render`**: a printable definition is read back from its source.
-/

namespace MessageCompiler.Source.CSharp

/-! ## The reader -/

/-- The mark of a line of documentation. -/
def docMark : Text := "    ///".toList

/-- The mark of a line comment. -/
def commentMark : Text := "    // ".toList

/-- The type and name that a line declares a field with. -/
def field? (line : Text) : Option (Text × Text) :=
  match (Text.between? "    public ".toList [';'] line).map (Text.splitWhen (· == ' ')) with
  | some [type, name] => some (type, name)
  | _ => none

/-- The comments in a block of documentation, which has an opening and a closing line unless it is
empty. -/
def docs? : List Text → Option (List Text)
  | [] => some []
  | first :: rest =>
    if first = "    /// <summary>".toList ∧ rest.getLast? = some "    /// </summary>".toList then
      rest.dropLast.mapM (doc? docMark)
    else none

/-- The members at the start of some lines, given the lines of documentation right before them, and
the lines from the first on that belongs to no member. Empty lines declare nothing. -/
def members? (block : List Text) : List Text → Option (List Member × List Text)
  | [] => none
  | line :: rest =>
    if line.isEmpty then members? block rest
    else if docMark.isPrefixOf line then members? (block ++ [line]) rest
    else
      match placeholder? commentMark line with
      | some number =>
        if block.isEmpty then
          (members? [] rest).map fun (ms, closing) => (.invalid number :: ms, closing)
        else none
      | none =>
        match field? line with
        | some (type, name) =>
          match docs? block with
          | some docs =>
            (members? [] rest).map fun (ms, closing) => (.field ⟨0, type, name, docs⟩ :: ms, closing)
          | none => none
        | none => if block.isEmpty then some ([], line :: rest) else none

/-- The import that a line declares. -/
def import? (line : Text) : Option Import :=
  match Text.between? "namespace ".toList [';'] line with
  | some name => some ⟨.home, name⟩
  | none => (Text.between? "using ".toList [';'] line).map (⟨.uses, ·⟩)

/-- The imports at the start of some lines, each with an empty line after it, and the lines from
the first on that declares none. -/
def imports? : List Text → List Import × List Text
  | line :: [] :: rest =>
    match import? line with
    | some i => (i :: (imports? rest).1, (imports? rest).2)
    | none => ([], line :: [] :: rest)
  | rest => ([], rest)

/-- The kind and name of the message that a line opens. -/
def type? (line : Text) : Option (Kind × Text) :=
  match (Text.between? "public ".toList (" : ".toList ++ messageInterface) line).bind
    (Text.splitLast ' ') with
  | some (kind, name) => (Kind.ofName? kind).map (·, name)
  | none => none

/-- The definition that the lines after the imports show. -/
def body? (imports : List Import) : List Text → Option Definition
  | typeLine :: opening :: creation :: rest =>
    match type? typeLine, members? [] rest with
    | some (kind, name), some (members, closing) =>
      if opening = ['\x7b'] ∧ creation = creationLine
          ∧ closing = [constructorLine name, ['\x7d']] then
        some ⟨name, kind, imports, members⟩
      else none
    | _, _ => none
  | _ => none

/-- The definition that the text of a file shows. -/
def read? (contents : Text) : Option Definition :=
  match Text.closedLines? contents with
  | some (first :: [] :: rest) =>
    if first = "using ".toList ++ messageModule ++ [';'] then
      body? (imports? rest).1 (imports? rest).2
    else none
  | _ => none

/-! ## The lines of a member -/

theorem docLine_ne_nil (doc : Text) : (docLine doc).isEmpty = false := by
  rw [docLine]
  split <;> simp

theorem docMark_isPrefixOf_docLine (doc : Text) : docMark.isPrefixOf (docLine doc) = true := by
  unfold docMark
  rw [docLine]
  split <;> simp

/-- The lines of a documentation are collected into one block, whatever they say. -/
theorem members?_docs (docs rest block : List Text) :
    members? block (docs.map docLine ++ rest) = members? (block ++ docs.map docLine) rest := by
  induction docs generalizing block with
  | nil => simp
  | cons doc docs ih =>
    rw [List.map_cons, List.cons_append, members?, docLine_ne_nil, docMark_isPrefixOf_docLine,
      if_neg (by decide), if_pos rfl, ih, List.append_assoc, List.singleton_append]

/-- A whole block of documentation is collected, its opening and closing lines included. -/
theorem members?_docLines (docs rest : List Text) :
    members? [] (docLines docs ++ rest) = members? (docLines docs) rest := by
  have hopen : "    /// <summary>".toList = docLine "<summary>".toList := by
    simp [docLine]
  have hclose : "    /// </summary>".toList = docLine "</summary>".toList := by
    simp [docLine]
  rw [docLines]
  split
  · rfl
  · have hblock : "    /// <summary>".toList :: docs.map docLine ++ ["    /// </summary>".toList]
        = ("<summary>".toList :: docs ++ ["</summary>".toList]).map docLine := by
      rw [hopen, hclose, List.map_append, List.map_cons, List.map_singleton]
    rw [hblock, members?_docs, List.nil_append]

/-- **A block of documentation is read back**, also when a comment in it looks like its end. -/
theorem docs?_docLines (docs : List Text) : docs? (docLines docs) = some docs := by
  cases docs with
  | nil => rfl
  | cons doc docs =>
    have hne : (doc :: docs).isEmpty = false := rfl
    have hlines : docLine = Source.docLine docMark := funext csharp_docLine_eq
    rw [docLines, hne, if_neg (by decide), List.cons_append, docs?,
      if_pos ⟨rfl, List.getLast?_concat⟩, List.dropLast_concat, hlines, mapM_doc?_map_docLine]

/-- Unfolding equation for `fieldLine`: its two texts are joined by a space. -/
theorem fieldLine_eq (f : Field) :
    fieldLine f = "    public ".toList ++ [' '].intercalate [f.type, f.name] ++ [';'] := by
  have hfields : [' '].intercalate [f.type, f.name] = f.type ++ [' '] ++ f.name := by
    rw [List.intercalate_cons_cons, List.intercalate_singleton]
  rw [hfields, ← List.append_assoc, ← List.append_assoc]
  rfl

theorem field?_fieldLine {f : Field} (hf : f.Printable) :
    field? (fieldLine f) = some (f.type, f.name) := by
  have hsolid : ∀ piece ∈ [f.type, f.name], ∀ c ∈ piece, (c == ' ') = false := by
    intro piece hpiece c hc
    refine beq_false_of_ne fun heq => ?_
    subst heq
    rcases List.mem_pair.1 hpiece with rfl | rfl
    · exact hf.type_solid.not_mem rfl hc
    · exact hf.name_solid.not_mem rfl hc
  rw [field?, fieldLine_eq, Text.between?_append, Option.map_some,
    Text.splitWhen_intercalate rfl (List.cons_ne_nil _ _) hsolid]

theorem fieldLine_facts (f : Field) : (fieldLine f).isEmpty = false
    ∧ docMark.isPrefixOf (fieldLine f) = false
    ∧ placeholder? commentMark (fieldLine f) = none := by
  unfold docMark commentMark
  rw [fieldLine_eq]
  refine ⟨by simp, by simp [List.isPrefixOf], placeholder?_eq_none ?_⟩
  simp

theorem members?_field {f : Field} (hf : f.Printable) (rest : List Text) :
    members? [] (memberLines (.field f) ++ rest)
      = (members? [] rest).map fun (ms, closing) => (.field { f with line := 0 } :: ms, closing) := by
  obtain ⟨hne, hdoc, hplaceholder⟩ := fieldLine_facts f
  rw [memberLines, List.append_assoc, members?_docLines, List.cons_append, List.singleton_append,
    members?, hne, hdoc, hplaceholder, field?_fieldLine hf, docs?_docLines, members?]
  rfl

theorem members?_invalid (number : Nat) (rest : List Text) :
    members? [] (memberLines (.invalid number) ++ rest)
      = (members? [] rest).map fun (ms, closing) => (.invalid number :: ms, closing) := by
  have hline : "    // ".toList ++ placeholder number = commentMark ++ placeholder number := rfl
  have hne : (commentMark ++ placeholder number).isEmpty = false := by
    unfold commentMark
    simp
  have hdoc : docMark.isPrefixOf (commentMark ++ placeholder number) = false := by
    unfold commentMark docMark
    simp [List.isPrefixOf]
  rw [memberLines, List.singleton_append, members?, hline, hne, hdoc, placeholder?_placeholder]
  rfl

/-- **The members are read back from their lines.** Induction on the members; the reading goes on
with no line of documentation left over. -/
theorem members?_flatMap_memberLines {ms : List Member} (hms : ∀ f, .field f ∈ ms → f.Printable)
    {closing : List Text} (hclosing : members? [] closing = some ([], closing)) :
    members? [] (ms.flatMap memberLines ++ closing) = some (ms.map Member.unnumbered, closing) := by
  induction ms with
  | nil => exact hclosing
  | cons m rest ih =>
    have hrest := ih fun f hf => hms f (List.mem_cons_of_mem _ hf)
    rw [List.flatMap_cons, List.append_assoc]
    cases m with
    | field f =>
      rw [members?_field (hms f List.mem_cons_self), hrest]
      rfl
    | invalid number =>
      rw [members?_invalid, hrest]
      rfl

/-! ## The other lines -/

theorem constructorLine_eq (name : Text) :
    constructorLine name = "    public ".toList ++ name ++ "()\x7b\x7d".toList := rfl

/-- Unfolding equation for `typeLine`: the name of the message is what follows the last space. -/
theorem typeLine_eq (d : Definition) : typeLine d
    = "public ".toList ++ (d.kind.name ++ ' ' :: d.name) ++ (" : ".toList ++ messageInterface) := by
  have h : typeLine d = "public ".toList ++ d.kind.name ++ [' '] ++ d.name ++ " : ".toList
    ++ messageInterface := rfl
  rw [h]
  simp only [List.append_assoc, List.singleton_append]

/-- The line of the constructor declares no field: no semicolon ends it. -/
theorem field?_constructorLine (name : Text) : field? (constructorLine name) = none := by
  have hbetween : Text.between? "    public ".toList [';'] (constructorLine name) = none := by
    refine Option.eq_none_iff_forall_not_mem.2 fun middle hmiddle => ?_
    have hline := Text.between?_eq_some_iff.1 hmiddle
    rw [constructorLine_eq] at hline
    have hlast := congrArg List.getLast? hline
    rw [List.getLast?_append, List.getLast?_concat] at hlast
    simp at hlast
  rw [field?, hbetween]
  rfl

theorem members?_constructorLine (name : Text) (rest : List Text) :
    members? [] (constructorLine name :: rest) = some ([], constructorLine name :: rest) := by
  have hne : (constructorLine name).isEmpty = false := by
    rw [constructorLine_eq]
    simp
  have hdoc : docMark.isPrefixOf (constructorLine name) = false := by
    unfold docMark
    rw [constructorLine_eq]
    simp [List.isPrefixOf]
  have hplaceholder : placeholder? commentMark (constructorLine name) = none := by
    refine placeholder?_eq_none ?_
    unfold commentMark
    rw [constructorLine_eq]
    simp
  rw [members?, hne, hdoc, hplaceholder, field?_constructorLine]
  rfl

theorem import?_importLine (i : Import) : import? (importLine i) = some i := by
  obtain ⟨kind, name⟩ := i
  cases kind with
  | home =>
    have hline : importLine ⟨.home, name⟩ = "namespace ".toList ++ name ++ [';'] := rfl
    rw [import?, hline, Text.between?_append]
  | uses =>
    have hline : importLine ⟨.uses, name⟩ = "using ".toList ++ name ++ [';'] := rfl
    -- the two kinds of line differ in their first letter
    have hhome : ¬ "namespace ".toList <+: "using ".toList ++ name ++ [';'] := by simp
    rw [import?, hline, Text.between?_eq_none hhome, Text.between?_append]
    rfl

/-- **The imports are read back**, up to a line that no empty line follows. -/
theorem imports?_flatMap (imports : List Import) (line next : Text) (rest : List Text)
    (hnext : next ≠ []) :
    imports? ((imports.flatMap fun i => [importLine i, []]) ++ line :: next :: rest)
      = (imports, line :: next :: rest) := by
  induction imports with
  | nil =>
    -- the line of the message may look like an import, but its brace follows
    obtain ⟨c, next, rfl⟩ := List.exists_cons_of_ne_nil hnext
    rfl
  | cons i others ih =>
    have hcut : ((i :: others).flatMap fun i => [importLine i, []]) ++ line :: next :: rest
        = importLine i :: []
          :: ((others.flatMap fun i => [importLine i, []]) ++ line :: next :: rest) := rfl
    rw [hcut, imports?, import?_importLine, ih]

/-- The kind and the name of a message are read back. A kind may be two words, so the name is what
follows the last space; it has none itself. -/
theorem type?_typeLine {d : Definition} (hd : ' ' ∉ d.name) :
    type? (typeLine d) = some (d.kind, d.name) := by
  rw [type?, typeLine_eq, Text.between?_append, Option.bind_some,
    Text.splitLast_append_cons hd]
  simp only [Kind.ofName?_name, Option.map_some]

/-! ## Which lines there are -/

/-- The lines of the header are empty or bring something into the file. -/
theorem mem_headerLines {imports : List Import} {l : Text} (hl : l ∈ headerLines imports) :
    l = [] ∨ ∃ i ∈ Import.uses messageModule :: imports, l = importLine i := by
  rcases List.mem_append.1 hl with hl | hl
  · rcases List.mem_pair.1 hl with rfl | rfl
    · exact .inr ⟨_, List.mem_cons_self, rfl⟩
    · exact .inl rfl
  · obtain ⟨i, hi, hl⟩ := List.mem_flatMap.1 hl
    rcases List.mem_pair.1 hl with rfl | rfl
    · exact .inr ⟨i, List.mem_cons_of_mem _ hi, rfl⟩
    · exact .inl rfl

/-- The lines of a documentation are those of its comments and the two around them. -/
theorem mem_docLines {docs : List Text} {l : Text} (hl : l ∈ docLines docs) :
    l = "    /// <summary>".toList ∨ (∃ doc ∈ docs, docLine doc = l)
      ∨ l = "    /// </summary>".toList := by
  rw [docLines] at hl
  split at hl
  · cases hl
  · simpa only [List.cons_append, List.mem_cons, List.mem_append, List.mem_map, List.not_mem_nil,
      or_false] using hl

/-! ## Other blanks than spaces -/

theorem isSpaced_fieldLine {f : Field} (hf : f.Printable) : Text.IsSpaced (fieldLine f) := by
  have hopening : Text.IsSpaced "    public ".toList := by decide
  have hclosing : Text.IsSpaced [';'] := by decide
  have hdeclared : Text.IsSpaced ([' '].intercalate [f.type, f.name]) :=
    Text.isSpaced_intercalate fun w hw => by
      rcases List.mem_pair.1 hw with rfl | rfl
      · exact hf.type_solid
      · exact hf.name_solid
  rw [fieldLine_eq]
  exact (hopening.append hdeclared).append hclosing

/-- Only a comment can bring other blanks than spaces into the lines of a member. -/
theorem isSpaced_or_docLine {m : Member} (hm : ∀ f, m = .field f → f.Printable) {l : Text}
    (hl : l ∈ memberLines m) :
    Text.IsSpaced l ∨ ∃ f, m = .field f ∧ ∃ doc ∈ f.docs, l = docLine doc := by
  cases m with
  | field f =>
    rcases List.mem_append.1 hl with hl | hl
    · rcases mem_docLines hl with rfl | ⟨doc, hdoc, rfl⟩ | rfl
      · exact .inl (by decide)
      · exact .inr ⟨f, rfl, doc, hdoc, rfl⟩
      · exact .inl (by decide)
    · rcases List.mem_pair.1 hl with rfl | rfl
      · exact .inl (isSpaced_fieldLine (hm f rfl))
      · exact .inl (by decide)
  | invalid number =>
    have hmark : Text.IsSpaced "    // ".toList := by decide
    rw [List.mem_singleton.1 hl]
    exact .inl (hmark.append (isSpaced_placeholder number))

section Blank

variable {c : Char} (hblank : Text.isBlank c = true) (hspace : c ≠ ' ')
include hblank hspace

theorem not_mem_headerLines {imports : List Import} (h : ∀ i ∈ imports, c ∉ i.name) :
    ∀ l ∈ headerLines imports, c ∉ l := by
  have hspaced {s : Text} (hs : Text.IsSpaced s) : c ∉ s := hs.not_mem hblank hspace
  intro l hl
  rcases mem_headerLines hl with rfl | ⟨i, hi, rfl⟩
  · exact List.not_mem_nil
  · have hname : c ∉ i.name := by
      rcases List.mem_cons.1 hi with rfl | hi
      · exact hspaced (by decide)
      · exact h i hi
    rw [importLine]
    split
    · rw [List.mem_append, List.mem_append, not_or, not_or]
      exact ⟨⟨hspaced (by decide), hname⟩, hspaced (by decide)⟩
    · rw [List.mem_append, List.mem_append, not_or, not_or]
      exact ⟨⟨hspaced (by decide), hname⟩, hspaced (by decide)⟩

theorem not_mem_typeLine {d : Definition} (hname : c ∉ d.name) : c ∉ typeLine d := by
  have hopening : Text.IsSpaced ("public ".toList ++ d.kind.name ++ [' ']) := by
    cases d.kind <;> decide
  have hclosing : Text.IsSpaced (" : ".toList ++ messageInterface) := by decide
  have hline : typeLine d = "public ".toList ++ d.kind.name ++ [' '] ++ d.name
      ++ (" : ".toList ++ messageInterface) := by
    rw [typeLine_eq]
    simp only [List.append_assoc, List.singleton_append]
  rw [hline, List.mem_append, List.mem_append, not_or, not_or]
  exact ⟨⟨hopening.not_mem hblank hspace, hname⟩, hclosing.not_mem hblank hspace⟩

theorem not_mem_constructorLine {name : Text} (hname : c ∉ name) : c ∉ constructorLine name := by
  have hopening : Text.IsSpaced "    public ".toList := by decide
  have hclosing : Text.IsSpaced "()\x7b\x7d".toList := by decide
  rw [constructorLine_eq, List.mem_append, List.mem_append, not_or, not_or]
  exact ⟨⟨hopening.not_mem hblank hspace, hname⟩, hclosing.not_mem hblank hspace⟩

theorem eq_docLine_of_mem_lines {d : Definition} (hname : c ∉ d.name)
    (himports : ∀ i ∈ d.imports, c ∉ i.name) (hfields : ∀ f, .field f ∈ d.members → f.Printable)
    {l : Text} (hl : l ∈ lines d) (hc : c ∈ l) :
    ∃ doc ∈ d.fields.flatMap (·.docs), l = docLine doc := by
  have hspaced {s : Text} (hs : Text.IsSpaced s) : c ∉ s := hs.not_mem hblank hspace
  simp only [lines, List.mem_append, List.mem_cons, List.not_mem_nil, or_false] at hl
  rcases hl with ((hl | rfl | rfl | rfl | rfl) | hl) | rfl | rfl
  · exact absurd hc (not_mem_headerLines hblank hspace himports l hl)
  · exact absurd hc (not_mem_typeLine hblank hspace hname)
  · exact absurd hc (hspaced (by decide))
  · exact absurd hc (hspaced (by decide))
  · cases hc
  · obtain ⟨m, hm, hl⟩ := List.mem_flatMap.1 hl
    rcases isSpaced_or_docLine (fun f hf => hfields f (hf ▸ hm)) hl with h | ⟨f, rfl, doc, hdoc, rfl⟩
    · exact absurd hc (hspaced h)
    · exact ⟨doc, Definition.mem_docs_iff.2 ⟨f, hm, hdoc⟩, rfl⟩
  · exact absurd hc (not_mem_constructorLine hblank hspace hname)
  · exact absurd hc (hspaced (by decide))

end Blank

theorem lf_not_mem_lines {d : Definition} (hname : '\n' ∉ d.name)
    (himports : ∀ i ∈ d.imports, '\n' ∉ i.name) (hfields : ∀ f, .field f ∈ d.members → f.Printable) :
    ∀ l ∈ lines d, '\n' ∉ l := by
  intro l hl hc
  obtain ⟨doc, hdoc, rfl⟩ := eq_docLine_of_mem_lines rfl (by decide) hname himports hfields hl hc
  obtain ⟨f, hf, hdoc⟩ := Definition.mem_docs_iff.1 hdoc
  rw [csharp_docLine_eq, mem_docLine_iff_of_not_mem (by decide) (by decide)] at hc
  exact (hfields f hf).docs_line doc hdoc hc

/-! ## The whole text -/

/-- **A printable definition is read back from its source**, but for the source lines of its
fields. -/
theorem read?_render {d : Definition} (hd : d.Printable) :
    read? (Source.render .csharp d) = some d.unnumbered := by
  have hlines : lines d = ("using ".toList ++ messageModule ++ [';']) :: []
      :: ((d.imports.flatMap fun i => [importLine i, []])
        ++ typeLine d :: ['\x7b'] :: (creationLine :: []
          :: (d.members.flatMap memberLines ++ [constructorLine d.name, ['\x7d']]))) := by
    simp only [lines, headerLines, List.append_assoc, List.cons_append, List.nil_append]
  -- the empty line after the creation time is passed over
  have hmembers : members? [] ([] :: (d.members.flatMap memberLines
        ++ [constructorLine d.name, ['\x7d']]))
      = some (d.members.map Member.unnumbered, [constructorLine d.name, ['\x7d']]) := by
    rw [members?, if_pos List.isEmpty_nil]
    exact members?_flatMap_memberLines hd.fields (members?_constructorLine d.name _)
  have hclosed :=
    Text.closedLines?_unlines (lf_not_mem_lines hd.name_line hd.imports_line hd.fields)
  rw [hlines] at hclosed
  rw [read?, show Source.render .csharp d = Text.unlines (lines d) from rfl, hlines, hclosed]
  simp only [if_true]
  rw [imports?_flatMap d.imports _ _ _ (List.cons_ne_nil _ _), body?,
    type?_typeLine hd.name_space, hmembers]
  simp only [and_self, if_true]
  rfl

end MessageCompiler.Source.CSharp
