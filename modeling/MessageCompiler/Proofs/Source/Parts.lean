import MessageCompiler.Proofs.Source.LineEnds

/-!
# The parts of generated source

Both languages put a message together in the same way: a preamble, the line after which the members
start, the creation time, the lines of each member, and what closes the message. A message may be
called anything, and its name stands in other parts than the members, which keep to their own lines
all the same.

* **`Source.lines_eq`**: the parts of the source.
* **`Source.memberLines_field`**, **`memberLines_invalid`**: the parts of a member.
* **`Source.lines_render`**: the lines of a file, whatever the message is called.
* **`Source.lf_not_mem_lines_ofText`**: if its name is one line, no line of the source is cut.
-/

namespace MessageCompiler

open Text

theorem Text.lines_unlines_flatMap (ls : List Text) (t : Text) :
    lines (unlines ls ++ t) = ls.flatMap lines ++ lines t := by
  induction ls with
  | nil => simp [unlines]
  | cons l rest ih =>
    have hcut : unlines (l :: rest) ++ t = l ++ '\n' :: (unlines rest ++ t) := by simp [unlines]
    rw [hcut, lines_append_lf, ih, List.flatMap_cons, List.append_assoc]

theorem Text.flatMap_lines_eq_self {ls : List Text} (h : ∀ l ∈ ls, '\n' ∉ l) :
    ls.flatMap lines = ls := by
  have hlines := lines_unlines_flatMap ls []
  rw [List.append_nil, lines_unlines h] at hlines
  exact (List.append_cancel_right hlines).symm

namespace Source

/-! ## Before the members -/

/-- The lines before the one after which the members start. -/
def preamble : Target → Definition → List Text
  | .csharp, d => CSharp.headerLines d.imports ++ [CSharp.typeLine d]
  | .python, _ => Python.headerLines

/-- The line after which the members start. -/
def opening : Target → Definition → Text
  | .csharp, _ => ['\x7b']
  | .python, d => Python.classLine d.name

def creationLine : Target → Text
  | .csharp => CSharp.creationLine
  | .python => Python.creationLine

/-- The empty line that Python has before a member. -/
def lead : Target → List Text
  | .csharp => []
  | .python => [[]]

/-- The empty line that C# has after a field and after the creation time. -/
def trail : Target → List Text
  | .csharp => [[]]
  | .python => []

theorem eq_nil_of_mem_lead {t : Target} {l : Text} (h : l ∈ lead t) : l = [] := by
  cases t <;> simp_all [lead]

theorem eq_nil_of_mem_trail {t : Target} {l : Text} (h : l ∈ trail t) : l = [] := by
  cases t <;> simp_all [trail]

/-- One empty line stands between a field and the next member, whichever of the two has it. -/
theorem trail_append_lead (t : Target) : trail t ++ lead t = [[]] := by
  cases t <;> rfl

/-- How the lines of the preamble start, unless they are empty. -/
theorem head?_mem_of_mem_preamble {t : Target} {d : Definition} {l : Text}
    (hl : l ∈ preamble t d) : l.head? ∈ [none, 'u', 'n', 'p', 'f', '@'] := by
  cases t with
  | csharp =>
    rcases List.mem_append.1 hl with hl | hl
    · rcases CSharp.mem_headerLines hl with rfl | ⟨⟨kind, name⟩, -, rfl⟩
      · decide
      · cases kind <;> simp [CSharp.importLine]
    · rw [List.mem_singleton.1 hl, CSharp.typeLine_eq]
      simp
  | python =>
    have hheader : ∀ l ∈ Python.headerLines, l.head? ∈ [none, 'u', 'n', 'p', 'f', '@'] := by decide
    exact hheader l hl

/-- Around the creation time there is nothing that is indented. -/
theorem isPrefixOf_preamble {t : Target} {d : Definition} {l mark : Text}
    (hl : l ∈ preamble t d ++ opening t d :: trail t) (hmark : mark.head? = some ' ') :
    mark.isPrefixOf l = false := by
  obtain ⟨rest, rfl⟩ : ∃ rest, mark = ' ' :: rest := List.head?_eq_some_iff.1 hmark
  have hhead : l.head? ≠ some ' ' := by
    rcases List.mem_append.1 hl with hl | hl
    · intro h
      have hmem := head?_mem_of_mem_preamble hl
      rw [h] at hmem
      exact absurd hmem (by decide)
    rcases List.mem_cons.1 hl with rfl | hl
    · cases t <;> simp [opening, Python.classLine_eq]
    · simp [eq_nil_of_mem_trail hl]
  cases l with
  | nil => rfl
  | cons c l =>
    have hc : (' ' == c) = false := beq_false_of_ne fun h => hhead (by rw [h]; rfl)
    simp [List.isPrefixOf, hc]

/-! ## Members -/

/-- The line that declares a field. -/
def fieldLine : Target → Field → Text
  | .csharp => CSharp.fieldLine
  | .python => Python.fieldLine

/-- The lines right above a field, one for each comment; C# puts two around them. -/
def docBlock : Target → List Text → List Text
  | .csharp, docs =>
    if docs.isEmpty then []
    else "    /// <summary>".toList :: docs.map (docLine (docMark .csharp))
      ++ ["    /// </summary>".toList]
  | .python, docs => docs.map (docLine (docMark .python))

def memberLines : Target → Member → List Text
  | .csharp => CSharp.memberLines
  | .python => Python.memberLines

theorem docBlock_csharp (docs : List Text) : CSharp.docLines docs = docBlock .csharp docs := by
  have hline : CSharp.docLine = docLine (docMark .csharp) := funext csharp_docLine_eq
  rw [CSharp.docLines, hline, docBlock]

theorem docBlock_python (docs : List Text) :
    docs.map Python.docLine = docBlock .python docs := by
  have hline : Python.docLine = docLine (docMark .python) := funext python_docLine_eq
  rw [hline, docBlock]

theorem memberLines_field (t : Target) (f : Field) : memberLines t (.field f)
    = lead t ++ (docBlock t f.docs ++ [fieldLine t f]) ++ trail t := by
  cases t with
  | csharp =>
    show CSharp.docLines f.docs ++ [CSharp.fieldLine f, []] = docBlock .csharp f.docs ++ _ ++ [[]]
    rw [docBlock_csharp, List.append_assoc]
    rfl
  | python =>
    show [] :: f.docs.map Python.docLine ++ [Python.fieldLine f] = _ ++ []
    rw [docBlock_python, List.append_nil]
    rfl

/-- The line that stands in for a malformed line. -/
def placeholderLine : Target → Nat → Text
  | .csharp, number => "    // ".toList ++ placeholder number
  | .python, number => "    # ".toList ++ placeholder number

theorem memberLines_invalid (t : Target) (number : Nat) :
    memberLines t (.invalid number) = lead t ++ [placeholderLine t number] := by
  cases t <;> rfl

theorem isPrefix_docLine (mark doc : Text) : mark <+: docLine mark doc := by
  unfold docLine
  split
  · exact List.prefix_rfl
  · exact List.prefix_append _ _

theorem docMark_isPrefix_of_mem_docBlock {t : Target} {docs : List Text} {l : Text}
    (hl : l ∈ docBlock t docs) : docMark t <+: l := by
  cases t with
  | csharp =>
    rw [← docBlock_csharp] at hl
    rcases CSharp.mem_docLines hl with rfl | ⟨doc, -, rfl⟩ | rfl
    · exact List.isPrefixOf_iff_prefix.1 rfl
    · rw [csharp_docLine_eq]
      exact isPrefix_docLine _ doc
    · exact List.isPrefixOf_iff_prefix.1 rfl
  | python =>
    obtain ⟨doc, -, rfl⟩ := List.mem_map.1 hl
    exact isPrefix_docLine _ doc

theorem isSpaced_or_docLine (t : Target) {m : Member} (hm : ∀ f, m = .field f → f.Printable) {l : Text}
    (hl : l ∈ memberLines t m) :
    IsSpaced l ∨ ∃ f, m = .field f ∧ ∃ doc ∈ f.docs, l = docLine (docMark t) doc := by
  cases t with
  | csharp =>
    exact (CSharp.isSpaced_or_docLine hm hl).imp_right fun ⟨f, hf, doc, hdoc, h⟩ =>
      ⟨f, hf, doc, hdoc, h.trans (csharp_docLine_eq doc)⟩
  | python =>
    exact (Python.isSpaced_or_docLine hm hl).imp_right fun ⟨f, hf, doc, hdoc, h⟩ =>
      ⟨f, hf, doc, hdoc, h.trans (python_docLine_eq doc)⟩

theorem lf_not_mem_memberLines {m : Member} (h : ∀ f, m = .field f → f.Printable) (t : Target) :
    ∀ l ∈ memberLines t m, '\n' ∉ l := by
  intro l hl hc
  rcases isSpaced_or_docLine t h hl with hspaced | ⟨f, hf, doc, hdoc, rfl⟩
  · exact hspaced.not_mem rfl (by decide) hc
  · exact (h f hf).docs_line doc hdoc ((mem_docLine_iff t rfl (by decide)).1 hc)

/-! ## The whole source -/

/-- The lines before the members. -/
def headLines (t : Target) (d : Definition) : List Text :=
  preamble t d ++ opening t d :: creationLine t :: trail t

/-- The lines after the members. -/
def tailLines : Target → Definition → List Text
  | .csharp, d => [CSharp.constructorLine d.name, ['\x7d']]
  | .python, _ => []

theorem lines_eq (t : Target) (d : Definition) :
    lines t d = headLines t d ++ d.members.flatMap (memberLines t) ++ tailLines t d := by
  cases t with
  | csharp =>
    show CSharp.headerLines d.imports ++ [CSharp.typeLine d, ['\x7b'], CSharp.creationLine, []]
      ++ _ ++ _ = CSharp.headerLines d.imports ++ [CSharp.typeLine d] ++ _ ++ _ ++ _
    rw [List.append_assoc (CSharp.headerLines d.imports) [CSharp.typeLine d]]
    rfl
  | python => exact (List.append_nil _).symm

/-- **Members are printed on lines of their own**, whatever the message is called. -/
theorem lines_render {d : Definition} (hd : ∀ f, .field f ∈ d.members → f.Printable) (t : Target) :
    Text.lines (render t d) = (headLines t d).flatMap Text.lines
      ++ (d.members.flatMap (memberLines t) ++ ((tailLines t d).flatMap Text.lines ++ [[]])) := by
  have hmembers : (d.members.flatMap (memberLines t)).flatMap Text.lines
      = d.members.flatMap (memberLines t) := by
    have hlf : ∀ l ∈ d.members.flatMap (memberLines t), '\n' ∉ l := fun l hl => by
      obtain ⟨m, hm, hl⟩ := List.mem_flatMap.1 hl
      exact lf_not_mem_memberLines (fun f hf => hd f (hf ▸ hm)) t l hl
    exact flatMap_lines_eq_self hlf
  rw [render, lines_eq, ← List.append_nil (unlines _), Text.lines_unlines_flatMap,
    List.flatMap_append, List.flatMap_append, hmembers, List.append_assoc, List.append_assoc]
  rfl

/-- **No line of a generated file has a line feed inside** if the name of the message has none. -/
theorem lf_not_mem_lines_ofText {name : Text} (hname : '\n' ∉ name) (t : Target) (text : Text) :
    ∀ l ∈ lines t ((Definition.ofText name text).1.spelled t), '\n' ∉ l := by
  intro l hl hmem
  have himports : ∀ i ∈ ((Definition.ofText name text).1.spelled t).imports, IsSpaced i.name :=
    fun _ => Definition.isSpaced_imports
  obtain ⟨doc, hdoc, rfl⟩ := eq_docLine_of_mem_lines himports
    (fun _ => Definition.printable_of_mem_spelled_ofText) rfl (by decide) hname t hl hmem
  rw [Definition.docs_spelled] at hdoc
  exact Definition.lf_not_mem_docs hdoc ((mem_docLine_iff t rfl (by decide)).1 hmem)

end Source

end MessageCompiler
