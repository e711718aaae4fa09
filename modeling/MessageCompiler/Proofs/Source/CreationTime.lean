import MessageCompiler.Proofs.Source.Parts
import MessageCompiler.Proofs.Source.Spelling

/-!
# The creation time is the first member, and no other

Every message declares its creation time before all other members. Types and names of fields,
comments, imports and the name of the message stand in the source as well, but none of them makes a
line that starts like this declaration. Lines around the members are not indented or have too few
spaces, and documentation has a mark of its own. A field in C# has fewer spaces as well, since its
type and name have none; in Python its first word is its name, which is not that of the creation
time.

* **`Source.creationMark_memberLines`**: no line of a member starts so.
* **`Target.fieldName_spec`**: what a field is called beside the creation time.
* **`Source.creationTime_compile`**: where the creation time stands in a file.
-/

namespace MessageCompiler

open Text

namespace Source

/-- How the line starts that declares the creation time. -/
def creationMark : Target → Text
  | .csharp => "    public DateTime Timestamp \x7b".toList
  | .python => "    timestamp: ".toList

/-- Whether the members of a message may start after the line. -/
def opensMembers : Target → Text → Bool
  | .csharp, l => l == ['\x7b']
  | .python, l => "class ".toList.isPrefixOf l

/-! ## Lines with few spaces -/

theorem isPrefixOf_eq_false_of_count_lt {mark l : Text} {c : Char} (h : l.count c < mark.count c) :
    mark.isPrefixOf l = false := by
  by_contra hprefix
  rw [Bool.not_eq_false, List.isPrefixOf_iff_prefix] at hprefix
  have := hprefix.sublist.count_le c
  omega

theorem count_creationMark : (creationMark .csharp).count ' ' = 7 := by decide

theorem CSharp.count_fieldLine {f : Field} (hf : f.Printable) : (fieldLine f).count ' ' = 6 := by
  have htype : f.type.count ' ' = 0 := List.count_eq_zero.2 (hf.type_solid.not_mem rfl)
  have hname : f.name.count ' ' = 0 := List.count_eq_zero.2 (hf.name_solid.not_mem rfl)
  have hopening : "    public ".toList.count ' ' = 5 := by decide
  unfold fieldLine
  simp only [List.count_append, hopening, htype, hname]
  rfl

theorem CSharp.count_constructorLine {name : Text} (h : ' ' ∉ name) :
    (constructorLine name).count ' ' = 5 := by
  have hname : name.count ' ' = 0 := List.count_eq_zero.2 h
  have hopening : "    public ".toList.count ' ' = 5 := by decide
  have hclosing : "()\x7b\x7d".toList.count ' ' = 0 := by decide
  unfold constructorLine
  simp only [List.count_append, hopening, hname, hclosing]

/-! ## Lines of members -/

/-- A Python field is told from the creation time by its name, which ends at the first space. -/
theorem Python.creationMark_fieldLine {f : Field} (hf : f.Printable)
    (hname : f.name ≠ Target.python.creationTime) :
    (creationMark .python).isPrefixOf (fieldLine f) = false := by
  by_contra hprefix
  rw [Bool.not_eq_false, List.isPrefixOf_iff_prefix] at hprefix
  obtain ⟨rest, hrest⟩ := hprefix
  obtain ⟨htake, -⟩ := span_fieldLine hf (typeHint f.type)
  have hmark : creationMark .python ++ rest
      = "    ".toList ++ (Target.python.creationTime ++ [':'] ++ ' ' :: rest) := rfl
  rw [hmark, fieldLine_eq] at hrest
  rw [← List.append_cancel_left hrest] at htake
  exact hname (List.append_cancel_right htake).symm

theorem creationMark_fieldLine {t : Target} {f : Field} (hf : f.Printable)
    (hname : f.name ≠ t.creationTime) : (creationMark t).isPrefixOf (fieldLine t f) = false := by
  cases t with
  | csharp =>
    apply isPrefixOf_eq_false_of_count_lt (c := ' ')
    show (CSharp.fieldLine f).count ' ' < _
    rw [CSharp.count_fieldLine hf, count_creationMark]
    omega
  | python => exact Python.creationMark_fieldLine hf hname

theorem creationMark_of_docMark {t : Target} {l : Text} (hl : docMark t <+: l) :
    (creationMark t).isPrefixOf l = false := by
  by_contra hprefix
  rw [Bool.not_eq_false, List.isPrefixOf_iff_prefix] at hprefix
  rcases List.prefix_or_prefix_of_prefix hl hprefix with h | h
  · cases t <;> exact absurd h (by decide)
  · cases t <;> exact absurd h (by decide)

/-- **No line of a member looks like the creation time**, whatever its comments say. -/
theorem creationMark_memberLines {t : Target} {m : Member}
    (hm : ∀ f, m = .field f → f.Printable ∧ f.name ≠ t.creationTime) :
    ∀ l ∈ memberLines t m, (creationMark t).isPrefixOf l = false := by
  have hempty : (creationMark t).isPrefixOf [] = false := by cases t <;> rfl
  intro l hl
  cases m with
  | invalid number =>
    rw [memberLines_invalid] at hl
    rcases List.mem_append.1 hl with hl | hl
    · rwa [eq_nil_of_mem_lead hl]
    · rw [List.mem_singleton.1 hl]
      cases t <;> rfl
  | field f =>
    simp only [memberLines_field, List.mem_append, List.mem_singleton] at hl
    rcases hl with (hl | hl | rfl) | hl
    · rwa [eq_nil_of_mem_lead hl]
    · exact creationMark_of_docMark (docMark_isPrefix_of_mem_docBlock hl)
    · exact creationMark_fieldLine (hm f rfl).1 (hm f rfl).2
    · rwa [eq_nil_of_mem_trail hl]

/-! ## Lines around the members -/

theorem creationMark_tailLines {d : Definition} (h : ' ' ∉ d.name) (t : Target) :
    ∀ l ∈ tailLines t d, (creationMark t).isPrefixOf l = false := by
  intro l hl
  cases t with
  | csharp =>
    rcases List.mem_pair.1 hl with rfl | rfl
    · apply isPrefixOf_eq_false_of_count_lt (c := ' ')
      rw [CSharp.count_constructorLine h, count_creationMark]
      omega
    · rfl
  | python => simp [tailLines] at hl

theorem opensMembers_preamble {t : Target} {d : Definition} {l : Text} (hl : l ∈ preamble t d) :
    opensMembers t l = false := by
  cases t with
  | csharp =>
    apply beq_false_of_ne
    rintro rfl
    exact absurd (head?_mem_of_mem_preamble hl) (by decide)
  | python =>
    have hheader : ∀ l ∈ Python.headerLines, opensMembers .python l = false := by decide
    exact hheader l hl

end Source

/-! ## Names beside the creation time -/

/-- **A name is changed only if it has to be, and no new name would have to be changed again.** -/
theorem Target.fieldName_spec (t : Target) (name : Text) :
    t.fieldName name ∉ t.reserved ∧ t.fieldName name ≠ t.creationTime
      ∧ (name ∉ t.reserved → name ≠ t.creationTime → t.fieldName name = name)
      ∧ t.fieldName (t.fieldName name) = t.fieldName name := by
  have hnew : t.fieldName name ∉ t.creationTime :: t.reserved := by
    rw [← renames_iff, renames_fieldName]
    exact Bool.false_ne_true
  rw [List.mem_cons, not_or] at hnew
  refine ⟨hnew.2, hnew.1, fun hreserved hcreation => ?_, ?_⟩
  · apply fieldName_of_renames_eq_false
    rw [← Bool.not_eq_true, renames_iff, List.mem_cons, not_or]
    exact ⟨hcreation, hreserved⟩
  · exact fieldName_of_renames_eq_false (renames_fieldName t name)

/-- The fields that a target spells can be printed, and none hides the creation time. -/
theorem Definition.creationTime_not_mem_spelled {name text : Text} {t : Target} {f : Field}
    (h : .field f ∈ ((ofText name text).1.spelled t).members) :
    f.Printable ∧ f.name ≠ t.creationTime := by
  have hf := mem_fields_iff.2 h
  rw [fields_spelled] at hf
  obtain ⟨g, -, rfl⟩ := List.mem_map.1 hf
  exact ⟨printable_of_mem_spelled_ofText h, (t.fieldName_spec g.name).2.1⟩

namespace Source

/-- **The creation time is declared once, and first.** If the name of the message has neither a line
feed nor a space, then in a generated file one line starts as the declaration of the creation time
does, and it is right after the first line that can open the members. A field is called neither so
nor by a reserved word in the target, keeps its name if it may, and its name is settled. -/
theorem creationTime_compile (t : Target) (name text : Text) :
    let d := (Definition.ofText name text).1
    (∀ config : Config, config.targets.isEnabled t → '\n' ∉ name → ' ' ∉ name →
      ∃ file before opening after, (compile config name text).file? t = some file
        ∧ Text.lines file.contents = before ++ opening :: creationLine t :: after
        ∧ opensMembers t opening = true ∧ (∀ l ∈ before, opensMembers t l = false)
        ∧ (creationMark t).isPrefixOf (creationLine t) = true
        ∧ ∀ l ∈ before ++ opening :: after, (creationMark t).isPrefixOf l = false)
      ∧ (d.spelled t).fields = d.fields.map (Field.spelled t)
      ∧ ∀ f ∈ d.fields, (f.spelled t).name ∉ t.reserved ∧ (f.spelled t).name ≠ t.creationTime
        ∧ (f.name ∉ t.reserved → f.name ≠ t.creationTime → (f.spelled t).name = f.name)
        ∧ t.fieldName (f.spelled t).name = (f.spelled t).name := by
  intro d
  refine ⟨fun config ht hline hspace => ?_, Definition.fields_spelled t d,
    fun f _ => t.fieldName_spec f.name⟩
  have hlines : Text.lines (render t (d.spelled t)) = preamble t (d.spelled t)
      ++ opening t (d.spelled t) :: creationLine t :: (trail t
        ++ ((d.spelled t).members.flatMap (memberLines t) ++ (tailLines t (d.spelled t) ++ [[]]))) := by
    rw [render, lines_unlines (lf_not_mem_lines_ofText hline t text), lines_eq]
    simp [headLines, d]
  have hindent : (creationMark t).head? = some ' ' := by cases t <;> rfl
  refine ⟨_, _, _, _, Compiled.file?_compile ht name text, hlines, by cases t <;> rfl,
    fun l => opensMembers_preamble, by cases t <;> decide, fun l hl => ?_⟩
  have hparts : l ∈ preamble t (d.spelled t) ++ opening t (d.spelled t) :: trail t
      ∨ l ∈ (d.spelled t).members.flatMap (memberLines t) ∨ l ∈ tailLines t (d.spelled t) ∨ l = [] := by
    simpa [or_assoc] using hl
  rcases hparts with hl | hl | hl | rfl
  · exact isPrefixOf_preamble hl hindent
  · obtain ⟨m, hm, hl⟩ := List.mem_flatMap.1 hl
    refine creationMark_memberLines (fun f hf => ?_) l hl
    exact Definition.creationTime_not_mem_spelled (hf ▸ hm)
  · exact creationMark_tailLines hspace t l hl
  · cases t <;> rfl

/-- A comment and a field that look like the declaration of the creation time: the one stands behind
the mark of documentation, and the other has no brace. -/
theorem creationTime_compile_imitated :
    let text := "# public DateTime Timestamp \x7b\nDateTime Timestamp\nint class".toList
    ∃ file before opening after, (compile {} "M".toList text).file? .csharp = some file
      ∧ Text.lines file.contents = before ++ opening :: creationLine .csharp :: after
      ∧ ∀ l ∈ before ++ opening :: after, (creationMark .csharp).isPrefixOf l = false := by
  obtain ⟨hfile, -⟩ := creationTime_compile .csharp "M".toList
    "# public DateTime Timestamp \x7b\nDateTime Timestamp\nint class".toList
  obtain ⟨file, before, opening, after, hfound, hlines, -, -, -, hmarks⟩ :=
    hfile {} rfl (by decide) (by decide)
  exact ⟨file, before, opening, after, hfound, hlines, hmarks⟩

end Source

end MessageCompiler
