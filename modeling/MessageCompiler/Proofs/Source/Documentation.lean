import MessageCompiler.Proofs.Definition.Diagnostics
import MessageCompiler.Proofs.Source.Parts

/-!
# Where the documentation of a field comes from and goes to

Comments wait for the next well-formed field, past whatever stands in between. So the comments of a
text are cut at its well-formed fields: each field has those since the field before, and what comes
after the last field is for no field. Generated source has them right above the field, one to a line.

* **`Definition.documentation_ofText`**: the documentation of each field, told by the lines alone.
* **`Line.documented_append_trailing`**: no comment is lost, doubled or moved.
* **`Source.exists_lines_render`**: where a file has documentation.
* **`Source.documentation_compile`**: from the text to the file.
-/

namespace MessageCompiler

open Text

/-! ## Comments among lines -/

namespace Line

/-- Whether a raw line is a well-formed field. -/
def isFieldLine (raw : Text) : Bool := (Content.ofRaw? raw).any Content.isField

/-- The comments among raw lines, without their markers and the blanks around them. -/
def commentsOf (raws : List Text) : List Text :=
  raws.filterMap fun raw => (comment? (significant raw)).map trim

/-- The raw lines at the end, behind the last well-formed field. -/
def sinceField (raws : List Text) : List Text := raws.rtakeWhile (!isFieldLine ·)

/-- For each well-formed field among raw lines its number and the comments since the field before. -/
def documented (raws : List Text) : List (Nat × List Text) :=
  raws.zipIdx.filterMap fun (raw, k) =>
    if isFieldLine raw then some (k + 1, commentsOf (sinceField (raws.take k))) else none

theorem commentsOf_append (raws raws' : List Text) :
    commentsOf (raws ++ raws') = commentsOf raws ++ commentsOf raws' :=
  List.filterMap_append

theorem commentsOf_singleton (raw : Text) :
    commentsOf [raw] = ((Content.ofRaw? raw).bind Content.comment?).toList := by
  have h := ofRaw?_comment 1 raw
  rw [ofRaw?_eq_map] at h
  have hbind : (((Content.ofRaw? raw).map (mk 1)).bind BodyLine.ofLine?).bind BodyLine.comment?
      = (Content.ofRaw? raw).bind Content.comment? := by
    cases Content.ofRaw? raw with
    | none => rfl
    | some content => exact BodyLine.comment?_ofLine? ⟨1, content⟩
  rw [← hbind, h, commentsOf, List.filterMap_cons]
  cases comment? (significant raw) <;> rfl

theorem sinceField_concat (raws : List Text) (raw : Text) :
    sinceField (raws ++ [raw]) = if isFieldLine raw then [] else sinceField raws ++ [raw] := by
  unfold sinceField
  rw [List.rtakeWhile_concat]
  cases isFieldLine raw <;> simp

theorem commentsOf_eq_nil {raw : Text} (h : isFieldLine raw = true) : commentsOf [raw] = [] := by
  rw [commentsOf_singleton]
  unfold isFieldLine at h
  cases hcontent : Content.ofRaw? raw with
  | none => rfl
  | some content =>
    cases content with
    | field type name => rfl
    | comment text => simp [hcontent, Content.isField] at h
    | directive d => rfl
    | malformed => rfl

theorem documented_concat (raws : List Text) (raw : Text) :
    documented (raws ++ [raw]) = documented raws
      ++ if isFieldLine raw then [(raws.length + 1, commentsOf (sinceField raws))] else [] := by
  unfold documented
  rw [List.zipIdx_append, List.filterMap_append]
  congr 1
  · apply List.filterMap_congr
    rintro ⟨r, k⟩ h
    have hk : k ≤ raws.length := by
      have := List.mem_zipIdx h
      omega
    simp [List.take_append_of_le_length hk]
  · cases h : isFieldLine raw <;> simp [h]

/-- **The comments of the fields and those behind the last field are all comments.** -/
theorem documented_append_trailing (raws : List Text) :
    (documented raws).flatMap Prod.snd ++ commentsOf (sinceField raws) = commentsOf raws := by
  induction raws using List.reverseRecOn with
  | nil => rfl
  | append_singleton raws raw ih =>
    rw [documented_concat, sinceField_concat, commentsOf_append raws, ← ih]
    split
    · next h =>
      rw [commentsOf_eq_nil h]
      simp [commentsOf]
    · simp [commentsOf_append]

end Line

/-- The fields among members, each with its line and its documentation. -/
def Member.documentation (ms : List Member) : List (Nat × List Text) :=
  (ms.filterMap Member.field?).map fun f => (f.line, f.docs)

namespace Body

theorem documentation_made_line (number : Nat) (raw : Text) (docs : List Text)
    (body : List BodyLine) :
    Member.documentation
        (made docs ((Line.ofRaw? number raw).toList.filterMap BodyLine.ofLine? ++ body))
      = (if Line.isFieldLine raw then [(number, docs)] else []) ++ Member.documentation
        (made (if Line.isFieldLine raw then [] else docs ++ Line.commentsOf [raw]) body) := by
  rw [Line.ofRaw?_eq_map, Line.commentsOf_singleton]
  unfold Line.isFieldLine
  cases Content.ofRaw? raw with
  | none => simp
  | some content =>
    cases content with
    | comment text => rfl
    | directive d => simp [List.filterMap_cons, BodyLine.ofLine?, Content.isField, Content.comment?]
    | malformed =>
      simp [List.filterMap_cons, BodyLine.ofLine?, Content.isField, Content.comment?,
        Member.documentation, Member.field?]
    | field type name =>
      simp only [Option.map_some, Option.toList_some, Option.any_some, BodyLine.ofLine?,
        List.filterMap_cons, List.filterMap_nil, List.cons_append, List.nil_append]
      rw [ofField_eq]
      -- a field without a name for its type is malformed, and the comments stay for the next field
      by_cases hdot : type.getLast? = some '.'
      · simp [List.filterMap_cons, hdot, Content.isField, Content.comment?, Member.documentation,
          Member.field?]
      · simp [hdot, Content.isField, Member.documentation, Member.field?]

/-- **Fields are documented with the comments since the field before.** Induction on the lines that
are still to come; the comments that wait are those since the last field of the lines before. -/
theorem documentation_made (before raws : List Text) :
    Line.documented before ++ Member.documentation
        (made (Line.commentsOf (Line.sinceField before))
          ((Line.scanFrom (before.length + 1) raws).filterMap BodyLine.ofLine?))
      = Line.documented (before ++ raws) := by
  induction raws generalizing before with
  | nil => simp [Line.scanFrom, Member.documentation]
  | cons raw rest ih =>
    have hrest := ih (before ++ [raw])
    rw [List.append_assoc, List.singleton_append] at hrest
    rw [← hrest, Line.documented_concat, Line.sinceField_concat, Line.scanFrom,
      List.filterMap_append, documentation_made_line, List.length_append, List.append_assoc]
    split
    · rfl
    · rw [Line.commentsOf_append]
      rfl

end Body

namespace Definition

theorem documentation_ofText (name text : Text) :
    (ofText name text).1.fields.map (fun f => (f.line, f.docs)) = Line.documented (lines text) := by
  have h := Body.documentation_made [] (lines text)
  rw [fields, members_ofText]
  exact h

end Definition

/-! ## Where documentation is printed -/

namespace Source

/-- Lines that do not end in a line of documentation. -/
def Closed (t : Target) (ls : List Text) : Prop :=
  ∃ l, ls.getLast? = some l ∧ (docMark t).isPrefixOf l = false

/-- The fields with their documentation right above them, and with the given lines before each. -/
def documentedFields (t : Target) (gaps : List (List Text)) (fs : List Field) : List Text :=
  (gaps.zipWith (fun gap f => gap ++ (docBlock t f.docs ++ [fieldLine t f])) fs).flatten

/-- **Members print fields with their documentation right above them.** Induction on the members;
`before` are the lines since the last field. -/
theorem exists_documentedFields (t : Target) (ms : List Member) {before : List Text}
    (hbefore : Closed t (before ++ lead t)) : ∃ gaps rest,
      before ++ ms.flatMap (memberLines t)
          = documentedFields t gaps (ms.filterMap Member.field?) ++ rest
        ∧ gaps.length = (ms.filterMap Member.field?).length
        ∧ (∀ gap ∈ gaps, Closed t gap)
        ∧ ((∀ l ∈ before, (docMark t).isPrefixOf l = false) →
          ∀ l ∈ gaps.flatten ++ rest, (docMark t).isPrefixOf l = false) := by
  have hempty : (docMark t).isPrefixOf [] = false := by cases t <;> rfl
  have hlead : ∀ l ∈ lead t, (docMark t).isPrefixOf l = false := fun l hl => by
    rwa [eq_nil_of_mem_lead hl]
  have htrail : ∀ l ∈ trail t, (docMark t).isPrefixOf l = false := fun l hl => by
    rwa [eq_nil_of_mem_trail hl]
  induction ms generalizing before with
  | nil => exact ⟨[], before, by simp [documentedFields], rfl, by simp, by simp⟩
  | cons m ms ih =>
    cases m with
    | field f =>
      have hnext : Closed t (trail t ++ lead t) := by
        rw [trail_append_lead]
        exact ⟨[], rfl, hempty⟩
      obtain ⟨gaps, rest, hlines, hlength, hclosed, hmarks⟩ := ih hnext
      refine ⟨(before ++ lead t) :: gaps, rest, ?_, congrArg (· + 1) hlength, ?_, fun h l hl => ?_⟩
      · show _ = (before ++ lead t ++ (docBlock t f.docs ++ [fieldLine t f])
          ++ documentedFields t gaps (ms.filterMap Member.field?)) ++ rest
        rw [List.append_assoc, ← hlines, List.flatMap_cons, memberLines_field]
        simp only [List.append_assoc]
      · simpa using ⟨hbefore, hclosed⟩
      · rw [List.flatten_cons, List.append_assoc, List.append_assoc] at hl
        rcases List.mem_append.1 hl with hl | hl
        · exact h l hl
        rcases List.mem_append.1 hl with hl | hl
        · exact hlead l hl
        · exact hmarks htrail l hl
    | invalid number =>
      -- a placeholder is no line of documentation, so it goes to the lines before the next field
      have hmark : (docMark t).isPrefixOf (placeholderLine t number) = false := by cases t <;> rfl
      have hclosed : Closed t (before ++ memberLines t (.invalid number) ++ lead t) := by
        rw [memberLines_invalid]
        cases t with
        | csharp => exact ⟨_, by simp [lead], hmark⟩
        | python => exact ⟨[], by simp [lead], hempty⟩
      obtain ⟨gaps, rest, hlines, hlength, hgaps, hmarks⟩ := ih hclosed
      refine ⟨gaps, rest, ?_, hlength, hgaps, fun h => hmarks fun l hl => ?_⟩
      · rwa [List.flatMap_cons, ← List.append_assoc]
      · rw [memberLines_invalid] at hl
        rcases List.mem_append.1 hl with hl | hl
        · exact h l hl
        rcases List.mem_append.1 hl with hl | hl
        · exact hlead l hl
        · rwa [List.mem_singleton.1 hl]

theorem closed_headLines (t : Target) (d : Definition) :
    Closed t ((headLines t d).flatMap Text.lines ++ lead t) := by
  have hend : (trail t).flatMap Text.lines ++ lead t = [[]] := by cases t <;> rfl
  have hlines : (headLines t d).flatMap Text.lines ++ lead t
      = (preamble t d ++ [opening t d, creationLine t]).flatMap Text.lines ++ [[]] := by
    rw [← hend]
    simp [headLines]
  rw [hlines]
  exact ⟨[], List.getLast?_concat, by cases t <;> rfl⟩

theorem unmarked_headLines (t : Target) (d : Definition) :
    ∀ l ∈ headLines t d, (docMark t).isPrefixOf l = false := by
  intro l hl
  have hmark : (docMark t).head? = some ' ' := by cases t <;> rfl
  by_cases hcreation : l = creationLine t
  · rw [hcreation]
    cases t <;> decide
  · have hmem : l ∈ preamble t d ++ opening t d :: trail t := by
      simpa [headLines, hcreation] using hl
    exact isPrefixOf_preamble hmem hmark

theorem unmarked_tailLines (t : Target) (d : Definition) :
    ∀ l ∈ tailLines t d, (docMark t).isPrefixOf l = false := by
  intro l hl
  cases t with
  | csharp => rcases List.mem_pair.1 hl with rfl | rfl <;> rfl
  | python => simp [tailLines] at hl

/-- **The lines of a file are its fields with their documentation**, what stands before each, and what
comes after the last. -/
theorem exists_lines_render {d : Definition} (hd : ∀ f, .field f ∈ d.members → f.Printable)
    (t : Target) : ∃ gaps rest,
      Text.lines (render t d) = documentedFields t gaps d.fields ++ rest
        ∧ gaps.length = d.fields.length
        ∧ (∀ gap ∈ gaps, Closed t gap)
        ∧ ((∀ l ∈ lines t d, '\n' ∉ l) →
          ∀ l ∈ gaps.flatten ++ rest, (docMark t).isPrefixOf l = false) := by
  obtain ⟨gaps, rest, hmembers, hlength, hgaps, hmarks⟩ :=
    exists_documentedFields t d.members (closed_headLines t d)
  refine ⟨gaps, rest ++ ((tailLines t d).flatMap Text.lines ++ [[]]), ?_, hlength, hgaps,
    fun hlf => ?_⟩
  · rw [lines_render hd, ← List.append_assoc, hmembers, List.append_assoc]
    rfl
  -- without line feeds inside, the lines around the members are lines of the file as well
  · rw [lines_eq] at hlf
    have hhead : (headLines t d).flatMap Text.lines = headLines t d :=
      flatMap_lines_eq_self fun l hl => hlf l (List.mem_append_left _ (List.mem_append_left _ hl))
    have htail : (tailLines t d).flatMap Text.lines = tailLines t d :=
      flatMap_lines_eq_self fun l hl => hlf l (List.mem_append_right _ hl)
    rw [hhead] at hmarks
    rw [htail]
    intro l hl
    rw [← List.append_assoc] at hl
    rcases List.mem_append.1 hl with hl | hl
    · exact hmarks (unmarked_headLines t d) l hl
    rcases List.mem_append.1 hl with hl | hl
    · exact unmarked_tailLines t d l hl
    · rw [List.mem_singleton.1 hl]
      cases t <;> rfl

/-- **Documentation is conserved.** Each field is documented with the comments since the field
before, whatever else stands in between; with those that no field follows these are all comments of
the text. In a generated file the fields stand in order, each with its documentation right above it
and its comments on one line each. Right before that stands a line of another sort, and if the name
of the message is one line there is no other line of documentation in the file. -/
theorem documentation_compile {config : Config} {t : Target} (ht : config.targets.isEnabled t)
    (name text : Text) :
    let d := (Definition.ofText name text).1
    d.fields.map (fun f => (f.line, f.docs)) = Line.documented (Text.lines text)
      ∧ d.fields.flatMap (·.docs) ++ Line.commentsOf (Line.sinceField (Text.lines text))
        = Line.comments text
      ∧ ∃ file gaps rest, (compile config name text).file? t = some file
        ∧ Text.lines file.contents
          = documentedFields t gaps (d.fields.map (Field.spelled t)) ++ rest
        ∧ gaps.length = d.fields.length
        ∧ (∀ gap ∈ gaps, Closed t gap)
        ∧ ('\n' ∉ name → ∀ l ∈ gaps.flatten ++ rest, (docMark t).isPrefixOf l = false) := by
  intro d
  have hdocs := Definition.documentation_ofText name text
  have hflat : d.fields.flatMap (·.docs)
      = (Line.documented (Text.lines text)).flatMap Prod.snd := by
    rw [← hdocs, List.flatMap_map]
  have hprintable : ∀ f, .field f ∈ (d.spelled t).members → f.Printable := fun _ =>
    Definition.printable_of_mem_spelled_ofText
  obtain ⟨gaps, rest, hlines, hlength, hgaps, hmarks⟩ := exists_lines_render hprintable t
  rw [Definition.fields_spelled] at hlines hlength
  refine ⟨hdocs, ?_, _, gaps, rest, Compiled.file?_compile ht name text, hlines,
    by simpa using hlength, hgaps, fun hname => hmarks (lf_not_mem_lines_ofText hname t text)⟩
  rw [hflat, Line.documented_append_trailing]
  rfl

/-- Two comments reach `x`, past an empty line, a lone word and a directive; the other two reach no
field, since a type that ends in a dot makes none. -/
theorem documentation_compile_gaps :
    let config : Config := { targets := { python := true } }
    let text := "# a\n\nlone ;\nusing A\n//b \r\nint x\n#\nGeo. y\n// c".toList
    (Definition.ofText "M".toList text).1.fields.map (fun f => (f.line, f.docs))
        = [(6, ["a".toList, "b".toList])]
      ∧ Line.commentsOf (Line.sinceField (Text.lines text)) = [[], "c".toList]
      ∧ ∃ file, (compile config "M".toList text).file? .python = some file
        ∧ ["    #: a".toList, "    #: b".toList, "    x: int = 0".toList]
          <:+: Text.lines file.contents := by
  obtain ⟨hdocs, -, file, gaps, rest, hfile, hlines, hlength, -, -⟩ :=
    @documentation_compile { targets := { python := true } } .python rfl "M".toList
      "# a\n\nlone ;\nusing A\n//b \r\nint x\n#\nGeo. y\n// c".toList
  have hfields : (Definition.ofText "M".toList
      "# a\n\nlone ;\nusing A\n//b \r\nint x\n#\nGeo. y\n// c".toList).1.fields
      = [⟨6, "int".toList, "x".toList, ["a".toList, "b".toList]⟩] := by decide
  refine ⟨hdocs.trans (by decide), by decide, file, hfile, ?_⟩
  rw [hfields] at hlines hlength
  obtain ⟨gap, rfl⟩ := List.length_eq_one_iff.1 hlength
  refine ⟨gap, rest, hlines ▸ ?_⟩
  simp only [documentedFields, List.map_cons, List.map_nil, List.zipWith_cons_cons,
    List.zipWith_nil_right, List.flatten_cons, List.flatten_nil, List.append_nil, List.append_assoc]
  rfl

end Source

end MessageCompiler
