import MessageCompiler.Proofs.Source.CSharp
import MessageCompiler.Proofs.Source.Python

/-!
# Generated source is faithful

Two printable definitions have the same source in a language exactly when they agree in what that
language writes down: in C# in all but the source lines of fields, in Python in the name and in the
members, again without those lines. One direction reads the source back; the other holds since no
line of the source depends on anything else.
-/

namespace MessageCompiler.Source

/-! ## What the lines depend on -/

theorem CSharp.memberLines_unnumbered (m : Member) :
    CSharp.memberLines m.unnumbered = CSharp.memberLines m := by
  cases m <;> rfl

theorem Python.memberLines_unnumbered (m : Member) :
    Python.memberLines m.unnumbered = Python.memberLines m := by
  cases m <;> rfl

theorem CSharp.lines_unnumbered (d : Definition) : CSharp.lines d.unnumbered = CSharp.lines d := by
  have hmembers : d.unnumbered.members.flatMap CSharp.memberLines
      = d.members.flatMap CSharp.memberLines := by
    rw [Definition.unnumbered, List.flatMap_map]
    simp only [CSharp.memberLines_unnumbered]
  rw [CSharp.lines, CSharp.lines, hmembers]
  rfl

/-- The Python lines show the name and the members, without the source lines of fields. -/
theorem Python.lines_eq (d : Definition) : Python.lines d
    = Python.headerLines ++ [Python.classLine d.name, Python.creationLine]
      ++ (d.members.map Member.unnumbered).flatMap Python.memberLines := by
  rw [Python.lines, List.flatMap_map]
  simp only [Python.memberLines_unnumbered]

/-! ## Equal sources -/

/-- **Equal sources come from definitions that agree**, and no comment, name or type can make one
definition look like another. -/
theorem render_eq_render_iff {d d' : Definition} (hd : d.Printable) (hd' : d'.Printable) :
    (render .csharp d = render .csharp d' ↔ d.unnumbered = d'.unnumbered)
      ∧ (render .python d = render .python d' ↔
        d.name = d'.name
          ∧ d.members.map Member.unnumbered = d'.members.map Member.unnumbered) := by
  refine ⟨⟨fun h => ?_, fun h => ?_⟩, ⟨fun h => ?_, fun ⟨hname, hmembers⟩ => ?_⟩⟩
  · have hread := CSharp.read?_render hd
    rw [h, CSharp.read?_render hd'] at hread
    exact (Option.some.inj hread).symm
  · show Text.unlines (CSharp.lines d) = Text.unlines (CSharp.lines d')
    rw [← CSharp.lines_unnumbered d, h, CSharp.lines_unnumbered]
  · have hread := Python.read?_render hd
    rw [h, Python.read?_render hd'] at hread
    exact Prod.mk.inj (Option.some.inj hread).symm
  · show Text.unlines (Python.lines d) = Text.unlines (Python.lines d')
    rw [Python.lines_eq, Python.lines_eq, hname, hmembers]

/-- A message of one field, named `#` and without a type, after a malformed line. -/
def hashMessage (docs : List Text) : Definition where
  name := "Hash".toList
  kind := .recordClass
  imports := [.uses "Geo".toList]
  members := [.invalid 3, .field ⟨5, [], "#".toList, docs⟩]

theorem printable_hashMessage {docs : List Text} (h : ∀ doc ∈ docs, '\n' ∉ doc) :
    (hashMessage docs).Printable where
  name_line := by simp [hashMessage]
  name_space := by simp [hashMessage]
  imports_line := by simp [hashMessage, Import.uses]
  fields f hf := by
    have hfield : f = ⟨5, [], "#".toList, docs⟩ := by simpa [hashMessage] using hf
    subst hfield
    exact ⟨by simp [Text.IsSolid], by simp [Text.IsSolid]; decide, h⟩

/-- A comment that looks like the end of the documentation is told from that end. -/
theorem render_hashMessage_ne :
    render .csharp (hashMessage ["</summary>".toList, []])
        ≠ render .csharp (hashMessage ["</summary>".toList])
      ∧ render .python (hashMessage ["</summary>".toList, []])
        ≠ render .python (hashMessage ["</summary>".toList]) := by
  obtain ⟨hcsharp, hpython⟩ := render_eq_render_iff
    (@printable_hashMessage ["</summary>".toList, []] (by simp))
    (@printable_hashMessage ["</summary>".toList] (by simp))
  refine ⟨fun h => ?_, fun h => ?_⟩
  · have := hcsharp.1 h
    simp [hashMessage, Definition.unnumbered, Member.unnumbered] at this
  · have := (hpython.1 h).2
    simp [hashMessage, Member.unnumbered] at this

end MessageCompiler.Source
