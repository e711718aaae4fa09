import MessageCompiler.Proofs.Text.Words
import MessageCompiler.Source.Basic

/-!
# What generated source keeps of a definition

Generated source is read back line by line. This module holds what the two languages share: which
definitions can be read back (`Definition.Printable`), what is lost on the way
(`Definition.unnumbered`), and the readers for the two kinds of comment line that both languages
have, a line of documentation and the placeholder of a malformed line.
-/

namespace MessageCompiler

/-- The member without the source line of a field, of which generated source says nothing. The
number of a malformed line stays: its placeholder shows it. -/
def Member.unnumbered : Member → Member
  | .field f => .field { f with line := 0 }
  | .invalid line => .invalid line

/-- The definition without the source lines of its fields. -/
def Definition.unnumbered (d : Definition) : Definition :=
  { d with members := d.members.map Member.unnumbered }

/-- A field whose type and name have no blank, and whose documentation is lines. -/
structure Field.Printable (f : Field) : Prop where
  type_solid : Text.IsSolid f.type
  name_solid : Text.IsSolid f.name
  docs_line : ∀ doc ∈ f.docs, '\n' ∉ doc

/-- A definition whose generated source keeps its parts apart: the name has neither a line feed nor
a space, an import has no line feed, and every field is printable. -/
structure Definition.Printable (d : Definition) : Prop where
  name_line : '\n' ∉ d.name
  name_space : ' ' ∉ d.name
  imports_line : ∀ i ∈ d.imports, '\n' ∉ i.name
  fields : ∀ f, .field f ∈ d.members → f.Printable

theorem Definition.mem_fields_iff {d : Definition} {f : Field} : f ∈ d.fields ↔ .field f ∈ d.members := by
  rw [fields, List.mem_filterMap]
  constructor
  · rintro ⟨m, hm, hf⟩
    cases m with
    | field g => rwa [← Option.some.inj hf]
    | invalid line => exact absurd hf (Option.some_ne_none f).symm
  · exact fun h => ⟨_, h, rfl⟩

theorem Definition.mem_docs_iff {d : Definition} {doc : Text} :
    doc ∈ d.fields.flatMap (·.docs) ↔ ∃ f, .field f ∈ d.members ∧ doc ∈ f.docs := by
  simp only [List.mem_flatMap, mem_fields_iff]

namespace Source

/-! ## Documentation -/

/-- The comment on a line of documentation that starts with `mark`. A comment stands after one
space; without a comment the mark stands alone. -/
def doc? (mark line : Text) : Option Text :=
  match line.dropPrefix? mark with
  | some [] => some []
  | some (' ' :: doc) => some doc
  | _ => none

/-- The line of documentation for a comment: both languages differ in the mark only. -/
def docLine (mark doc : Text) : Text := if doc.isEmpty then mark else mark ++ ' ' :: doc

@[simp] theorem doc?_docLine (mark doc : Text) : doc? mark (docLine mark doc) = some doc := by
  have hdrop (rest : Text) : (mark ++ rest).dropPrefix? mark = some rest :=
    List.dropPrefix?_eq_some_iff.2 ⟨mark, rfl, beq_self_eq_true mark⟩
  cases doc with
  | nil =>
    have hmark := hdrop []
    rw [List.append_nil] at hmark
    simp [doc?, docLine, hmark]
  | cons c rest => simp [doc?, docLine, hdrop]

theorem csharp_docLine_eq (doc : Text) : CSharp.docLine doc = docLine "    ///".toList doc := by
  rw [CSharp.docLine, docLine]
  split <;> simp

theorem python_docLine_eq (doc : Text) : Python.docLine doc = docLine "    #:".toList doc := by
  rw [Python.docLine, docLine]
  split <;> simp

theorem mapM_doc?_map_docLine (mark : Text) (docs : List Text) :
    (docs.map (docLine mark)).mapM (doc? mark) = some docs := by
  induction docs with
  | nil => rfl
  | cons doc rest ih => simp [ih]

theorem mem_docLine_iff_of_not_mem {mark : Text} {c : Char} (hmark : c ∉ mark) (hspace : c ≠ ' ')
    {doc : Text} : c ∈ docLine mark doc ↔ c ∈ doc := by
  rw [docLine]
  split
  · next hempty =>
    rw [List.isEmpty_iff.1 hempty]
    exact iff_of_false hmark List.not_mem_nil
  · simp [hmark, hspace]

/-! ## Placeholders -/

theorem placeholder_eq (line : Nat) : placeholder line
    = "Message line ".toList ++ Text.decimal line ++ " is invalid. Skipped.".toList := rfl

/-- The number of the malformed line whose placeholder stands after `mark`. -/
def placeholder? (mark line : Text) : Option Nat :=
  (Text.between? (mark ++ "Message line ".toList) " is invalid. Skipped.".toList line).bind
    Text.decimal?

@[simp] theorem placeholder?_placeholder (mark : Text) (line : Nat) :
    placeholder? mark (mark ++ placeholder line) = some line := by
  have hline : mark ++ placeholder line
      = (mark ++ "Message line ".toList) ++ Text.decimal line
        ++ " is invalid. Skipped.".toList := by
    simp only [placeholder_eq, List.append_assoc]
  rw [placeholder?, hline, Text.between?_append, Option.bind_some, Text.decimal?_decimal]

theorem placeholder?_eq_none {mark line : Text}
    (h : ¬ (mark ++ "Message line ".toList) <+: line) : placeholder? mark line = none := by
  rw [placeholder?, Text.between?_eq_none h]
  rfl

theorem isSolid_decimal (n : Nat) : Text.IsSolid (Text.decimal n) := by
  intro c hc
  have hdigit : c.isDigit = true := Nat.isDigit_of_mem_toDigits (by decide) (by decide) hc
  rw [Char.isDigit, Bool.and_eq_true, decide_eq_true_eq, decide_eq_true_eq] at hdigit
  have hlow : 48 ≤ c.toNat := hdigit.1
  have hhigh : c.toNat ≤ 57 := hdigit.2
  simp only [Text.isBlank, Bool.or_eq_false_iff, Bool.and_eq_false_iff, decide_eq_false_iff_not,
    beq_eq_false_iff_ne]
  omega

theorem isSpaced_placeholder (line : Nat) : Text.IsSpaced (placeholder line) := by
  have hopening : Text.IsSpaced "Message line ".toList := by decide
  have hclosing : Text.IsSpaced " is invalid. Skipped.".toList := by decide
  rw [placeholder_eq]
  exact (hopening.append (isSolid_decimal line).isSpaced).append hclosing

end Source

end MessageCompiler
