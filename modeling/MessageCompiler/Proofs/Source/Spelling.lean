import MessageCompiler.Proofs.Source.Declared
import Mathlib.Data.List.Nodup

/-!
# The names and types of fields in a target

A target gives a field another name if it keeps the name for itself, and every field a type without
the qualifier and the path in front of it. Neither looks at the other fields or at what is left of
the type. So two fields may end up with one name, if one of them has the other's new name already,
and a field may end up without a type, if nothing comes after the path.

* **`Target.fieldName_eq_fieldName_iff`**: which names become one in a target.
* **`Definition.nodup_names_spelled_iff`**: when the fields of a definition keep different names.
* **`Target.typeName_spec`**: what a type comes to, and which types come to nothing.
* **`Definition.types_spelled`**: types and names of the fields that come of a text.
-/

namespace MessageCompiler

open Text

namespace Target

/-! ## Names that a target changes -/

/-- Whether a target gives a field of this name another one. -/
def renames (t : Target) (name : Text) : Bool := t.hidesCreationTime name || t.isReserved name

/-- No name that a target keeps for itself looks like one that it gives. -/
theorem reserved_plain (t : Target) : ∀ word ∈ t.creationTime :: t.reserved,
    word.head? ≠ some '@' ∧ word.getLast? ≠ some '_' := by
  cases t <;> decide

theorem renames_iff {t : Target} {name : Text} :
    t.renames name = true ↔ name ∈ t.creationTime :: t.reserved := by
  simp [renames, hidesCreationTime, isReserved]

theorem renames_eq_false {t : Target} {name : Text}
    (h : name.head? = some '@' ∨ name.getLast? = some '_') : t.renames name = false := by
  by_contra hname
  have hplain := reserved_plain t name (renames_iff.1 (by simpa using hname))
  rcases h with h | h
  · exact hplain.1 h
  · exact hplain.2 h

theorem fieldName_of_renames_eq_false {t : Target} {name : Text} (h : t.renames name = false) :
    t.fieldName name = name := by
  obtain ⟨hhides, hreserved⟩ := Bool.or_eq_false_iff.1 h
  simp [fieldName, hhides, hreserved]

/-- A name that is changed gets an underscore, or it is marked as verbatim in C#. -/
theorem fieldName_of_renames {t : Target} {name : Text} (h : t.renames name = true) :
    t.fieldName name
      = if t = .csharp ∧ t.hidesCreationTime name = false then '@' :: name else name ++ ['_'] := by
  unfold fieldName
  unfold renames at h
  cases hhides : t.hidesCreationTime name with
  | true => simp
  | false =>
    have hreserved : t.isReserved name = true := by simpa [hhides] using h
    cases t <;> simp [hreserved]

theorem isWord_fieldName {name : Text} (h : IsWord name) (t : Target) :
    IsWord (t.fieldName name) := by
  refine ⟨?_, isSolid_fieldName h.solid t⟩
  cases hrenames : t.renames name with
  | false =>
    rw [fieldName_of_renames_eq_false hrenames]
    exact h.ne_nil
  | true =>
    rw [fieldName_of_renames hrenames]
    split <;> simp

/-- **A name that a target gives is one that it leaves as it is.** -/
theorem renames_fieldName (t : Target) (name : Text) : t.renames (t.fieldName name) = false := by
  cases h : t.renames name with
  | false => rw [fieldName_of_renames_eq_false h, h]
  | true =>
    rw [fieldName_of_renames h]
    split
    · exact renames_eq_false (.inl rfl)
    · exact renames_eq_false (.inr (by simp))

theorem eq_of_fieldName_eq {t : Target} {a b : Text} (ha : t.renames a = true)
    (hb : t.renames b = true) (h : t.fieldName a = t.fieldName b) : a = b := by
  -- the new name of the creation time in C# does not begin as those of the reserved words do
  have hfirst (c : Text) (hc : Target.csharp.hidesCreationTime c = true) :
      (c ++ ['_']).head? ≠ some '@' := by
    rw [eq_of_beq hc]
    decide
  rw [fieldName_of_renames ha, fieldName_of_renames hb] at h
  split at h
  · next hverbatim =>
    obtain ⟨rfl, -⟩ := hverbatim
    split at h
    · exact List.tail_eq_of_cons_eq h
    · next hhides =>
      exact absurd (congrArg List.head? h).symm (hfirst b (by simpa using hhides))
  · next hhides =>
    split at h
    · next hverbatim =>
      obtain ⟨rfl, -⟩ := hverbatim
      exact absurd (congrArg List.head? h) (hfirst a (by simpa using hhides))
    · exact List.append_cancel_right h

/-- The names that a target changes, each with its new name: the creation time and, in Python, a
reserved word get an underscore, and a reserved word in C# is marked as verbatim. -/
def escapes : Target → List (Text × Text)
  | .csharp =>
    ("Timestamp".toList, "Timestamp_".toList) :: csharp.reserved.map fun word => (word, '@' :: word)
  | .python => ("timestamp".toList :: python.reserved).map fun word => (word, word ++ ['_'])

theorem mem_escapes_csharp_iff {a b : Text} : (a, b) ∈ csharp.escapes
    ↔ a = csharp.creationTime ∧ b = a ++ ['_'] ∨ a ∈ csharp.reserved ∧ b = '@' :: a := by
  simp only [escapes, List.mem_cons, List.mem_map, Prod.mk.injEq]
  constructor
  · rintro (⟨rfl, rfl⟩ | ⟨word, hword, rfl, rfl⟩)
    · exact .inl ⟨rfl, rfl⟩
    · exact .inr ⟨hword, rfl⟩
  · rintro (⟨rfl, rfl⟩ | ⟨ha, rfl⟩)
    · exact .inl ⟨rfl, rfl⟩
    · exact .inr ⟨a, ha, rfl, rfl⟩

theorem mem_escapes_python_iff {a b : Text} : (a, b) ∈ python.escapes
    ↔ a ∈ python.creationTime :: python.reserved ∧ b = a ++ ['_'] := by
  simp only [escapes, List.mem_map, Prod.mk.injEq]
  constructor
  · rintro ⟨word, hword, rfl, rfl⟩
    exact ⟨hword, rfl⟩
  · rintro ⟨ha, rfl⟩
    exact ⟨a, ha, rfl, rfl⟩

theorem mem_escapes_iff {t : Target} {a b : Text} :
    (a, b) ∈ t.escapes ↔ t.renames a = true ∧ b = t.fieldName a := by
  cases t with
  | csharp =>
    have hkept : csharp.creationTime ∉ csharp.reserved := by decide
    rw [mem_escapes_csharp_iff, renames_iff, List.mem_cons, or_and_right]
    refine or_congr (and_congr_right fun ha => ?_) (and_congr_right fun ha => ?_)
    · rw [fieldName_of_renames (renames_iff.2 (List.mem_cons.2 (.inl ha))), ha,
        if_neg (by simp [hidesCreationTime])]
    · have hne : a ≠ csharp.creationTime := fun h => hkept (h ▸ ha)
      rw [fieldName_of_renames (renames_iff.2 (List.mem_cons_of_mem _ ha)),
        if_pos ⟨rfl, beq_false_of_ne hne⟩]
  | python =>
    rw [mem_escapes_python_iff, renames_iff]
    refine and_congr_right fun ha => ?_
    rw [fieldName_of_renames (renames_iff.2 ha), if_neg (by simp)]

/-- **Two names become one exactly if they are one, or one is the new name of the other.** -/
theorem fieldName_eq_fieldName_iff {t : Target} {a b : Text} :
    t.fieldName a = t.fieldName b ↔ a = b ∨ (a, b) ∈ t.escapes ∨ (b, a) ∈ t.escapes := by
  rw [mem_escapes_iff, mem_escapes_iff]
  constructor
  · intro h
    cases ha : t.renames a with
    | true =>
      cases hb : t.renames b with
      | true => exact .inl (eq_of_fieldName_eq ha hb h)
      | false =>
        rw [fieldName_of_renames_eq_false hb] at h
        exact .inr (.inl ⟨rfl, h.symm⟩)
    | false =>
      rw [fieldName_of_renames_eq_false ha] at h
      cases hb : t.renames b with
      | true => exact .inr (.inr ⟨rfl, h⟩)
      | false =>
        rw [fieldName_of_renames_eq_false hb] at h
        exact .inl h
  · rintro (rfl | ⟨-, rfl⟩ | ⟨-, rfl⟩)
    · rfl
    · rw [fieldName_of_renames_eq_false (renames_fieldName t a)]
    · rw [fieldName_of_renames_eq_false (renames_fieldName t b)]

end Target

namespace Definition

/-- **The fields of a definition keep different names in a target** exactly if none of them has the
new name that the target gives to another one. -/
theorem nodup_names_spelled_iff (t : Target) {d : Definition}
    (hnames : (d.fields.map (·.name)).Nodup) :
    ((d.spelled t).fields.map (·.name)).Nodup
      ↔ ∀ f ∈ d.fields, ∀ g ∈ d.fields, (f.name, g.name) ∉ t.escapes := by
  have hspelled : (d.spelled t).fields.map (·.name) = (d.fields.map (·.name)).map t.fieldName := by
    rw [fields_spelled, List.map_map, List.map_map]
    rfl
  rw [hspelled, List.nodup_map_iff_inj_on hnames]
  simp only [List.mem_map, forall_exists_index, and_imp, forall_apply_eq_imp_iff₂]
  constructor
  · intro hkept f hf g hg hescape
    have heq : f.name = g.name :=
      hkept f hf g hg (Target.fieldName_eq_fieldName_iff.2 (.inr (.inl hescape)))
    -- a new name is not changed again, so it is not the name that it is given for
    obtain ⟨hrenames, hnew⟩ := Target.mem_escapes_iff.1 hescape
    rw [heq, hnew, Target.renames_fieldName] at hrenames
    cases hrenames
  · intro hclear f hf g hg h
    rcases Target.fieldName_eq_fieldName_iff.1 h with heq | hescape | hescape
    · exact heq
    · exact absurd hescape (hclear f hf g hg)
    · exact absurd hescape (hclear g hg f hf)

/-- Names that Python changes and names that look like new ones: all of these stay apart. -/
theorem nodup_names_spelled_python :
    let d := (Definition.ofText "M".toList "int class\nint from_\nint timestamp\nint @in".toList).1
    ((d.spelled .python).fields.map (·.name)).Nodup :=
  (nodup_names_spelled_iff .python (by decide +kernel)).2 (by decide +kernel)

/-- **Fields with different names may come to have one**: a reserved word in Python, one in C#, and
the creation time, each beside the name that it is given. -/
theorem not_nodup_names_spelled :
    let word := (Definition.ofText "M".toList "int class\nint class_".toList).1
    let verbatim := (Definition.ofText "M".toList "int class\nint @class".toList).1
    let time := (Definition.ofText "M".toList "int Timestamp\nint Timestamp_".toList).1
    (word.fields.map (·.name)).Nodup ∧ (verbatim.fields.map (·.name)).Nodup
      ∧ (time.fields.map (·.name)).Nodup
      ∧ ¬ ((word.spelled .python).fields.map (·.name)).Nodup
      ∧ ¬ ((verbatim.spelled .csharp).fields.map (·.name)).Nodup
      ∧ ¬ ((time.spelled .csharp).fields.map (·.name)).Nodup := by
  decide +kernel

end Definition

/-! ## Types that come to nothing -/

/-- The text has no blank, no dot and no slash. -/
def IsSimple (t : Text) : Prop := ∀ c ∈ t, isBlank c = false ∧ c ≠ '.' ∧ c ≠ '/'

-- the characters of the text are looked at, not all characters there are
instance : DecidablePred IsSimple := fun t =>
  List.decidableBAll (fun c => isBlank c = false ∧ c ≠ '.' ∧ c ≠ '/') t

namespace Target

theorem withoutPath_spec (type : Text) : '/' ∉ withoutPath type ∧ withoutPath type <:+ type
    ∧ (withoutPath type = [] ↔ type = [] ∨ type.getLast? = some '/') := by
  unfold withoutPath
  by_cases hslash : '/' ∈ type
  · obtain ⟨path, last, rfl, hlast⟩ := exists_eq_append_cons_of_mem hslash
    rw [splitLast_append_cons hlast]
    refine ⟨hlast, ⟨path ++ ['/'], by simp⟩, ?_⟩
    cases last using List.reverseRecOn with
    | nil => simp
    | append_singleton last c =>
      have hc : c ≠ '/' := fun h => hlast (h ▸ List.mem_append_right _ List.mem_cons_self)
      simp [List.getLast?_append, List.getLast?_cons, hc]
  · rw [splitLast_eq_none hslash]
    refine ⟨hslash, List.suffix_rfl, ?_⟩
    have hlast : type.getLast? ≠ some '/' := fun h => hslash (List.mem_of_getLast? h)
    simp [hlast]

/-- Well-known types do not end in a slash, and neither table gives a name that would have to be
looked at again. -/
theorem csharpType?_spec {type spelled : Text} (h : csharpType? type = some spelled) :
    type.getLast? ≠ some '/' ∧ spelled ≠ [] ∧ IsSimple spelled :=
  of_findSome? (P := fun type spelled => type.getLast? ≠ some '/' ∧ spelled ≠ []
    ∧ IsSimple spelled) (by decide) h

theorem pythonType?_spec {type spelled : Text} (h : pythonType? type = some spelled) :
    type ≠ [] ∧ spelled ≠ [] ∧ IsSimple spelled :=
  of_findSome? (P := fun type spelled => type ≠ [] ∧ spelled ≠ [] ∧ IsSimple spelled)
    (by decide) h

/-- **A type of one word without dots is spelled simply, and comes to nothing exactly if it ends in
a slash.** -/
theorem typeName_spec {type : Text} (htype : IsWord type) (hdot : '.' ∉ type) (t : Target) :
    IsSimple (t.typeName type) ∧ (t.typeName type = [] ↔ type.getLast? = some '/') := by
  have hbase : IsSimple (csharp.typeName type)
      ∧ (csharp.typeName type = [] ↔ type.getLast? = some '/') := by
    show IsSimple (withoutPath ((csharpType? type).getD type)) ∧ (withoutPath _ = [] ↔ _)
    cases hknown : csharpType? type with
    | some spelled =>
      -- what a well-known type is called has no path in front, so nothing is cut off
      obtain ⟨hlast, hne, hsimple⟩ := csharpType?_spec hknown
      have hslash : '/' ∉ spelled := fun h => (hsimple _ h).2.2 rfl
      rw [Option.getD_some, withoutPath, splitLast_eq_none hslash]
      exact ⟨hsimple, by simp [hne, hlast]⟩
    | none =>
      obtain ⟨hslash, hsuffix, hnil⟩ := withoutPath_spec type
      refine ⟨fun c hc => ?_, ?_⟩
      · exact ⟨htype.solid c (hsuffix.mem hc), fun h => hdot (h ▸ hsuffix.mem hc),
          fun h => hslash (h ▸ hc)⟩
      · rw [Option.getD_none, hnil]
        simp [htype.ne_nil]
  cases t with
  | csharp => exact hbase
  | python =>
    show IsSimple ((pythonType? (csharp.typeName type)).getD (csharp.typeName type))
      ∧ ((pythonType? (csharp.typeName type)).getD (csharp.typeName type) = [] ↔ _)
    cases hknown : pythonType? (csharp.typeName type) with
    | none => exact hbase
    | some spelled =>
      obtain ⟨hne, hspelled, hsimple⟩ := pythonType?_spec hknown
      refine ⟨hsimple, ?_⟩
      rw [← hbase.2]
      simp [hne, hspelled]

end Target

theorem Body.dot_not_mem_ofField {type name type' name' : Text}
    (h : Body.ofField type name = .field type' name') : '.' ∉ type' := by
  rw [Body.ofField_eq] at h
  split at h
  · exact Body.noConfusion h
  · obtain ⟨rfl, -⟩ := Body.field.inj h
    exact fun hdot => by simpa using List.mem_rtakeWhile_imp hdot

theorem BodyLine.body_of_declaration? {line : BodyLine} {type name : Text}
    (h : line.declaration? = some (.field type name)) : line.body = .field type name := by
  obtain ⟨number, body⟩ := line
  cases body with
  | comment doc => exact absurd h (Option.some_ne_none _).symm
  | field type' name' =>
    obtain ⟨rfl, rfl⟩ := Declaration.field.inj (Option.some.inj h)
    rfl
  | malformed => exact Declaration.noConfusion (Option.some.inj h)

namespace Definition

theorem field_mem_declarations_iff {d : Definition} {type name : Text} :
    .field type name ∈ d.members.map Member.declaration
      ↔ ∃ f ∈ d.fields, f.type = type ∧ f.name = name := by
  rw [List.mem_map]
  constructor
  · rintro ⟨m, hm, hdeclared⟩
    cases m with
    | field f =>
      obtain ⟨rfl, rfl⟩ := Declaration.field.inj hdeclared
      exact ⟨f, mem_fields_iff.2 hm, rfl, rfl⟩
    | invalid line => exact Declaration.noConfusion hdeclared
  · rintro ⟨f, hf, rfl, rfl⟩
    exact ⟨_, mem_fields_iff.1 hf, rfl⟩

/-- **The type of a field has no dot**: its qualifier is gone. -/
theorem dot_not_mem_type {name text : Text} {f : Field} (h : f ∈ (ofText name text).1.fields) :
    '.' ∉ f.type := by
  have hdeclared : Declaration.field f.type f.name
      ∈ (ofText name text).1.members.map Member.declaration :=
    field_mem_declarations_iff.2 ⟨f, h, rfl, rfl⟩
  rw [map_declaration_ofText] at hdeclared
  obtain ⟨⟨number, content⟩, -, hline⟩ := List.mem_filterMap.1 hdeclared
  obtain ⟨kept, hkept, hbody⟩ := Option.bind_eq_some_iff.1 hline
  have hfield : kept.body = .field f.type f.name := BodyLine.body_of_declaration? hbody
  cases content with
  | directive d => exact absurd hkept (Option.some_ne_none kept).symm
  | comment doc => cases Option.some.inj hkept; exact Body.noConfusion hfield
  | malformed => cases Option.some.inj hkept; exact Body.noConfusion hfield
  | field type fieldName => cases Option.some.inj hkept; exact Body.dot_not_mem_ofField hfield

/-- **What the fields of a text become**: simple types and names that are words, and a type comes to
nothing exactly if it ends in a slash. Only then is there a field without a type in the source. -/
theorem types_spelled (name text : Text) (t : Target) :
    let d := (ofText name text).1
    (d.spelled t).fields = d.fields.map (Field.spelled t)
      ∧ (∀ f ∈ d.fields, IsSimple (f.spelled t).type ∧ IsWord (f.spelled t).name
        ∧ ((f.spelled t).type = [] ↔ f.type.getLast? = some '/'))
      ∧ ∀ config : Config, config.targets.isEnabled t → '\n' ∉ name → ' ' ∉ name →
        ∃ file ds, (compile config name text).file? t = some file
          ∧ Source.declarations? t file.contents = some ds
          ∧ ((∃ field, .field [] field ∈ ds) ↔ ∃ f ∈ d.fields, f.type.getLast? = some '/') := by
  intro d
  have hfields (f : Field) (hf : f ∈ d.fields) : IsSimple (f.spelled t).type
      ∧ IsWord (f.spelled t).name ∧ ((f.spelled t).type = [] ↔ f.type.getLast? = some '/') := by
    obtain ⟨htype, hname, -⟩ := field_of_mem_ofText (mem_fields_iff.1 hf)
    obtain ⟨hsimple, hnil⟩ := Target.typeName_spec htype (dot_not_mem_type hf) t
    exact ⟨hsimple, Target.isWord_fieldName hname t, hnil⟩
  refine ⟨fields_spelled t d, hfields, fun config ht hline hspace => ?_⟩
  refine ⟨_, _, Compiled.file?_compile ht name text,
    Source.declarations?_render (printable_spelled_ofText hline hspace t text) t, ?_⟩
  simp only [field_mem_declarations_iff, fields_spelled]
  constructor
  · rintro ⟨-, f, hf, htype, -⟩
    obtain ⟨g, hg, rfl⟩ := List.mem_map.1 hf
    exact ⟨g, hg, (hfields g hg).2.2.1 htype⟩
  · rintro ⟨f, hf, hlast⟩
    exact ⟨_, _, List.mem_map_of_mem hf, (hfields f hf).2.2.2 hlast, rfl⟩

/-- Two fields end up without a type: one of a path alone, one of a qualifier and a path. -/
theorem types_spelled_slashes :
    let config : Config := { targets := { csharp := true, python := true } }
    let text := "std_msgs/ x\nGeo.a/b/ y ;\ngeometry_msgs/Pose class\n.".toList
    ∃ file ds, (compile config "M".toList text).file? .python = some file
      ∧ Source.declarations? .python file.contents = some ds
      ∧ ∃ field, .field [] field ∈ ds := by
  obtain ⟨-, -, hfile⟩ := types_spelled "M".toList
    "std_msgs/ x\nGeo.a/b/ y ;\ngeometry_msgs/Pose class\n.".toList .python
  obtain ⟨file, ds, hfound, hdeclared, hmissing⟩ :=
    hfile { targets := { csharp := true, python := true } } rfl (by decide) (by decide)
  exact ⟨file, ds, hfound, hdeclared, hmissing.2 (by decide +kernel)⟩

/-- **A path with nothing after it leaves a field without a type**, and this is reported nowhere. -/
theorem typeless_field :
    let config : Config := { targets := { csharp := true, python := true } }
    let d := (Definition.ofText "M".toList "a/ x".toList).1
    d.members = [.field ⟨1, "a/".toList, "x".toList, []⟩]
      ∧ (∀ t, (d.spelled t).fields.map (·.type) = [[]])
      ∧ "    public  x;".toList ∈ Source.lines .csharp (d.spelled .csharp)
      ∧ "    x: Optional[] = None".toList ∈ Source.lines .python (d.spelled .python)
      ∧ (compile config "M".toList "a/ x".toList).diagnostics = [] := by
  refine ⟨by decide +kernel, fun t => ?_, by decide +kernel, by decide +kernel, by decide +kernel⟩
  cases t <;> decide +kernel

end Definition

end MessageCompiler
