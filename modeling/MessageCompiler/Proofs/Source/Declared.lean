import MessageCompiler.Compiled
import MessageCompiler.Proofs.Definition.Members
import MessageCompiler.Proofs.Source.CSharp
import MessageCompiler.Proofs.Source.Python

/-!
# What a generated file declares

A source line declares a field, leaves a placeholder, or declares nothing, and it does so by its own
words only (`Declaration.ofRaw?`). A generated file declares what the lines of the definition do,
in their order and nothing else.

* **`Line.ofRaw?_spelled`**: through both passes and the spelling, a line ends up as what its words say.
* **`printable_spelled_ofText`**: whatever the text is, its definition can be read back from the
  source in every target.
* **`declarations?_compile`**: the file that a definition is compiled to declares what its lines do.
-/

namespace MessageCompiler

open Text

/-! ## Spelling keeps words together -/

namespace Target

theorem of_findSome? {P : Text → Text → Prop} {table : List (String × String)}
    (htable : ∀ p ∈ table, P p.1.toList p.2.toList) {type spelled : Text}
    (h : table.findSome? (fun (known, spelled) =>
      if known.toList = type then some spelled.toList else none) = some spelled) :
    P type spelled := by
  obtain ⟨p, hmem, hp⟩ := List.exists_of_findSome?_eq_some h
  change (if p.1.toList = type then some p.2.toList else none) = some spelled at hp
  split at hp
  · next htype =>
    rw [← htype, ← Option.some.inj hp]
    exact htable p hmem
  · exact absurd hp (Option.some_ne_none spelled).symm

theorem isSolid_of_csharpType? {type spelled : Text} (h : csharpType? type = some spelled) :
    IsSolid spelled :=
  of_findSome? (P := fun _ spelled => IsSolid spelled) (by decide) h

theorem isSolid_of_pythonType? {type spelled : Text} (h : pythonType? type = some spelled) :
    IsSolid spelled :=
  of_findSome? (P := fun _ spelled => IsSolid spelled) (by decide) h

theorem isSolid_withoutPath {type : Text} (h : IsSolid type) : IsSolid (withoutPath type) := by
  rw [withoutPath]
  by_cases hslash : '/' ∈ type
  · obtain ⟨path, last, rfl, hlast⟩ := exists_eq_append_cons_of_mem hslash
    rw [splitLast_append_cons hlast]
    exact fun c hc => h c (List.mem_append_right _ (List.mem_cons_of_mem _ hc))
  · rw [splitLast_eq_none hslash]
    exact h

/-- **A type without blanks is spelled without blanks.** -/
theorem isSolid_typeName {type : Text} (h : IsSolid type) (t : Target) :
    IsSolid (t.typeName type) := by
  have hbase : IsSolid (withoutPath ((csharpType? type).getD type)) := by
    apply isSolid_withoutPath
    cases hknown : csharpType? type with
    | none => exact h
    | some spelled => exact isSolid_of_csharpType? hknown
  cases t with
  | csharp => exact hbase
  | python =>
    show IsSolid ((pythonType? _).getD _)
    cases hknown : pythonType? (withoutPath ((csharpType? type).getD type)) with
    | none => exact hbase
    | some spelled => exact isSolid_of_pythonType? hknown

/-- **A name without blanks is spelled without blanks.** -/
theorem isSolid_fieldName {name : Text} (h : IsSolid name) (t : Target) :
    IsSolid (t.fieldName name) := by
  have hafter : IsSolid (name ++ ['_']) := fun c hc => by
    rcases List.mem_append.1 hc with hc | hc
    · exact h c hc
    · rw [List.mem_singleton.1 hc]
      rfl
  have hbefore : IsSolid ('@' :: name) := fun c hc => by
    rcases List.mem_cons.1 hc with rfl | hc
    · rfl
    · exact h c hc
  unfold fieldName
  split
  · exact hafter
  split
  · cases t with
    | csharp => exact hbefore
    | python => exact hafter
  · exact h

end Target

theorem Definition.printable_of_mem_spelled_ofText {name text : Text} {t : Target} {f : Field}
    (h : .field f ∈ ((ofText name text).1.spelled t).members) : f.Printable := by
  obtain ⟨m, hm, hspelled⟩ := List.mem_map.1 h
  cases m with
  | invalid line => exact absurd hspelled (by simp [Member.spelled])
  | field g =>
    obtain ⟨htype, hname, hdocs⟩ := field_of_mem_ofText hm
    rw [← Member.field.inj hspelled]
    exact ⟨Target.isSolid_typeName htype.solid t, Target.isSolid_fieldName hname.solid t, hdocs⟩

/-- **The definition of any text can be read back from its source**, in every target, if the name
of the message has neither a line feed nor a space. -/
theorem Definition.printable_spelled_ofText {name : Text} (hline : '\n' ∉ name)
    (hspace : ' ' ∉ name) (t : Target) (text : Text) :
    ((Definition.ofText name text).1.spelled t).Printable where
  name_line := hline
  name_space := hspace
  imports_line _ hi := lf_not_mem_imports hi
  fields _ hf := printable_of_mem_spelled_ofText hf

/-! ## What a source line declares -/

namespace Declaration

/-- What the source line of the given number declares in a target. -/
def ofRaw? (t : Target) (number : Nat) (raw : Text) : Option Declaration :=
  let line := trimEnd (dropEndWhile (· == ';') (trim raw))
  if "#".toList.isPrefixOf line || "//".toList.isPrefixOf line then none
  else
    match words line with
    | [] => none
    | [_] => some (.placeholder number)
    | type :: name :: _ =>
      if type ∈ Directive.heads then none
      else if type.getLast? = some '.' then some (.placeholder number)
      else some (.field (t.typeName (type.rtakeWhile (· != '.'))) (t.fieldName name))

/-- What the lines of a text declare in a target, in their order and numbered from one. -/
def ofText (t : Target) (text : Text) : List Declaration :=
  ((lines text).zipIdx 1).filterMap fun (raw, number) => ofRaw? t number raw

/-- A declaration as the target spells it. -/
def spelled (t : Target) : Declaration → Declaration
  | .field type name => .field (t.typeName type) (t.fieldName name)
  | .placeholder line => .placeholder line

end Declaration

theorem Member.declaration_spelled (t : Target) (m : Member) :
    (m.spelled t).declaration = m.declaration.spelled t := by
  cases m <;> rfl

theorem Member.field?_spelled (t : Target) (m : Member) :
    (m.spelled t).field? = m.field?.map (Field.spelled t) := by
  cases m <;> rfl

theorem Definition.fields_spelled (t : Target) (d : Definition) :
    (d.spelled t).fields = d.fields.map (Field.spelled t) := by
  show (d.members.map (Member.spelled t)).filterMap Member.field? = _
  rw [List.filterMap_map, fields, List.map_filterMap]
  congr 1
  exact funext (Member.field?_spelled t)

/-- Generated source does not show the source line of a field, but all that the field declares. -/
theorem Member.declaration_unnumbered (m : Member) : m.unnumbered.declaration = m.declaration := by
  cases m <;> rfl

/-- What a field leaves for the body, by the end of its type. -/
theorem Body.ofField_eq (type name : Text) : Body.ofField type name
    = if type.getLast? = some '.' then .malformed
      else .field (type.rtakeWhile (· != '.')) name := by
  rw [ofField]
  by_cases hdot : '.' ∈ type
  · obtain ⟨qualifier, last, rfl, hlast⟩ := exists_eq_append_cons_of_mem hdot
    -- what follows the last dot has none, and the cut stops at that dot
    have htake : (qualifier ++ '.' :: last).rtakeWhile (· != '.') = last := by
      have hall : ∀ c ∈ last.reverse, (c != '.') = true := fun c hc => by
        simpa using fun heq : c = '.' => hlast (heq ▸ List.mem_reverse.1 hc)
      rw [List.rtakeWhile, List.reverse_append, List.reverse_cons, List.append_assoc,
        List.takeWhile_append_of_pos hall]
      simp
    rw [splitLast_append_cons hlast, htake]
    show (if last.isEmpty then Body.malformed else .field last name) = _
    cases hl : last.getLast? with
    | none =>
      rw [List.getLast?_eq_none_iff] at hl
      subst hl
      simp
    | some c =>
      have hne : last ≠ [] := fun heq => by simp [heq] at hl
      have hc : c ≠ '.' := fun heq => hlast (heq ▸ List.mem_of_getLast? hl)
      simp [hne, hl, hc, List.getLast?_append, List.getLast?_cons]
  · have hlast : type.getLast? ≠ some '.' := fun h => hdot (List.mem_of_getLast? h)
    have htake : type.rtakeWhile (· != '.') = type :=
      List.rtakeWhile_eq_self_iff.2 fun c hc => by
        simpa using fun heq : c = '.' => hdot (heq ▸ hc)
    rw [splitLast_eq_none hdot, if_neg hlast, htake]

/-! ## From the line to the file -/

/-- **Through both passes and the spelling, a line ends up as what its words say.** -/
theorem Line.ofRaw?_spelled (t : Target) (number : Nat) (raw : Text) :
    (((Line.ofRaw? number raw).bind BodyLine.ofLine?).bind BodyLine.declaration?).map
      (Declaration.spelled t) = Declaration.ofRaw? t number raw := by
  rw [ofRaw?_eq_map]
  unfold Content.ofRaw? Declaration.ofRaw?
  dsimp only
  rw [← significant]
  cases "#".toList.isPrefixOf (significant raw) with
  | true => rfl
  | false =>
    cases "//".toList.isPrefixOf (significant raw) with
    | true => rfl
    | false =>
      -- from here on only the words of the line count
      rcases words (significant raw) with _ | ⟨type, _ | ⟨name, others⟩⟩
      · rfl
      · rfl
      · show (((some (mk number (.ofWords (type :: name :: others)))).bind BodyLine.ofLine?).bind
          BodyLine.declaration?).map _ = if type ∈ Directive.heads then none else _
        by_cases htype : type ∈ Directive.heads
        · obtain ⟨d, hd⟩ := Content.ofWords_of_mem_heads htype name others
          rw [hd, if_pos htype]
          rfl
        · rw [Content.ofWords_of_not_mem_heads htype, if_neg htype]
          show ((BodyLine.mk number (Body.ofField type name)).declaration?).map _ = _
          rw [Body.ofField_eq]
          split
          · rfl
          · rfl

theorem Definition.map_declaration_spelled (t : Target) (name text : Text) :
    ((ofText name text).1.spelled t).members.map Member.declaration
      = Declaration.ofText t text := by
  have hmembers : ((ofText name text).1.spelled t).members.map Member.declaration
      = ((ofText name text).1.members.map Member.declaration).map (Declaration.spelled t) := by
    simp only [spelled, List.map_map]
    exact List.map_congr_left fun m _ => m.declaration_spelled t
  rw [hmembers, map_declaration_ofText, Line.scan_eq_filterMap, List.map_filterMap,
    List.filterMap_filterMap, Declaration.ofText]
  congr 1
  funext ⟨raw, number⟩
  show _ = Declaration.ofRaw? t number raw
  rw [← Line.ofRaw?_spelled]
  cases Line.ofRaw? number raw <;> rfl

namespace Source

/-- The members that the text of a generated file declares after the creation time, if the whole
text is source of the target. -/
def declarations? (t : Target) (contents : Text) : Option (List Declaration) :=
  match t with
  | .csharp => (CSharp.read? contents).map (·.members.map Member.declaration)
  | .python => (Python.read? contents).map (·.2.map Member.declaration)

theorem declarations?_render {d : Definition} (hd : d.Printable) (t : Target) :
    declarations? t (render t d) = some (d.members.map Member.declaration) := by
  have hmembers : (d.members.map Member.unnumbered).map Member.declaration
      = d.members.map Member.declaration := by
    rw [List.map_map]
    exact List.map_congr_left fun m _ => m.declaration_unnumbered
  cases t with
  | csharp =>
    rw [declarations?, CSharp.read?_render hd, Option.map_some]
    exact congrArg some hmembers
  | python =>
    rw [declarations?, Python.read?_render hd, Option.map_some]
    exact congrArg some hmembers

end Source

theorem Compiled.file?_compile {config : Config} {t : Target} (h : config.targets.isEnabled t)
    (name text : Text) : (compile config name text).file? t
      = some (SourceFile.ofDefinition (Definition.ofText name text).1 t) := by
  have hfind : config.targets.enabled.find? (· == t) = some t := by
    have hmem : t ∈ config.targets.enabled := Targets.mem_enabled.2 h
    have hsome : (config.targets.enabled.find? (· == t)).isSome :=
      List.find?_isSome.2 ⟨t, hmem, beq_self_eq_true t⟩
    obtain ⟨t', ht'⟩ := Option.isSome_iff_exists.1 hsome
    have hbeq := List.find?_some ht'
    rw [ht', eq_of_beq hbeq]
  show (config.targets.enabled.map
    (SourceFile.ofDefinition (Definition.ofText name text).1)).find? (·.target == t) = _
  rw [List.find?_map]
  show (config.targets.enabled.find? (· == t)).map _ = _
  rw [hfind]
  rfl

/-- **A generated file declares what the lines of the definition do**, in their order, and no other
member: one field for each well-formed field line and one placeholder for each malformed line. -/
theorem Source.declarations?_compile {config : Config} {t : Target}
    (ht : config.targets.isEnabled t) {name : Text} (hline : '\n' ∉ name) (hspace : ' ' ∉ name)
    (text : Text) : ∃ file, (compile config name text).file? t = some file
      ∧ declarations? t file.contents = some (Declaration.ofText t text) := by
  refine ⟨_, Compiled.file?_compile ht name text, ?_⟩
  have hprintable := Definition.printable_spelled_ofText hline hspace t text
  rw [← Definition.map_declaration_spelled t name text]
  exact declarations?_render hprintable t

/-- A qualified field, a lone word, and a field whose type ends in a dot: in Python the text
declares one field, named so that it does not hide the creation time, and two placeholders. -/
theorem Source.declarations?_compile_mixed :
    let config : Config := { targets := { python := true } }
    let text := " Geo.float64 timestamp ; ignored ;;\n# note\nlone;\n\nGeo. x".toList
    ∃ file, (compile config "Mixed".toList text).file? .python = some file
      ∧ declarations? .python file.contents = some
        [.field "float".toList "timestamp_".toList, .placeholder 3, .placeholder 5] := by
  obtain ⟨file, hfile, hdeclared⟩ := @declarations?_compile { targets := { python := true } }
    .python rfl "Mixed".toList (by decide) (by decide)
    " Geo.float64 timestamp ; ignored ;;\n# note\nlone;\n\nGeo. x".toList
  exact ⟨file, hfile, hdeclared.trans (congrArg some (by decide))⟩

end MessageCompiler
