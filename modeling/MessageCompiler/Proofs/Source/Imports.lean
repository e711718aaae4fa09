import Mathlib.Data.List.Nodup
import MessageCompiler.Proofs.Definition.Requests
import MessageCompiler.Proofs.Source.Declared

/-!
# What a generated C# file imports

The lines of a C# file that declare a namespace or use one stand before the declaration of the
message. They are the line for the namespace that every message imports and one line for each import
of the definition, so that a requested name is declared once, by the kind of its first request.

* **`header_render`**: the header of a file is the lines of the imports, whatever the message is
  called.
* **`filterMap_import?_lines`**: no line after the header declares an import.
* **`imports_compile`**: the imports are the first requests, and the header declares each requested
  name once.
* **`count_home_compile`**: a `namespace` line of the definition ends up as a line of the file if it
  is the first to request its name.
-/

namespace MessageCompiler

namespace Source.CSharp

/-! ## Lines that declare imports -/

theorem import?_eq_some_iff {line : Text} {i : Import} : import? line = some i
    ↔ line = importLine i := by
  refine ⟨fun h => ?_, fun h => h ▸ import?_importLine i⟩
  rw [import?] at h
  split at h
  · next name hname =>
    rw [← Option.some.inj h]
    exact Text.between?_eq_some_iff.1 hname
  · obtain ⟨name, hname, rfl⟩ := Option.map_eq_some_iff.1 h
    exact Text.between?_eq_some_iff.1 hname

theorem import?_nil : import? [] = none := by decide

/-- Only a line that starts with a small `n` or `u` declares an import. -/
theorem import?_cons_eq_none {c : Char} (hn : c ≠ 'n') (hu : c ≠ 'u')
    (line : Text) : import? (c :: line) = none := by
  refine Option.eq_none_iff_forall_not_mem.2 fun i hi => ?_
  have hline := import?_eq_some_iff.1 hi
  rw [importLine] at hline
  split at hline
  · exact hn (List.cons.inj hline).1
  · exact hu (List.cons.inj hline).1

theorem count_filterMap_import? (ls : List Text) (i : Import) :
    (ls.filterMap import?).count i = ls.count (importLine i) := by
  rw [List.count, List.countP_filterMap, List.count]
  refine List.countP_congr fun line _ => ?_
  rw [beq_iff_eq, ← import?_eq_some_iff]
  cases import? line <;> simp

theorem filterMap_import?_headerLines (imports : List Import) :
    (headerLines imports).filterMap import? = .uses messageModule :: imports := by
  have hfirst : import? ("using ".toList ++ messageModule ++ [';']) = some (.uses messageModule) :=
    CSharp.import?_importLine (.uses messageModule)
  have hrest : (imports.flatMap fun i => [importLine i, []]).filterMap import? = imports := by
    induction imports with
    | nil => rfl
    | cons i rest ih =>
      rw [List.flatMap_cons, List.filterMap_append, ih, List.filterMap_cons_some (import?_importLine i),
        List.filterMap_cons_none import?_nil, List.filterMap_nil, List.singleton_append]
  rw [headerLines, List.filterMap_append, hrest, List.filterMap_cons_some hfirst,
    List.filterMap_cons_none import?_nil, List.filterMap_nil, List.singleton_append]

/-! ## The lines after the header -/

theorem import?_memberLines {m : Member} {line : Text} (h : line ∈ memberLines m) :
    (import? line) = none := by
  -- all that belongs to a member is indented, and no import is
  have hspace (rest : Text) : import? (' ' :: rest) = none :=
    (import?_cons_eq_none (by decide) (by decide) rest)
  cases m with
  | field f =>
    rcases List.mem_append.1 h with h | h
    · rcases mem_docLines h with rfl | ⟨doc, -, rfl⟩ | rfl
      · exact hspace _
      · rw [docLine]
        split <;> exact hspace _
      · exact hspace _
    · rcases List.mem_pair.1 h with rfl | rfl
      · exact hspace _
      · exact import?_nil
  | invalid number =>
    rw [List.mem_singleton.1 h]
    exact hspace _

/-- **No line after the header declares an import.** -/
theorem filterMap_import?_lines (d : Definition) :
    (lines d).filterMap import? = .uses messageModule :: d.imports := by
  have hmembers : (d.members.flatMap memberLines).filterMap import? = [] := by
    refine List.filterMap_eq_nil_iff.2 fun line hline => ?_
    obtain ⟨m, -, hline⟩ := List.mem_flatMap.1 hline
    exact import?_memberLines hline
  -- members are indented, and the other lines start with characters of their own
  have htype : import? (typeLine d) = none := import?_cons_eq_none (by decide) (by decide) _
  have hopening : import? ['\x7b'] = none := import?_cons_eq_none (by decide) (by decide) _
  have hclosing : import? ['\x7d'] = none := import?_cons_eq_none (by decide) (by decide) _
  have hspace (rest : Text) : import? (' ' :: rest) = none :=
    (import?_cons_eq_none (by decide) (by decide) rest)
  have hcreation : import? creationLine = none := hspace _
  have hconstructor : import? (constructorLine d.name) = none := hspace _
  simp only [lines, List.filterMap_append, filterMap_import?_headerLines, hmembers,
    List.filterMap_cons, htype, hopening, hclosing, hcreation, hconstructor, import?_nil,
    List.filterMap_nil, List.append_nil]

/-! ## The header of a file -/

/-- The lines of a file before the one that opens the declaration of the message. -/
def header (contents : Text) : List Text :=
  (Text.lines contents).takeWhile (!"public ".toList.isPrefixOf ·)

/-- The imports that the header of a file declares, in their order. -/
def imported (contents : Text) : List Import := (header contents).filterMap import?

theorem not_isPrefixOf_headerLines {imports : List Import} {line : Text}
    (h : line ∈ headerLines imports) : (!"public ".toList.isPrefixOf line) = true := by
  rcases mem_headerLines h with rfl | ⟨i, -, rfl⟩
  · rfl
  · rw [importLine]
    split <;> rfl

/-- **The header of a file is the lines of the imports**, also when the name of the message goes on
over several lines. -/
theorem header_render {d : Definition} (himports : ∀ i ∈ d.imports, '\n' ∉ i.name) :
    header (render .csharp d) = headerLines d.imports := by
  -- the name may have line feeds, so of the line after the header only the first word is known
  obtain ⟨rest, hrender⟩ : ∃ rest, render .csharp d
      = Text.unlines (headerLines d.imports) ++ ("public ".toList ++ rest) := by
    obtain ⟨others, hlines⟩ : ∃ others, lines d = headerLines d.imports ++ typeLine d :: others := by
      simp only [lines, List.append_assoc, List.cons_append, List.append_cancel_left_eq,
        List.cons.injEq, true_and, exists_eq']
    refine ⟨d.kind.name ++ ' ' :: d.name ++ (" : ".toList ++ messageInterface) ++ ['\n']
      ++ Text.unlines others, ?_⟩
    rw [show render .csharp d = Text.unlines (lines d) from rfl, hlines, Text.unlines,
      List.flatMap_append, List.flatMap_cons, typeLine_eq]
    simp only [Text.unlines, List.append_assoc]
  obtain ⟨first, others, hlines⟩ := Text.exists_lines_append (s := "public ".toList) (by decide) rest
  have hpublic : (!"public ".toList.isPrefixOf ("public ".toList ++ first)) = false := by simp
  rw [header, hrender, Text.lines_unlines_append (not_mem_headerLines rfl (by decide) himports), hlines,
    List.takeWhile_append_of_pos fun line hline => not_isPrefixOf_headerLines hline,
    List.takeWhile_cons, hpublic, if_neg Bool.false_ne_true, List.append_nil]

theorem imported_render {d : Definition} (himports : ∀ i ∈ d.imports, '\n' ∉ i.name) :
    imported (render .csharp d) = .uses messageModule :: d.imports := by
  rw [imported, header_render himports, filterMap_import?_headerLines]

theorem filterMap_import?_render {d : Definition} (hname : '\n' ∉ d.name)
    (himports : ∀ i ∈ d.imports, '\n' ∉ i.name) (hfields : ∀ f, .field f ∈ d.members → f.Printable) :
    (Text.lines (render .csharp d)).filterMap import? = .uses messageModule :: d.imports := by
  rw [show render .csharp d = Text.unlines (lines d) from rfl,
    Text.lines_unlines (lf_not_mem_lines hname himports hfields), List.filterMap_append,
    filterMap_import?_lines, List.filterMap_cons_none import?_nil, List.filterMap_nil,
    List.append_nil]

end Source.CSharp

/-! ## From the lines of a definition to the lines of its file -/

namespace Import

/-- What is requested under the name of a `namespace` line is its namespace, declared or used. -/
theorem eq_home_or_uses {i : Import} {argument : Text} (h : i.name = homeName argument) :
    i = home argument ∨ i = uses (homeName argument) := by
  obtain ⟨kind, name⟩ := i
  obtain rfl : name = homeName argument := h
  cases kind with
  | home => exact .inl rfl
  | uses => exact .inr rfl

/-- Whether a namespace is declared as the message's own: it is not the one that every message
imports, and the first request for its name is a `namespace` line. -/
def IsHome (rs : List Import) (argument : Text) : Prop :=
  homeName argument ≠ messageModule
    ∧ rs.find? (·.name == homeName argument) = some (home argument)

instance (rs : List Import) (argument : Text) : Decidable (IsHome rs argument) :=
  inferInstanceAs (Decidable (_ ∧ _))

end Import

namespace Definition

variable {name text : Text}

theorem mem_imports_ofText_iff {i : Import} : i ∈ (ofText name text).1.imports
    ↔ (Import.requests text).find? (·.name == i.name) = some i ∧ i.name ≠ messageModule := by
  rw [imports_ofText_eq, List.mem_filter, Import.mem_firsts_iff, bne_iff_ne]

/-- **The names of the imports are distinct**, and none is the namespace that every message
imports. -/
theorem nodup_imports_ofText (name text : Text) :
    (messageModule :: (ofText name text).1.imports.map (·.name)).Nodup := by
  rw [List.nodup_cons]
  constructor
  · intro h
    obtain ⟨i, hi, hname⟩ := List.mem_map.1 h
    exact (mem_imports_ofText_iff.1 hi).2 hname
  · rw [imports_ofText_eq]
    exact (Import.nodup_firsts _).sublist (List.filter_sublist.map _)

/-- **The names that are known in the end are the requested ones**, and the namespace that every
message imports. -/
theorem mem_names_ofText_iff {requested : Text} :
    requested ∈ messageModule :: (ofText name text).1.imports.map (·.name)
      ↔ requested = messageModule ∨ ∃ i ∈ Import.requests text, i.name = requested := by
  have hfirst := @Import.exists_mem_firsts_iff (Import.requests text) requested
  rw [List.mem_cons, List.mem_map, ← hfirst, imports_ofText_eq]
  refine or_congr_right' fun hne => ?_
  constructor
  · rintro ⟨i, hi, hname⟩
    exact ⟨i, (List.mem_filter.1 hi).1, hname⟩
  · rintro ⟨i, hi, rfl⟩
    exact ⟨i, List.mem_filter.2 ⟨hi, bne_iff_ne.2 hne⟩, rfl⟩

theorem home_mem_imports_iff {argument : Text} :
    .home argument ∈ Import.uses messageModule :: (ofText name text).1.imports
      ↔ Import.IsHome (Import.requests text) argument := by
  have hne : Import.home argument ≠ .uses messageModule := fun h => by
    cases congrArg Import.kind h
  rw [List.mem_cons, or_iff_right hne, mem_imports_ofText_iff, and_comm]
  rfl

/-- A namespace that a line asks for as the message's own is otherwise used. -/
theorem uses_mem_imports_iff {argument : Text} (h : .home argument ∈ Import.requests text) :
    .uses (Import.homeName argument) ∈ Import.uses messageModule :: (ofText name text).1.imports
      ↔ ¬ Import.IsHome (Import.requests text) argument := by
  have hsome : ((Import.requests text).find? (·.name == Import.homeName argument)).isSome :=
    List.find?_isSome.2 ⟨_, h, beq_self_eq_true (Import.homeName argument)⟩
  -- the first request for the name decides how it is declared
  obtain ⟨i, hi⟩ := Option.isSome_iff_exists.1 hsome
  have hname : i.name = Import.homeName argument := by simpa using List.find?_some hi
  have huses : Import.uses (Import.homeName argument) = .uses messageModule
      ↔ Import.homeName argument = messageModule := by simp [Import.uses]
  rw [List.mem_cons, huses, mem_imports_ofText_iff, Import.IsHome]
  show _ ∨ (Import.requests text).find? (·.name == Import.homeName argument) = _ ∧ _ ↔ _
  rw [hi]
  have hdiffer : Import.home argument ≠ .uses (Import.homeName argument) := fun h => by
    cases congrArg Import.kind h
  rcases Import.eq_home_or_uses hname with rfl | rfl
  · simp [hdiffer]
  · simp [hdiffer.symm, hname, em]

end Definition

namespace Source

/-- **The imports of a definition are the first requests of its lines**, one for each name, of the
kind that asks first, and without the namespace that every message imports. The header of the C#
file declares just these after that namespace, so that each requested name is declared once. -/
theorem imports_compile {config : Config} (hcsharp : config.targets.isEnabled .csharp)
    (name text : Text) :
    let imports := (Definition.ofText name text).1.imports
    let requests := Import.requests text
    imports = (Import.firsts requests).filter (·.name != messageModule)
      ∧ (imports.map (·.name)).Nodup ∧ messageModule ∉ imports.map (·.name)
      ∧ (∀ i ∈ imports, requests.find? (·.name == i.name) = some i)
      ∧ ∃ file, (compile config name text).file? .csharp = some file
        ∧ (CSharp.header file.contents).head? = some "using Rant.Messages;".toList
        ∧ CSharp.imported file.contents = .uses messageModule :: imports
        ∧ ∀ requested, ((CSharp.imported file.contents).map (·.name)).count requested
          = if requested = messageModule ∨ ∃ i ∈ requests, i.name = requested then 1 else 0 := by
  intro imports requests
  have hnodup : (messageModule :: imports.map (·.name)).Nodup :=
    Definition.nodup_imports_ofText name text
  have hlines : ∀ i ∈ imports, '\n' ∉ i.name := fun i => Definition.lf_not_mem_imports
  have himported : CSharp.imported (render .csharp ((Definition.ofText name text).1.spelled .csharp))
      = .uses messageModule :: imports := CSharp.imported_render hlines
  refine ⟨Definition.imports_ofText_eq name text, (List.nodup_cons.1 hnodup).2,
    (List.nodup_cons.1 hnodup).1, fun i hi => (Definition.mem_imports_ofText_iff.1 hi).1,
    _, Compiled.file?_compile hcsharp name text, ?_, himported, fun requested => ?_⟩
  · have hheader := CSharp.header_render (d := (Definition.ofText name text).1.spelled .csharp) hlines
    exact congrArg List.head? hheader
  · have hnames : ((Import.uses messageModule :: imports).map (·.name))
        = messageModule :: imports.map (·.name) := rfl
    show ((CSharp.imported (render .csharp ((Definition.ofText name text).1.spelled .csharp))).map
      (·.name)).count requested = _
    rw [himported, hnames, hnodup.count]
    exact if_congr Definition.mem_names_ofText_iff rfl rfl

/-- A `using` line for a name that a `namespace` line requests later, a qualified field, a repeated
request in different spacing, and requests for the namespace that every message imports: three
imports are left. -/
theorem imports_compile_mixed :
    let text := "using B\nnamespace  a\nC.T x;\n.T y\nP. z\n# using D\nusing a.Messages\nnamespace Rant"
    let imports := (Definition.ofText "M".toList text.toList).1.imports
    imports = [.uses "B".toList, .home "a".toList, .uses "C".toList]
      ∧ ∃ file, (compile {} "M".toList text.toList).file? .csharp = some file
        ∧ CSharp.imported file.contents = .uses messageModule :: imports := by
  intro text imports
  obtain ⟨-, -, -, -, file, hfile, -, himported, -⟩ :=
    @imports_compile {} rfl "M".toList text.toList
  exact ⟨by decide, file, hfile, himported⟩

/-- **A namespace that a `namespace` line asks for is declared in one line of the C# file.** The
line says `namespace` if that line is the first to ask for the name and not all messages import it;
otherwise it says `using`. -/
theorem count_home_compile {config : Config} (hcsharp : config.targets.isEnabled .csharp)
    {name : Text} (hname : '\n' ∉ name) {text argument : Text}
    (hargument : .home argument ∈ Import.requests text) :
    let isHome := Import.IsHome (Import.requests text) argument
    ∃ file, (compile config name text).file? .csharp = some file
      ∧ (Text.lines file.contents).count ("namespace ".toList ++ argument ++ ".Messages;".toList)
        = (if isHome then 1 else 0)
      ∧ (Text.lines file.contents).count ("using ".toList ++ argument ++ ".Messages;".toList)
        = (if isHome then 0 else 1) := by
  intro isHome
  set d := (Definition.ofText name text).1 with hd
  have hdeclared : (Text.lines (render .csharp (d.spelled .csharp))).filterMap CSharp.import?
      = .uses messageModule :: d.imports :=
    CSharp.filterMap_import?_render hname (fun i => Definition.lf_not_mem_imports)
      fun f => Definition.printable_of_mem_spelled_ofText
  -- the names of the imports differ, so each stands once or not at all
  have hcount (i : Import) : (Text.lines (render .csharp (d.spelled .csharp))).count
      (CSharp.importLine i) = if i ∈ Import.uses messageModule :: d.imports then 1 else 0 := by
    have hnodup : (Import.uses messageModule :: d.imports).Nodup :=
      List.Nodup.of_map Import.name (Definition.nodup_imports_ofText name text)
    rw [← CSharp.count_filterMap_import?, hdeclared, hnodup.count]
  have hhome : "namespace ".toList ++ argument ++ ".Messages;".toList
      = CSharp.importLine (.home argument) := by
    simp [CSharp.importLine, Import.home, Import.homeName]
  have huses : "using ".toList ++ argument ++ ".Messages;".toList
      = CSharp.importLine (.uses (Import.homeName argument)) := by
    simp [CSharp.importLine, Import.uses, Import.homeName]
  refine ⟨_, Compiled.file?_compile hcsharp name text, ?_, ?_⟩
  · rw [hhome]
    exact (hcount _).trans (if_congr Definition.home_mem_imports_iff rfl rfl)
  · rw [huses]
    refine (hcount _).trans ?_
    rw [if_congr (Definition.uses_mem_imports_iff hargument) rfl rfl, ite_not]

/-- A repeated `namespace` line, which stands before a `using` line for its name and a type of that
namespace. -/
theorem count_home_compile_repeated :
    let text := "int x\nnamespace  A;\nA.Messages.T y\nusing A.Messages\nnamespace A".toList
    ∃ file, (compile {} "M".toList text).file? .csharp = some file
      ∧ (Text.lines file.contents).count "namespace A.Messages;".toList = 1
      ∧ (Text.lines file.contents).count "using A.Messages;".toList = 0 := by
  intro text
  have hhome : Import.IsHome (Import.requests text) "A".toList := by decide
  obtain ⟨file, hfile, hnamespace, husing⟩ := @count_home_compile {} rfl "M".toList (by decide) text
    "A".toList (by decide)
  rw [if_pos hhome] at hnamespace husing
  exact ⟨file, hfile, hnamespace, husing⟩

/-- A `using` line for the same name keeps out the `namespace` line after it. The other way round, a
message name of several lines may have a line that looks like the one of the namespace. -/
theorem count_home_compile_ne_one :
    let used := "using A.Messages\nnamespace A".toList
    let alone := "namespace A".toList
    let longName := "M\nnamespace A.Messages;\n".toList
    (.home "A".toList ∈ Import.requests used
      ∧ ∃ file, (compile {} "M".toList used).file? .csharp = some file
        ∧ (Text.lines file.contents).count "namespace A.Messages;".toList = 0)
    ∧ (.home "A".toList ∈ Import.requests alone
      ∧ ∃ file, (compile {} longName alone).file? .csharp = some file
        ∧ (Text.lines file.contents).count "namespace A.Messages;".toList = 3) :=
  ⟨⟨by decide, _, rfl, by decide⟩, by decide, _, rfl, by decide⟩

end Source

end MessageCompiler
