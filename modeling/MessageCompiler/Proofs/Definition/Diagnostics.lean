import MessageCompiler.Proofs.Definition.Requests
import MessageCompiler.Proofs.Log.Channels
import MessageCompiler.Proofs.Source.Declared

/-!
# What is found wrong with a definition

Diagnostics come from four sources: directives, malformed lines, comments at the end, and fields that
would hide the creation time. Here each source is told by the lines of the text alone, as
`Line.ofText` tells them, without what the passes carry along. A directive is judged by the lines
before it, a comment by the lines after it, and the other two by the line itself.

* **`Header.journal_step`**: the first pass reports what is wrong with a directive, and has a remark
  about a field at most.
* **`Header.diagnostics_read`**, **`Header.kind_read`**: the diagnostics and the kind that the first
  pass leaves.
* **`Body.snd_members`**: what the second pass reports.
* **`Compiled.diagnostics_compile`**: the diagnostics of a compiled definition.
-/

namespace MessageCompiler

open Text

namespace Content

/-! ## Lines and what may be wrong with them -/

/-- Whether this is a well-formed field: a type that ends in a dot has no name. -/
def isField : Content → Bool
  | .field type _ => type.getLast? != some '.'
  | _ => false

/-- Whether a type or a name is missing. -/
def isMalformed : Content → Bool
  | .malformed => true
  | .field type _ => type.getLast? == some '.'
  | _ => false

def isComment : Content → Bool
  | .comment _ => true
  | _ => false

/-- The kinds that there are, by the names that a `type` line gives them. -/
def kinds : List (Text × Kind) :=
  [("class".toList, .classType), ("record".toList, .recordType), ("struct".toList, .structType),
    ("record class".toList, .recordClass), ("record struct".toList, .recordStruct)]

/-- The kind that a line asks for, if it asks for one that there is. -/
def kind? : Content → Option Kind
  | .directive (.kind argument) => kinds.lookup argument
  | _ => none

/-- The name that a line requests, if it requests one. A field requests what stands before the last dot
of its type, if there is something on either side. -/
def requestedName? : Content → Option Text
  | .directive (.home argument) => some (argument ++ ".Messages".toList)
  | .directive (.uses argument) => some argument
  | .field type _ =>
    let qualifier := (type.rdropWhile (· != '.')).dropLast
    if qualifier.isEmpty || type.getLast? == some '.' then none else some qualifier
  | _ => none

end Content

/-- The names that need no import after some lines: the namespace that every message imports, and what
the lines request. -/
def Import.namesAfter (ls : List Line) : List Text :=
  "Rant.Messages".toList :: ls.filterMap (·.content.requestedName?)

namespace Diagnostic

/-- What is wrong with a directive, given the names that need no import. -/
def ofDirective? (names : List Text) (line : Line) : Option Diagnostic :=
  match line.content with
  | .directive (.kind argument) =>
    if (Content.kinds.lookup argument).isSome then none else some (unknownKind line.number argument)
  | .directive (.home argument) =>
    if argument ++ ".Messages".toList ∈ names then some (duplicate line.number argument) else none
  | .directive (.uses argument) =>
    if argument ∈ names then some (duplicate line.number argument) else none
  | _ => none

/-- What is wrong with the directives, each judged by the lines before it. -/
def ofDirectives (ls : List Line) : List Diagnostic :=
  ls.zipIdx.filterMap fun p => ofDirective? (Import.namesAfter (ls.take p.2)) p.1

/-- The warnings about malformed lines. -/
def ofMalformed (ls : List Line) : List Diagnostic :=
  (ls.filter (·.content.isMalformed)).map fun line => malformed line.number

/-- The warning about comments after the last field. -/
def ofTrailing (ls : List Line) : List Diagnostic :=
  if (ls.rtakeWhile (!·.content.isField)).any (·.content.isComment) then [trailing] else []

/-- The name that a field of a target cannot keep, since the time of creation goes by it. -/
def takenName : Target → Text
  | .csharp => "Timestamp".toList
  | .python => "timestamp".toList

/-- The warning about a field that has the name of the creation time in a target. -/
def ofHiding? (t : Target) (line : Line) : Option Diagnostic :=
  match line.content with
  | .field _ name =>
    if line.content.isField && name == takenName t then some (renamed t line.number name) else none
  | _ => none

end Diagnostic

/-! ## The names that the passes use -/

namespace Content

theorem lookup_kinds (argument : Text) : kinds.lookup argument = Kind.ofName? argument := by
  have hlookup (l : List Kind) : (l.map fun k => (k.name, k)).lookup argument
      = l.find? (·.name == argument) := by
    induction l with
    | nil => rfl
    | cons k rest ih =>
      rw [List.map_cons, List.lookup_cons, List.find?_cons, ih, BEq.comm]
  exact hlookup Kind.all

theorem rdropWhile_append_cons {qualifier last : Text} (hlast : '.' ∉ last) :
    (qualifier ++ '.' :: last).rdropWhile (· != '.') = qualifier ++ ['.'] := by
  have hdropped : ∀ c ∈ last.reverse, (c != '.') = true := fun c hc =>
    bne_iff_ne.2 fun h => hlast (h ▸ List.mem_reverse.1 hc)
  rw [List.rdropWhile, List.reverse_append, List.reverse_cons, List.append_assoc,
    List.dropWhile_append_of_pos hdropped, List.singleton_append, List.dropWhile_cons_of_neg (by simp),
    List.reverse_cons, List.reverse_reverse]

theorem requestedName?_field (type name : Text) :
    (field type name).requestedName? = Import.qualifier? type := by
  rw [requestedName?, Import.qualifier?]
  by_cases hdot : '.' ∈ type
  · obtain ⟨qualifier, last, rfl, hlast⟩ := exists_eq_append_cons_of_mem hdot
    have hempty : ((qualifier ++ '.' :: last).getLast? == some '.') = last.isEmpty := by
      cases last with
      | nil => simp
      | cons c rest =>
        rw [List.getLast?_append_of_ne_nil _ (List.cons_ne_nil _ _), List.getLast?_cons_cons,
          List.getLast?_eq_some_getLast (List.cons_ne_nil c rest)]
        exact beq_false_of_ne fun h => hlast (Option.some.inj h ▸ List.getLast_mem _)
    rw [splitLast_append_cons hlast, rdropWhile_append_cons hlast, List.dropLast_concat, hempty]
  · -- without a dot nothing stands before one
    have hnil : type.rdropWhile (· != '.') = [] :=
      List.rdropWhile_eq_nil_iff.2 fun c hc => bne_iff_ne.2 fun h => hdot (h ▸ hc)
    rw [splitLast_eq_none hdot, hnil]
    rfl

/-- **What a line requests is the name of the import that it asks for.** -/
theorem requestedName?_eq (content : Content) :
    content.requestedName? = (Import.ofContent? content).map (·.name) := by
  cases content with
  | comment text => rfl
  | malformed => rfl
  | directive d => cases d <;> rfl
  | field type name =>
    rw [requestedName?_field, Import.ofContent?, Option.map_map]
    exact Option.map_id'.symm

end Content

/-! ## The first pass -/

namespace Import

theorem known_iff {imports : List Import} {name : Text} :
    known imports name = true ↔ name ∈ "Rant.Messages".toList :: imports.map (·.name) := by
  show known imports name = true ↔ name ∈ messageModule :: _
  simp only [known, Bool.or_eq_true, beq_iff_eq, List.any_eq_true, List.mem_cons, List.mem_map]

theorem known_grant {imports : List Import} {i : Import} {name : Text} :
    known (grant imports i) name = true ↔ known imports name = true ∨ i.name = name := by
  rw [grant, add?]
  split
  · next hknown =>
    constructor
    · exact .inl
    · rintro (h | rfl)
      · exact h
      · exact hknown
  · show known (imports ++ [i]) name = true ↔ _
    simp only [known, List.any_append, List.any_cons, List.any_nil, Bool.or_false, Bool.or_eq_true,
      beq_iff_eq, or_assoc]

end Import

namespace Header

variable (name : Text) (number : Nat) {h : Header} {names : List Text}

theorem journal_setKind (argument : Text) : (h.setKind name number argument).journal
    = if (Content.kinds.lookup argument).isSome then h.journal
      else h.journal.told name (.unknownKind number argument) := by
  rw [Content.lookup_kinds, setKind, Kind.ofName]
  cases Kind.ofName? argument with
  | some k => rfl
  | none => exact Journal.error_eq_told name h.journal number _

theorem journal_request (hnames : ∀ n, Import.known h.imports n = true ↔ n ∈ names)
    (argument : Text) (i : Import) : (h.request name number argument i).journal
    = if i.name ∈ names then h.journal.told name (.duplicate number argument) else h.journal := by
  unfold request Import.add?
  by_cases hknown : Import.known h.imports i.name = true
  · rw [if_pos hknown, if_pos ((hnames _).1 hknown)]
    exact Journal.warn_eq_told name h.journal number _
  · rw [if_neg hknown, if_neg fun hmem => hknown ((hnames _).2 hmem)]

theorem journal_fieldType (type fieldName : Text) :
    (h.fieldType name number type fieldName).1.journal = h.journal
      ∨ ∃ text, (h.fieldType name number type fieldName).1.journal
        = h.journal.remark name number text := by
  unfold fieldType
  split
  · exact .inl rfl
  split_ifs
  · exact .inl rfl
  · exact .inl rfl
  · unfold qualify
    split
    · exact .inl rfl
    · exact .inr ⟨_, rfl⟩

/-- **What a line does to the journal**: it is told what is wrong with a directive, and a field may be
worth a remark. -/
theorem journal_step (line : Line) (hnames : ∀ n, Import.known h.imports n = true ↔ n ∈ names) :
    (h.step name line).1.journal
        = h.journal.toldAll name (Diagnostic.ofDirective? names line).toList
      ∨ Diagnostic.ofDirective? names line = none
        ∧ ∃ text, (h.step name line).1.journal = h.journal.remark name line.number text := by
  obtain ⟨number, content⟩ := line
  unfold step Diagnostic.ofDirective?
  cases content with
  | comment text => exact .inl rfl
  | malformed => exact .inl rfl
  | field type fieldName =>
    -- a field's type may ask for an import, which is remarked on and never a problem
    rcases journal_fieldType name number (h := h) type fieldName with hjournal | hremark
    · exact .inl hjournal
    · exact .inr ⟨rfl, hremark⟩
  | directive d =>
    -- each of the three directives is taken or reported, and one that is taken says nothing
    left
    cases d with
    | kind argument =>
      refine (journal_setKind name number argument).trans ?_
      dsimp only
      split_ifs <;> rfl
    | home argument =>
      refine (journal_request name number hnames argument (.home argument)).trans ?_
      show (if argument ++ ".Messages".toList ∈ names then _ else _) = _
      dsimp only
      split_ifs <;> rfl
    | uses argument =>
      refine (journal_request name number hnames argument (.uses argument)).trans ?_
      show (if argument ∈ names then _ else _) = _
      dsimp only
      split_ifs <;> rfl

theorem known_step {before : List Line} (line : Line)
    (hknown : ∀ n, Import.known h.imports n = true ↔ n ∈ Import.namesAfter before) (n : Text) :
    Import.known (h.step name line).1.imports n = true
      ↔ n ∈ Import.namesAfter (before ++ [line]) := by
  -- what is known grows at its end, by the request of the line if it has one
  have hnames : Import.namesAfter (before ++ [line])
      = Import.namesAfter before ++ ((Import.ofContent? line.content).map (·.name)).toList := by
    unfold Import.namesAfter
    rw [List.filterMap_append, List.cons_append, ← Content.requestedName?_eq]
    cases hrequest : line.content.requestedName? <;> simp [hrequest]
  rw [imports_step, hnames, List.mem_append, ← hknown n]
  cases Import.ofContent? line.content with
  | none => simp
  | some i =>
    show Import.known (Import.grant h.imports i) n = true ↔ _
    rw [Import.known_grant, Option.map_some, Option.toList_some, List.mem_singleton, eq_comm (a := n)]

/-- **The diagnostics of the first pass** are what is wrong with the directives, if the names that are
known are those that the lines before have made known. -/
theorem diagnostics_read {before : List Line} (ls : List Line)
    (hknown : ∀ n, Import.known h.imports n = true ↔ n ∈ Import.namesAfter before) :
    (h.read name ls).1.journal.diagnostics
      = h.journal.diagnostics ++ (ls.zipIdx before.length).filterMap fun p =>
          Diagnostic.ofDirective? (Import.namesAfter ((before ++ ls).take p.2)) p.1 := by
  -- the induction carries along that the names known are those of the lines before
  induction ls generalizing h before with
  | nil => simp [read]
  | cons line rest ih =>
    have hrest := ih (known_step name line hknown)
    have hfirst : (h.step name line).1.journal.diagnostics = h.journal.diagnostics
        ++ (Diagnostic.ofDirective? (Import.namesAfter before) line).toList := by
      rcases journal_step name line hknown with hjournal | ⟨hnone, text, hjournal⟩
      · rw [hjournal, Journal.diagnostics_toldAll]
      · rw [hjournal, hnone]
        exact (List.append_nil _).symm
    show ((h.step name line).1.read name rest).1.journal.diagnostics = _
    rw [hrest, hfirst, List.append_assoc before, List.singleton_append, List.length_append,
      List.length_singleton, List.append_assoc, List.zipIdx_cons, List.filterMap_cons]
    dsimp only
    rw [List.take_left]
    cases Diagnostic.ofDirective? (Import.namesAfter before) line <;> rfl

theorem kind_request (argument : Text) (i : Import) :
    (h.request name number argument i).kind = h.kind := by
  unfold request
  split <;> rfl

theorem kind_fieldType (type fieldName : Text) :
    (h.fieldType name number type fieldName).1.kind = h.kind := by
  unfold fieldType qualify
  split
  · rfl
  split_ifs
  · rfl
  · rfl
  · dsimp only
    split <;> rfl

theorem kind_step (line : Line) :
    (h.step name line).1.kind = (line.content.kind?).getD h.kind := by
  obtain ⟨number, content⟩ := line
  cases content with
  | comment text => rfl
  | malformed => rfl
  | field type fieldName => exact kind_fieldType name number type fieldName
  | directive d =>
    cases d with
    | home argument => exact kind_request name number argument _
    | uses argument => exact kind_request name number argument _
    | kind argument =>
      show (h.setKind name number argument).kind = (Content.kinds.lookup argument).getD h.kind
      rw [Content.lookup_kinds, setKind, Kind.ofName]
      cases Kind.ofName? argument <;> rfl

/-- **The kind is the last one that is asked for**, if there is one. -/
theorem kind_read (ls : List Line) : (h.read name ls).1.kind
    = ((ls.filterMap (·.content.kind?)).getLast?).getD h.kind := by
  induction ls generalizing h with
  | nil => rfl
  | cons line rest ih =>
    show ((h.step name line).1.read name rest).1.kind = _
    rw [ih, kind_step, List.filterMap_cons]
    cases line.content.kind? with
    | none => rfl
    | some kind =>
      dsimp only
      rw [List.getLast?_cons]
      rfl

end Header

/-! ## The second pass -/

/-- A further element at the start is reached from the end only past all others. -/
theorem any_rtakeWhile_cons {α : Type} (p q : α → Bool) (a : α) (l : List α) :
    ((a :: l).rtakeWhile p).any q = ((l.rtakeWhile p).any q || (l.all p && p a && q a)) := by
  unfold List.rtakeWhile
  rw [List.any_reverse, List.any_reverse, List.reverse_cons]
  -- if all others can be passed the new element decides, else the walk stops before it
  cases hall : l.all p with
  | true =>
    have hreverse : ∀ b ∈ l.reverse, p b = true := by simpa using hall
    rw [List.takeWhile_append_of_pos hreverse, List.takeWhile_eq_self_iff.2 hreverse, List.any_append]
    cases hp : p a <;> simp [hp]
  | false =>
    rw [List.takeWhile_append, if_neg, Bool.false_and, Bool.false_and, Bool.or_false]
    intro hlength
    have hself := (List.takeWhile_prefix p).eq_of_length hlength
    rw [List.takeWhile_eq_self_iff] at hself
    have hforall : l.all p = true := List.all_eq_true.2 fun b hb => hself b (List.mem_reverse.2 hb)
    rw [hall] at hforall
    exact Bool.false_ne_true hforall

namespace Body

/-- **What the second pass tells**: the malformed lines, and comments that no field follows. -/
theorem snd_members (name : Text) (docs : List Text) (j : Journal) (ls : List Line) :
    (members name docs j (ls.filterMap BodyLine.ofLine?)).2
      = j.toldAll name (Diagnostic.ofMalformed ls
        ++ if !docs.isEmpty && ls.all (!·.content.isField)
            || (ls.rtakeWhile (!·.content.isField)).any (·.content.isComment)
          then [.trailing] else []) := by
  -- from line to line the comments that wait for a field are carried along, and the journal
  induction ls generalizing docs j with
  | nil =>
    cases docs with
    | nil => rfl
    | cons doc docs => exact warnTrailing_eq_told name j
  | cons line rest ih =>
    obtain ⟨number, content⟩ := line
    have hmalformed (content : Content) : Diagnostic.ofMalformed (⟨number, content⟩ :: rest)
        = (if content.isMalformed then [.malformed number] else [])
          ++ Diagnostic.ofMalformed rest := by
      unfold Diagnostic.ofMalformed
      rw [List.filter_cons]
      dsimp only
      split_ifs <;> rfl
    rw [any_rtakeWhile_cons, List.all_cons, hmalformed]
    cases content with
    | directive d =>
      refine (ih docs j).trans ?_
      simp [Content.isMalformed, Content.isField, Content.isComment]
    | comment text =>
      refine (ih (docs ++ [text]) j).trans ?_
      simp [Content.isMalformed, Content.isField, Content.isComment]
      grind
    | malformed =>
      refine (ih docs (j.told name (.malformed number))).trans ?_
      simp [Content.isMalformed, Content.isField, Content.isComment, Journal.toldAll]
    | field type fieldName =>
      show (members name docs j
        (⟨number, ofField type fieldName⟩ :: rest.filterMap BodyLine.ofLine?)).2 = _
      have hcomment : (Content.field type fieldName).isComment = false := rfl
      rw [ofField_eq, hcomment]
      -- a type that ends in a dot leaves the waiting comments alone, any other takes them
      by_cases hdot : type.getLast? = some '.'
      · have hfield : (Content.field type fieldName).isField = false := by
          simp [Content.isField, hdot]
        have hbad : (Content.field type fieldName).isMalformed = true := by
          simp [Content.isMalformed, hdot]
        rw [if_pos hdot, hfield, hbad]
        refine (ih docs (j.told name (.malformed number))).trans ?_
        simp [Journal.toldAll]
      · have hfield : (Content.field type fieldName).isField = true := by
          simp [Content.isField, hdot]
        have hgood : (Content.field type fieldName).isMalformed = false := by
          simp [Content.isMalformed, hdot]
        rw [if_neg hdot, hfield, hgood]
        refine (ih [] j).trans ?_
        simp

/-- Fields are warned about by their lines alone: which comments wait for them does not count. -/
theorem renamed_made (t : Target) (docs : List Text) (ls : List Line) :
    (((made docs (ls.filterMap BodyLine.ofLine?)).filterMap Member.field?).filter
        (t.hidesCreationTime ·.name)).map (fun f => .renamed t f.line f.name)
      = ls.filterMap (Diagnostic.ofHiding? t) := by
  have htaken : t.creationTime = Diagnostic.takenName t := by
    cases t <;> rfl
  induction ls generalizing docs with
  | nil => rfl
  | cons line rest ih =>
    obtain ⟨number, content⟩ := line
    cases content with
    | directive d => exact ih docs
    | comment text => exact ih (docs ++ [text])
    | malformed =>
      show ((made docs (⟨number, .malformed⟩ :: rest.filterMap BodyLine.ofLine?)).filterMap
        Member.field? |>.filter _).map _ = _
      rw [made_malformed]
      exact ih docs
    | field type name =>
      show (((made docs (⟨number, ofField type name⟩
        :: rest.filterMap BodyLine.ofLine?)).filterMap Member.field?).filter _).map _ = _
      have hthis : Diagnostic.ofHiding? t ⟨number, .field type name⟩
          = if (Content.field type name).isField && name == Diagnostic.takenName t then
              some (.renamed t number name) else none := rfl
      rw [ofField_eq, List.filterMap_cons, hthis]
      -- a type that ends in a dot makes no field, so the comments before it go to the next one
      by_cases hdot : type.getLast? = some '.'
      · have hfield : (Content.field type name).isField = false := by simp [Content.isField, hdot]
        rw [if_pos hdot, hfield, Bool.false_and, if_neg Bool.false_ne_true, made_malformed]
        exact ih docs
      · have hfield : (Content.field type name).isField = true := by simp [Content.isField, hdot]
        rw [if_neg hdot, hfield, Bool.true_and]
        show ((Field.mk number (type.rtakeWhile (· != '.')) name docs
          :: (made [] (rest.filterMap BodyLine.ofLine?)).filterMap Member.field?).filter _).map _ = _
        rw [List.filter_cons, ← ih [], ← htaken]
        unfold Target.hidesCreationTime
        cases name == t.creationTime <;> rfl

end Body

/-! ## What compiling finds wrong -/

namespace Targets

/-- The enabled targets one after the other: C# comes first. -/
theorem flatMap_enabled {α : Type} (ts : Targets) (f : Target → List α) : ts.enabled.flatMap f
    = (if ts.csharp then f .csharp else []) ++ if ts.python then f .python else [] := by
  unfold enabled Target.all
  rw [List.filter_cons, List.filter_cons, List.filter_nil]
  show (if ts.csharp then .csharp :: (if ts.python then [.python] else [])
    else if ts.python then [Target.python] else []).flatMap f = _
  cases ts.csharp <;> cases ts.python <;> simp

end Targets

namespace Definition

theorem diagnostics_ofText (name text : Text) : (ofText name text).2.diagnostics
    = Diagnostic.ofDirectives (Line.ofText text) ++ Diagnostic.ofMalformed (Line.ofText text)
      ++ Diagnostic.ofTrailing (Line.ofText text) := by
  have hstart (n : Text) : Import.known ({} : Header).imports n = true ↔ n ∈ Import.namesAfter [] :=
    Import.known_iff
  rw [ofText_eq, Line.scan_eq_ofText]
  dsimp only
  rw [Body.snd_members, Journal.diagnostics_toldAll, Header.diagnostics_read name _ hstart,
    List.append_assoc (Diagnostic.ofDirectives _), List.isEmpty_nil, Bool.not_true, Bool.false_and,
    Bool.false_or]
  rfl

theorem hidingFields_ofText (name text : Text) (t : Target) :
    (ofText name text).1.hidingFields t
      = (Line.ofText text).filterMap (Diagnostic.ofHiding? t) := by
  unfold hidingFields fields
  rw [members_ofText, Line.scan_eq_ofText]
  exact Body.renamed_made t [] (Line.ofText text)

theorem kind_ofText (name text : Text) : (ofText name text).1.kind
    = (((Line.ofText text).filterMap (·.content.kind?)).getLast?).getD .default := by
  rw [ofText_eq, Line.scan_eq_ofText]
  exact Header.kind_read name _

end Definition

namespace Compiled

/-- What compiling reports on top of reading: the fields that each enabled target renames. -/
theorem diagnostics_eq (config : Config) (name text : Text) : (compile config name text).diagnostics
    = (Definition.ofText name text).2.diagnostics
      ++ config.targets.enabled.flatMap (Definition.ofText name text).1.hidingFields := by
  show (config.targets.enabled.foldl (Definition.ofText name text).1.warnHidden
    (Definition.ofText name text).2).diagnostics = _
  rw [Definition.foldl_warnHidden, Journal.diagnostics_toldAll]

/-- **The diagnostics of a compiled definition are those of its lines**, source by source: the
directives that ask for what there is not or for what is known, malformed lines, comments at the
end, and for each enabled target the fields that it renames. Its kind is the last one asked for. -/
theorem diagnostics_compile (config : Config) (name text : Text) :
    let ls := Line.ofText text
    (compile config name text).diagnostics
        = Diagnostic.ofDirectives ls ++ Diagnostic.ofMalformed ls ++ Diagnostic.ofTrailing ls
          ++ ((if config.targets.csharp then ls.filterMap (Diagnostic.ofHiding? .csharp) else [])
            ++ if config.targets.python then ls.filterMap (Diagnostic.ofHiding? .python) else [])
      ∧ (compile config name text).kind
        = ((ls.filterMap (·.content.kind?)).getLast?).getD .recordStruct
      ∧ (compile config name text).name = name := by
  intro ls
  refine ⟨?_, Definition.kind_ofText name text, rfl⟩
  rw [diagnostics_eq, Definition.diagnostics_ofText, Targets.flatMap_enabled,
    Definition.hidingFields_ofText, Definition.hidingFields_ofText]

/-- All that may be wrong with a definition: the comment comes last in the text, and the warnings about
the two fields in the list. -/
theorem diagnostics_compile_all :
    (compile { targets := { python := true } } "Pose".toList
        ("using Rant.Messages\ntype record\tenum ;\nnamespace A\nusing A.Messages\nGeo.T x\n"
          ++ "using Geo;\nx ;;\nGeo. y\nstring Timestamp\nint timestamp\n# end").toList).diagnostics
      = [⟨.warning, some 1, "skipping duplicate namespace Rant.Messages".toList⟩,
        ⟨.error, some 2, ("unknown definition kind: expected one of class, record, struct, "
          ++ "record class, record struct, found record enum").toList⟩,
        ⟨.warning, some 4, "skipping duplicate namespace A.Messages".toList⟩,
        ⟨.warning, some 6, "skipping duplicate namespace Geo".toList⟩,
        ⟨.warning, some 7, "skipping line 7 - type or name is empty".toList⟩,
        ⟨.warning, some 8, "skipping line 8 - type or name is empty".toList⟩,
        ⟨.warning, none, "dropping trailing comment with no field after it".toList⟩,
        ⟨.warning, some 9, ("field 'Timestamp' collides with the generated timestamp; "
          ++ "renamed to 'Timestamp_' in csharp output").toList⟩,
        ⟨.warning, some 10, ("field 'timestamp' collides with the generated timestamp; "
          ++ "renamed to 'timestamp_' in python output").toList⟩] := by
  refine (diagnostics_compile _ _ _).1.trans ?_
  decide +kernel

end Compiled

end MessageCompiler
