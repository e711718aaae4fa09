import MessageCompiler.Proofs.Definition.Members

/-!
# Writing a definition down and reading it again

A `Draft` is a definition to be written: its kind, the imports that it asks for, and its fields with
their documentation. Its source has a line for the kind, one for each import, and for each field the
lines of its documentation before its own.

* **`ofRaw?_kindLine`, `Request.ofRaw?_line`, `FieldDraft.ofRaw?_line`, `ofRaw?_docLine`**: every
  kind of line is scanned as what it was written for.
* **`Header.read_requests`**: the first pass takes over all requests, since their names differ.
* **`Body.members_fields`**: the second pass gives every field its own documentation.
* **`ofText_source`**: a well-formed draft is read again as it was written, and nothing is reported.
-/

namespace MessageCompiler

open Text

/-! ## Drafts -/

/-- An import that a draft asks for. -/
structure Request where
  kind : ImportKind
  argument : Text
  deriving DecidableEq, Repr

namespace Request

/-- The first word of the line that asks for an import. -/
def head : ImportKind → Text
  | .home => "namespace".toList
  | .uses => "using".toList

/-- The line that asks for an import. -/
def line (r : Request) : Text := head r.kind ++ ' ' :: r.argument

def directive (r : Request) : Directive :=
  match r.kind with
  | .home => .home r.argument
  | .uses => .uses r.argument

/-- The import that is asked for: the namespace of the messages in the one that a `namespace` line
names, and what a `using` line names as it is. -/
def wanted (r : Request) : Import :=
  match r.kind with
  | .home => ⟨.home, r.argument ++ ".Messages".toList⟩
  | .uses => ⟨.uses, r.argument⟩

/-- The argument is words joined by single spaces, and does not end in a semicolon. -/
structure WellFormed (r : Request) : Prop where
  words : ∃ ws, ws ≠ [] ∧ (∀ w ∈ ws, IsWord w) ∧ r.argument = [' '].intercalate ws
  last : r.argument.getLast? ≠ some ';'

end Request

/-- A comment of a draft: within a line, without blanks around it, and without a semicolon at its
end. -/
structure IsDoc (doc : Text) : Prop where
  line : '\n' ∉ doc
  head : HeadNotBlank doc
  last : ∀ c, doc.getLast? = some c → isBlank c = false ∧ c ≠ ';'

/-- A field that a draft declares. -/
structure FieldDraft where
  type : Text
  name : Text
  docs : List Text
  deriving DecidableEq, Repr

namespace FieldDraft

def docLine (doc : Text) : Text := '#' :: ' ' :: doc

def line (f : FieldDraft) : Text := f.type ++ ' ' :: f.name

/-- The lines of a field, those of its documentation first. -/
def lines (f : FieldDraft) : List Text := f.docs.map docLine ++ [f.line]

/-- The type is a word without a dot that starts neither a comment nor a directive, the name a word
that does not end in a semicolon. -/
structure WellFormed (f : FieldDraft) : Prop where
  type_word : IsWord f.type
  type_dot : '.' ∉ f.type
  type_hash : ¬ "#".toList <+: f.type
  type_slashes : ¬ "//".toList <+: f.type
  type_free : f.type ∉ Directive.heads
  name_word : IsWord f.name
  name_last : f.name.getLast? ≠ some ';'
  docs : ∀ doc ∈ f.docs, IsDoc doc

/-- The members that fields become whose first line has the given number. -/
def members (number : Nat) : List FieldDraft → List Member
  | [] => []
  | f :: fs =>
    .field ⟨number + f.docs.length, f.type, f.name, f.docs⟩
      :: members (number + f.docs.length + 1) fs

end FieldDraft

/-- A definition to be written. -/
structure Draft where
  kind : Kind
  requests : List Request
  fields : List FieldDraft
  deriving DecidableEq, Repr

namespace Draft

def kindLine : Kind → Text
  | .classType => "type class".toList
  | .recordType => "type record".toList
  | .structType => "type struct".toList
  | .recordClass => "type record class".toList
  | .recordStruct => "type record struct".toList

def lines (d : Draft) : List Text :=
  kindLine d.kind :: (d.requests.map Request.line ++ d.fields.flatMap FieldDraft.lines)

def source (d : Draft) : Text := ['\n'].intercalate d.lines

def imports (d : Draft) : List Import := d.requests.map Request.wanted

/-- The members of a draft, each numbered as its line is in the source. -/
def members (d : Draft) : List Member := FieldDraft.members (2 + d.requests.length) d.fields

/-- Requests and fields are well-formed, and no two imports have one name, nor has any the name of
the namespace that every message imports. -/
structure WellFormed (d : Draft) : Prop where
  requests : ∀ r ∈ d.requests, r.WellFormed
  names_distinct : (d.imports.map (·.name)).Nodup
  names_new : ∀ i ∈ d.imports, i.name ≠ "Rant.Messages".toList
  fields : ∀ f ∈ d.fields, f.WellFormed

end Draft

/-! ## Line by line -/

theorem Draft.ofRaw?_kindLine (number : Nat) (kind : Kind) :
    Line.ofRaw? number (kindLine kind) = some ⟨number, .directive (.kind kind.name)⟩ := by
  cases kind <;> rfl

namespace Request

theorem ofRaw?_line {r : Request} (hr : r.WellFormed) (number : Nat) :
    Line.ofRaw? number r.line = some ⟨number, .directive r.directive⟩ := by
  obtain ⟨ws, hne, hws, hargument⟩ := hr.words
  obtain ⟨first, others, rfl⟩ := List.exists_cons_of_ne_nil hne
  have hhead : IsWord (head r.kind) := by
    cases r.kind <;> decide
  have hcomment : Line.comment? r.line = none := by
    rw [line]
    cases r.kind <;> rfl
  have hline : r.line = [' '].intercalate (head r.kind :: first :: others) := by
    rw [List.intercalate_cons_cons, ← hargument, List.append_assoc]
    rfl
  have hlast : r.line.getLast? ≠ some ';' := by
    have hargument_ne : r.argument ≠ [] := fun heq => by
      have hwords := words_intercalate hws
      rw [← hargument, heq] at hwords
      exact List.cons_ne_nil _ _ hwords.symm
    rw [line, List.getLast?_append_of_ne_nil _ (List.cons_ne_nil _ _),
      List.getLast?_cons_of_ne_nil hargument_ne]
    exact hr.last
  -- what the line says is told by its words, which are those of the argument after the first
  rw [hline] at hcomment hlast ⊢
  rw [Line.ofRaw?_intercalate number (List.cons_ne_nil _ _) ?_ hcomment hlast, directive, hargument]
  · cases r.kind <;> rfl
  · intro w hw
    rcases List.mem_cons.1 hw with rfl | hw
    · exact hhead
    · exact hws w hw

end Request

namespace FieldDraft

theorem ofRaw?_docLine {doc : Text} (hdoc : IsDoc doc) (number : Nat) :
    Line.ofRaw? number (docLine doc) = some ⟨number, .comment doc⟩ := by
  by_cases hne : doc = []
  · subst hne
    rfl
  have hself : Line.significant (docLine doc) = docLine doc := by
    refine Line.significant_eq_self (fun c hc => ?_) fun c hc => hdoc.last c ?_
    · rw [← Option.some.inj hc]
      rfl
    · rwa [docLine, List.getLast?_cons_cons, List.getLast?_cons_of_ne_nil hne] at hc
  have htrim : trim (' ' :: doc) = doc := by
    rw [trim, trimStart, List.dropWhile_cons_of_pos rfl]
    exact trim_eq_self hdoc.head fun c hc => (hdoc.last c hc).1
  rw [Line.ofRaw?, hself]
  show some (Line.mk number (.comment (trim (' ' :: doc)))) = _
  rw [htrim]

theorem ofRaw?_line {f : FieldDraft} (hf : f.WellFormed) (number : Nat) :
    Line.ofRaw? number f.line = some ⟨number, .field f.type f.name⟩ := by
  have hline : f.line = [' '].intercalate [f.type, f.name] := by
    simp [line, List.intercalate_cons_cons]
  have hcomment : Line.comment? f.line = none := by
    have htype : f.type <+: f.line := List.prefix_append f.type _
    rw [Line.comment?_eq_none_iff, Bool.or_eq_false_iff, Bool.eq_false_iff, Bool.eq_false_iff]
    refine ⟨fun h => hf.type_hash ?_, fun h => ?_⟩
    · exact List.prefix_of_prefix_length_le (List.isPrefixOf_iff_prefix.1 h) htype
        (List.length_pos_iff.2 hf.type_word.ne_nil)
    · -- of a type that is a single slash, the second character of the line is the space
      by_cases hlength : 2 ≤ f.type.length
      · exact hf.type_slashes
          (List.prefix_of_prefix_length_le (List.isPrefixOf_iff_prefix.1 h) htype hlength)
      · obtain ⟨c, rest, hcons⟩ := List.exists_cons_of_ne_nil hf.type_word.ne_nil
        have hrest : rest = [] := List.eq_nil_of_length_eq_zero (by
          rw [hcons, List.length_cons] at hlength
          omega)
        rw [line, hcons, hrest] at h
        simp at h
  have hlast : f.line.getLast? ≠ some ';' := by
    rw [line, List.getLast?_append_of_ne_nil _ (List.cons_ne_nil _ _),
      List.getLast?_cons_of_ne_nil hf.name_word.ne_nil]
    exact hf.name_last
  rw [hline] at hcomment hlast ⊢
  rw [Line.ofRaw?_intercalate number (List.cons_ne_nil _ _) ?_ hcomment hlast,
    Content.ofWords_of_not_mem_heads hf.type_free]
  intro w hw
  rcases List.mem_cons.1 hw with rfl | hw
  · exact hf.type_word
  · rw [List.mem_singleton.1 hw]
    exact hf.name_word

end FieldDraft

/-! ## No line of a draft is two -/

theorem Draft.lf_not_mem_kindLine (kind : Kind) : '\n' ∉ kindLine kind := by
  cases kind <;> decide

theorem Request.lf_not_mem_line {r : Request} (hr : r.WellFormed) : '\n' ∉ r.line := by
  obtain ⟨ws, -, hws, hargument⟩ := hr.words
  have hhead : '\n' ∉ head r.kind := by
    cases r.kind <;> decide
  rw [line, hargument]
  simp [hhead, Line.lf_not_mem_intercalate hws]

theorem FieldDraft.lf_not_mem_lines {f : FieldDraft} (hf : f.WellFormed) :
    ∀ l ∈ f.lines, '\n' ∉ l := by
  intro l hl
  rcases List.mem_append.1 hl with hl | hl
  · obtain ⟨doc, hdoc, rfl⟩ := List.mem_map.1 hl
    simp [docLine, (hf.docs doc hdoc).line]
  · rw [List.mem_singleton.1 hl, line]
    simp [hf.type_word.solid.not_mem (c := '\n') rfl, hf.name_word.solid.not_mem (c := '\n') rfl]

/-- **The lines of the source are the lines of the draft.** -/
theorem Draft.lines_source {d : Draft} (hd : d.WellFormed) : Text.lines d.source = d.lines := by
  refine lines_intercalate (List.cons_ne_nil _ _) fun l hl => ?_
  rcases List.mem_cons.1 hl with rfl | hl
  · exact lf_not_mem_kindLine d.kind
  rcases List.mem_append.1 hl with hl | hl
  · obtain ⟨r, hr, rfl⟩ := List.mem_map.1 hl
    exact Request.lf_not_mem_line (hd.requests r hr)
  · obtain ⟨f, hf, hl⟩ := List.mem_flatMap.1 hl
    exact FieldDraft.lf_not_mem_lines (hd.fields f hf) l hl

/-! ## The first pass -/

namespace Header

theorem read_fst_append (name : Text) (h : Header) (ls ls' : List Line) :
    (h.read name (ls ++ ls')).1 = ((h.read name ls).1.read name ls').1 := by
  induction ls generalizing h with
  | nil => rfl
  | cons line rest ih => exact ih (h.step name line).1

theorem setKind_name (name : Text) (number : Nat) (kind : Kind) (h : Header) :
    h.setKind name number kind.name = { h with kind } := by
  rw [setKind, Kind.ofName, Kind.ofName?_name]

theorem step_request (name : Text) (number : Nat) (r : Request) {h : Header}
    (hnew : Import.known h.imports r.wanted.name = false) :
    (h.step name ⟨number, .directive r.directive⟩).1
      = { h with imports := h.imports ++ [r.wanted] } := by
  have hadd : Import.add? h.imports r.wanted = some (h.imports ++ [r.wanted]) := by
    rw [Import.add?, hnew, if_neg Bool.false_ne_true]
  obtain ⟨kind, argument⟩ := r
  cases kind with
  | home =>
    show h.request name number argument (.home argument) = _
    rw [request, show Import.add? h.imports (.home argument) = _ from hadd]
  | uses =>
    show h.request name number argument (.uses argument) = _
    rw [request, show Import.add? h.imports (.uses argument) = _ from hadd]

/-- **The first pass takes over all requests**: each name is new when its turn comes. -/
theorem read_requests (name : Text) {rs : List Request} (hrs : ∀ r ∈ rs, r.WellFormed)
    (number : Nat) {h : Header}
    (hdistinct : ((h.imports ++ rs.map Request.wanted).map (·.name)).Nodup)
    (hnew : ∀ r ∈ rs, r.wanted.name ≠ messageModule) :
    (h.read name (Line.scanFrom number (rs.map Request.line))).1
      = { h with imports := h.imports ++ rs.map Request.wanted } := by
  induction rs generalizing number h with
  | nil =>
    show h = { h with imports := h.imports ++ [] }
    rw [List.append_nil]
  | cons r rest ih =>
    have hr := Request.ofRaw?_line (hrs r List.mem_cons_self) number
    -- neither an import before it nor the one that every message has goes by this name
    have hknown : Import.known h.imports r.wanted.name = false := by
      rw [List.map_append, List.map_cons, List.map_cons] at hdistinct
      rw [Import.known, beq_false_of_ne (hnew r List.mem_cons_self), Bool.false_or,
        List.any_eq_false]
      intro i hi hbeq
      exact (List.nodup_append.1 hdistinct).2.2 i.name (List.mem_map_of_mem hi) r.wanted.name
        List.mem_cons_self (eq_of_beq hbeq)
    have hgranted := step_request name number r hknown
    rw [List.map_cons, Line.scanFrom_cons_of_some hr]
    show ((h.step name ⟨number, .directive r.directive⟩).1.read name _).1 = _
    rw [hgranted, ih]
    · simp
    · exact fun r hr => hrs r (List.mem_cons_of_mem _ hr)
    · simpa using hdistinct
    · exact fun r hr => hnew r (List.mem_cons_of_mem _ hr)

/-- Comments and fields of unqualified types leave the header as it is. -/
theorem read_fst_eq_self (name : Text) {ls : List Line} (h : Header)
    (hls : ∀ l ∈ ls, (∃ text, l.content = .comment text)
      ∨ ∃ type fieldName, l.content = .field type fieldName ∧ '.' ∉ type) :
    (h.read name ls).1 = h := by
  induction ls with
  | nil => rfl
  | cons line rest ih =>
    have hstep : (h.step name line).1 = h := by
      obtain ⟨number, content⟩ := line
      rcases hls _ List.mem_cons_self with ⟨text, rfl⟩ | ⟨type, fieldName, rfl, hdot⟩
      · rfl
      · show (h.fieldType name number type fieldName).1 = h
        rw [fieldType, splitLast_eq_none hdot]
    show ((h.step name line).1.read name rest).1 = h
    rw [hstep]
    exact ih fun l hl => hls l (List.mem_cons_of_mem _ hl)

end Header

/-- The lines of well-formed fields are scanned as comments and as fields of unqualified types. -/
theorem FieldDraft.content_of_mem_scanFrom {fs : List FieldDraft} (hfs : ∀ f ∈ fs, f.WellFormed)
    {number : Nat} {l : Line} (hl : l ∈ Line.scanFrom number (fs.flatMap FieldDraft.lines)) :
    (∃ text, l.content = .comment text)
      ∨ ∃ type fieldName, l.content = .field type fieldName ∧ '.' ∉ type := by
  rw [Line.scanFrom_eq_filterMap] at hl
  obtain ⟨⟨raw, k⟩, hmem, hraw⟩ := List.mem_filterMap.1 hl
  obtain ⟨f, hf, hline⟩ := List.mem_flatMap.1 (List.fst_mem_of_mem_zipIdx hmem)
  have hwell := hfs f hf
  rcases List.mem_append.1 hline with hline | hline
  · obtain ⟨doc, hdoc, rfl⟩ := List.mem_map.1 hline
    rw [ofRaw?_docLine (hwell.docs doc hdoc)] at hraw
    rw [← Option.some.inj hraw]
    exact .inl ⟨doc, rfl⟩
  · rw [List.mem_singleton.1 hline, ofRaw?_line hwell] at hraw
    rw [← Option.some.inj hraw]
    exact .inr ⟨f.type, f.name, rfl, hwell.type_dot⟩

/-! ## The second pass -/

theorem Request.filterMap_ofLine?_eq_nil {rs : List Request} (hrs : ∀ r ∈ rs, r.WellFormed)
    (number : Nat) :
    (Line.scanFrom number (rs.map Request.line)).filterMap BodyLine.ofLine? = [] := by
  induction rs generalizing number with
  | nil => rfl
  | cons r rest ih =>
    rw [List.map_cons, Line.scanFrom_cons_of_some (ofRaw?_line (hrs r List.mem_cons_self) number),
      List.filterMap_cons_none rfl]
    exact ih (fun r hr => hrs r (List.mem_cons_of_mem _ hr)) (number + 1)

namespace Body

/-- The comments before a field wait for it, one after the other. -/
theorem members_docs (name : Text) {docs : List Text} (hdocs : ∀ doc ∈ docs, IsDoc doc)
    (waiting : List Text) (j : Journal) (number : Nat) (raws : List Text) :
    members name waiting j ((Line.scanFrom number (docs.map FieldDraft.docLine ++ raws)).filterMap
        BodyLine.ofLine?)
      = members name (waiting ++ docs) j ((Line.scanFrom (number + docs.length) raws).filterMap
        BodyLine.ofLine?) := by
  induction docs generalizing waiting number with
  | nil => simp
  | cons doc rest ih =>
    have hdoc := FieldDraft.ofRaw?_docLine (hdocs doc List.mem_cons_self) number
    rw [List.map_cons, List.cons_append, Line.scanFrom_cons_of_some hdoc]
    show members name (waiting ++ [doc]) j _ = _
    rw [ih (fun d hd => hdocs d (List.mem_cons_of_mem _ hd)), List.append_assoc,
      List.singleton_append, List.length_cons, Nat.add_right_comm number 1, Nat.add_assoc number]

/-- **The second pass gives every field its own documentation**, and nothing is left to report. -/
theorem members_fields (name : Text) {fs : List FieldDraft} (hfs : ∀ f ∈ fs, f.WellFormed)
    (j : Journal) (number : Nat) :
    members name [] j
        ((Line.scanFrom number (fs.flatMap FieldDraft.lines)).filterMap BodyLine.ofLine?)
      = (FieldDraft.members number fs, j) := by
  induction fs generalizing number with
  | nil => rfl
  | cons f rest ih =>
    have hf := hfs f List.mem_cons_self
    have hrest := ih (fun g hg => hfs g (List.mem_cons_of_mem _ hg)) (number + f.docs.length + 1)
    have hkept : ofField f.type f.name = .field f.type f.name := by
      rw [ofField, splitLast_eq_none hf.type_dot]
    rw [List.flatMap_cons, FieldDraft.lines, List.append_assoc, members_docs name hf.docs,
      List.singleton_append, Line.scanFrom_cons_of_some (FieldDraft.ofRaw?_line hf _)]
    show members name f.docs j (⟨number + f.docs.length, ofField f.type f.name⟩ :: _) = _
    rw [hkept, members, hrest]
    rfl

end Body

theorem FieldDraft.line_of_mem_members {fs : List FieldDraft} {number : Nat} {f : Field}
    (h : .field f ∈ FieldDraft.members number fs) : ∃ k, f.line = number + k
      ∧ (fs.flatMap FieldDraft.lines)[k]? = some (f.type ++ ' ' :: f.name) := by
  induction fs generalizing number with
  | nil => exact absurd h List.not_mem_nil
  | cons g rest ih =>
    rcases List.mem_cons.1 h with h | h
    · rw [Member.field.inj h]
      refine ⟨g.docs.length, rfl, ?_⟩
      rw [List.flatMap_cons, lines, List.append_assoc]
      simp [line]
    · obtain ⟨k, hline, hk⟩ := ih h
      refine ⟨g.docs.length + 1 + k, by omega, ?_⟩
      have hlength : g.lines.length = g.docs.length + 1 := by simp [lines]
      rw [List.flatMap_cons, ← hlength, List.getElem?_append_right (Nat.le_add_right _ _),
        Nat.add_sub_cancel_left]
      exact hk

/-! ## The round trip -/

/-- **A definition that was written down is read again as it was**: the kind, the imports in their
order, and the fields in their order with their documentation, each numbered with the line that it
stands on. No line is malformed, and nothing is reported or even remarked. -/
theorem Definition.ofText_source (name : Text) {d : Draft} (hd : d.WellFormed) :
    ofText name d.source = (⟨name, d.kind, d.imports, d.members⟩, {})
      ∧ ∀ f, .field f ∈ d.members → ∃ k, f.line = k + 1
        ∧ (Text.lines d.source)[k]? = some (f.type ++ ' ' :: f.name) := by
  have hscan : Line.scan d.source = ⟨1, .directive (.kind d.kind.name)⟩
      :: (Line.scanFrom 2 (d.requests.map Request.line)
        ++ Line.scanFrom (2 + d.requests.length) (d.fields.flatMap FieldDraft.lines)) := by
    rw [Line.scan, d.lines_source hd, Draft.lines,
      Line.scanFrom_cons_of_some (Draft.ofRaw?_kindLine 1 d.kind), Line.scanFrom_append,
      List.length_map]
  constructor
  · -- the header comes from the first lines alone, and the members from the last ones alone
    have hnew : ∀ r ∈ d.requests, r.wanted.name ≠ messageModule := fun r hr =>
      hd.names_new r.wanted (List.mem_map_of_mem hr)
    have hheader : (({} : Header).read name (Line.scan d.source)).1
        = { kind := d.kind, imports := d.imports } := by
      rw [hscan]
      show (((({} : Header).setKind name 1 d.kind.name).read name _).1 : Header) = _
      rw [Header.setKind_name, Header.read_fst_append,
        Header.read_requests name hd.requests 2 (h := { kind := d.kind }) hd.names_distinct hnew]
      exact Header.read_fst_eq_self name _ fun l hl =>
        FieldDraft.content_of_mem_scanFrom hd.fields hl
    have hrequests : (Line.scanFrom 2 (d.requests.map Request.line)).filterMap BodyLine.ofLine? = [] :=
      Request.filterMap_ofLine?_eq_nil hd.requests 2
    have hmembers : Body.members name [] {} ((Line.scan d.source).filterMap BodyLine.ofLine?)
        = (d.members, {}) := by
      rw [hscan, List.filterMap_cons_none rfl, List.filterMap_append, hrequests, List.nil_append,
        Body.members_fields name hd.fields]
      rfl
    rw [ofText_eq, hheader]
    exact congrArg (fun made : List Member × Journal =>
      (Definition.mk name d.kind d.imports made.1, made.2)) hmembers
  · intro f hf
    obtain ⟨k, hline, hk⟩ := FieldDraft.line_of_mem_members hf
    refine ⟨d.requests.length + 1 + k, by omega, ?_⟩
    have hlength : (Draft.kindLine d.kind :: d.requests.map Request.line).length
        = d.requests.length + 1 := by simp
    rw [d.lines_source hd, Draft.lines, ← List.cons_append, ← hlength,
      List.getElem?_append_right (Nat.le_add_right _ _), Nat.add_sub_cancel_left]
    exact hk

/-- A pose with a home of two words, an import, and documentation of which one comment is empty. -/
def Draft.pose : Draft where
  kind := .recordClass
  requests := [⟨.home, "Robot Arm".toList⟩, ⟨.uses, "Geo".toList⟩]
  fields := [⟨"Point".toList, "at".toList, ["In metres.".toList, []]⟩, ⟨"int".toList, "id".toList, []⟩]

theorem Draft.wellFormed_pose : pose.WellFormed where
  requests r hr := by
    simp only [pose, List.mem_cons, List.not_mem_nil, or_false] at hr
    rcases hr with rfl | rfl
    · exact ⟨⟨["Robot".toList, "Arm".toList], by decide, by decide, by decide⟩, by decide⟩
    · exact ⟨⟨["Geo".toList], by decide, by decide, by decide⟩, by decide⟩
  names_distinct := by decide
  names_new := by decide
  fields f hf := by
    simp only [pose, List.mem_cons, List.not_mem_nil, or_false] at hf
    rcases hf with rfl | rfl
    · refine ⟨by decide, by decide, by decide, by decide, by decide, by decide, by decide, ?_⟩
      intro doc hdoc
      simp only [List.mem_cons, List.not_mem_nil, or_false] at hdoc
      rcases hdoc with rfl | rfl
      · exact ⟨by decide, fun c hc => by simp at hc; subst hc; rfl,
          fun c hc => by simp at hc; subst hc; decide⟩
      · exact ⟨by decide, fun c hc => by simp at hc, fun c hc => by simp at hc⟩
    · exact ⟨by decide, by decide, by decide, by decide, by decide, by decide, by decide, by simp⟩

theorem Definition.ofText_source_pose :
    ofText "Pose".toList ("type record class\nnamespace Robot Arm\nusing Geo\n"
        ++ "# In metres.\n# \nPoint at\nint id").toList
      = (⟨"Pose".toList, .recordClass,
          [⟨.home, "Robot Arm.Messages".toList⟩, ⟨.uses, "Geo".toList⟩],
          [.field ⟨6, "Point".toList, "at".toList, ["In metres.".toList, []]⟩,
            .field ⟨7, "int".toList, "id".toList, []⟩]⟩, {}) :=
  (ofText_source "Pose".toList Draft.wellFormed_pose).1

end MessageCompiler
