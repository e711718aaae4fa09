import MessageCompiler.Proofs.Definition.Members

/-!
# What the lines of a definition request

A `namespace` line, a `using` line and a field of a qualified type each request a name. Here a request
is told by the words of its raw line (`Import.ofRaw?`), and the imports of a definition are said to be
its first requests: one for each name, in the order of the lines, of the kind that is asked for first.

* **`Import.qualifier?_eq_some_iff`**: the qualifier of a type is what stands before its last dot.
* **`Header.imports_read`**: through the first pass the imports are all that counts for the imports.
* **`Definition.imports_ofText_eq`**: the imports are the first requests, but for the namespace that
  every message imports.
-/

namespace MessageCompiler

open Text

namespace Import

/-! ## Requests -/

/-- The qualifier of a type: what stands before its last dot, if there is something on either side. -/
def qualifier? (type : Text) : Option Text :=
  match splitLast '.' type with
  | some (qualifier, last) => if qualifier.isEmpty || last.isEmpty then none else some qualifier
  | none => none

/-- **The qualifier of `P.T` is `P`**, where the dot is the last one and neither side is empty. -/
theorem qualifier?_eq_some_iff {type qualifier : Text} : qualifier? type = some qualifier
    ↔ ∃ last, type = qualifier ++ '.' :: last ∧ '.' ∉ last ∧ qualifier ≠ [] ∧ last ≠ [] := by
  rw [qualifier?]
  constructor
  · intro h
    by_cases hdot : '.' ∈ type
    · obtain ⟨before, last, rfl, hlast⟩ := exists_eq_append_cons_of_mem hdot
      rw [splitLast_append_cons hlast] at h
      dsimp only at h
      split at h
      · cases h
      · next hne =>
        obtain rfl := Option.some.inj h
        rw [Bool.or_eq_true, not_or, List.isEmpty_iff, List.isEmpty_iff] at hne
        exact ⟨last, rfl, hlast, hne.1, hne.2⟩
    · rw [splitLast_eq_none hdot] at h
      cases h
  · rintro ⟨last, rfl, hlast, hqualifier, hne⟩
    rw [splitLast_append_cons hlast]
    simp [hqualifier, hne]

/-- What a source line requests, if anything. A comment requests nothing, nor does a line of one
word. -/
def ofRaw? (raw : Text) : Option Import :=
  let line := trimEnd (dropEndWhile (· == ';') (trim raw))
  if "#".toList.isPrefixOf line || "//".toList.isPrefixOf line then none
  else
    match words line with
    | head :: next :: others =>
      if head = "namespace".toList then some (.home ([' '].intercalate (next :: others)))
      else if head = "using".toList then some (.uses ([' '].intercalate (next :: others)))
      else if head = "type".toList then none
      else (qualifier? head).map .uses
    | _ => none

/-- What the lines of a text request, in their order. -/
def requests (text : Text) : List Import := (lines text).filterMap ofRaw?

/-- Of some requests those for a name that no request before them is for. -/
def firsts (requests : List Import) : List Import :=
  (requests.zipIdx.filter fun (i, k) => (requests.take k).all (·.name != i.name)).map Prod.fst

theorem firsts_cons (i : Import) (rest : List Import) :
    firsts (i :: rest) = i :: (firsts rest).filter (i.name != ·.name) := by
  -- behind the first request every position is one further on
  have hzip : rest.zipIdx 1 = rest.zipIdx.map fun p => (p.1, p.2 + 1) := by
    rw [List.zipIdx_succ]
  have hlater (p : Import × Nat) : ((i :: rest).take (p.2 + 1)).all (·.name != p.1.name)
      = ((i.name != p.1.name) && (rest.take p.2).all (·.name != p.1.name)) := by
    rw [List.take_succ_cons, List.all_cons]
  rw [firsts, List.zipIdx_cons, List.filter_cons_of_pos rfl, List.map_cons, Nat.zero_add, hzip,
    List.filter_map, List.map_map, firsts, List.filter_map, List.filter_filter]
  simp only [Function.comp_def, hlater]

theorem mem_firsts_cons {i j : Import} {rest : List Import} :
    j ∈ firsts (i :: rest) ↔ j = i ∨ j ∈ firsts rest ∧ i.name ≠ j.name := by
  rw [firsts_cons, List.mem_cons, List.mem_filter, bne_iff_ne]

/-- **First requests are for different names.** -/
theorem nodup_firsts (rs : List Import) : ((firsts rs).map (·.name)).Nodup := by
  induction rs with
  | nil => exact List.nodup_nil
  | cons i rest ih =>
    rw [firsts_cons, List.map_cons, List.nodup_cons]
    refine ⟨fun hmem => ?_, ih.sublist (List.filter_sublist.map _)⟩
    obtain ⟨j, hj, hname⟩ := List.mem_map.1 hmem
    exact bne_iff_ne.1 (List.mem_filter.1 hj).2 hname.symm

/-- **A name is first requested where it is found first.** -/
theorem mem_firsts_iff {rs : List Import} {i : Import} :
    i ∈ firsts rs ↔ rs.find? (·.name == i.name) = some i := by
  induction rs with
  | nil => simp [firsts]
  | cons j rest ih =>
    rw [mem_firsts_cons, List.find?_cons, ih]
    -- the first request decides for its own name, and the others for all other names
    by_cases hname : j.name = i.name
    · simp [hname, eq_comm]
    · have hne : i ≠ j := fun h => hname (h ▸ rfl)
      rw [beq_false_of_ne hname]
      simp [hname, hne]

/-- **Each requested name is requested first by some line.** -/
theorem exists_mem_firsts_iff {rs : List Import} {name : Text} :
    (∃ i ∈ firsts rs, i.name = name) ↔ ∃ i ∈ rs, i.name = name := by
  constructor
  · rintro ⟨i, hi, hname⟩
    exact ⟨i, List.mem_of_find?_eq_some (mem_firsts_iff.1 hi), hname⟩
  · rintro ⟨i, hi, rfl⟩
    have hsome : (rs.find? (·.name == i.name)).isSome :=
      List.find?_isSome.2 ⟨i, hi, beq_self_eq_true i.name⟩
    obtain ⟨j, hj⟩ := Option.isSome_iff_exists.1 hsome
    have hname : j.name = i.name := by simpa using List.find?_some hj
    exact ⟨j, mem_firsts_iff.2 (hname ▸ hj), hname⟩

/-! ## Granting requests one by one -/

/-- The import that a line asks for, if it asks for one. -/
def ofContent? : Content → Option Import
  | .directive (.home argument) => some (.home argument)
  | .directive (.uses argument) => some (.uses argument)
  | .field type _ => (qualifier? type).map .uses
  | _ => none

/-- The imports after a request: it is granted if its name is not known yet. -/
def grant (imports : List Import) (i : Import) : List Import := (add? imports i).getD imports

/-- **Requests that are granted one by one are the first ones whose names are not known.** -/
theorem foldl_grant (imports rs : List Import) : rs.foldl grant imports
    = imports ++ (firsts rs).filter (fun i => !known imports i.name) := by
  induction rs generalizing imports with
  | nil => rw [List.foldl_nil, firsts]; simp
  | cons i rest ih =>
    rw [List.foldl_cons, ih, firsts_cons, List.filter_cons, grant, add?]
    by_cases hknown : known imports i.name = true
    · -- a later request for the same name is no better than this one
      rw [if_pos hknown, hknown, Bool.not_true, if_neg Bool.false_ne_true, Option.getD_none,
        List.filter_filter]
      congr 1
      refine List.filter_congr fun j _ => ?_
      by_cases hname : i.name = j.name
      · rw [← hname, hknown, Bool.not_true, Bool.false_and]
      · rw [bne_iff_ne.2 hname, Bool.and_true]
    · -- it is known from now on, and keeps out the later ones for its name
      rw [if_neg hknown, Bool.eq_false_iff.2 hknown, Bool.not_false, if_pos rfl, Option.getD_some,
        List.append_assoc, List.singleton_append, List.filter_filter]
      congr 2
      refine List.filter_congr fun j _ => ?_
      rw [known, known, List.any_append, List.any_cons, List.any_nil, Bool.or_false, ← Bool.or_assoc,
        Bool.not_or]
      rfl

end Import

/-! ## The first pass -/

namespace Header

theorem imports_request (name : Text) (line : Nat) (argument : Text) (i : Import) (h : Header) :
    (h.request name line argument i).imports = Import.grant h.imports i := by
  rw [request, Import.grant]
  cases Import.add? h.imports i <;> rfl

theorem imports_qualify (name : Text) (line : Nat) (qualifier : Text) (h : Header) :
    (h.qualify name line qualifier).imports = Import.grant h.imports (.uses qualifier) := by
  rw [qualify, Import.grant]
  cases Import.add? h.imports (.uses qualifier) <;> rfl

theorem imports_fieldType (name : Text) (line : Nat) (type fieldName : Text) (h : Header) :
    (h.fieldType name line type fieldName).1.imports
      = ((Import.qualifier? type).map Import.uses).toList.foldl Import.grant h.imports := by
  rw [fieldType, Import.qualifier?]
  cases splitLast '.' type with
  | none => rfl
  | some parts =>
    obtain ⟨qualifier, last⟩ := parts
    by_cases hlast : last.isEmpty
    · simp [hlast]
    by_cases hqualifier : qualifier.isEmpty
    · simp [hlast, hqualifier]
    · simp [hlast, hqualifier, imports_qualify]

/-- **A line changes the imports by its request only.** -/
theorem imports_step (name : Text) (h : Header) (line : Line) : (h.step name line).1.imports
    = (Import.ofContent? line.content).toList.foldl Import.grant h.imports := by
  rw [step]
  split
  · next hc =>
    rw [hc, setKind]
    split <;> rfl
  · next hc =>
    rw [hc]
    exact imports_request name line.number _ _ h
  · next hc =>
    rw [hc]
    exact imports_request name line.number _ _ h
  · next type fieldName hc =>
    rw [hc]
    exact imports_fieldType name line.number type fieldName h
  · next hc => rw [hc]; rfl
  · next hc => rw [hc]; rfl

/-- **The first pass grants the requests of the lines one by one.** -/
theorem imports_read (name : Text) (h : Header) (lines : List Line) :
    (h.read name lines).1.imports
      = (lines.filterMap (Import.ofContent? ·.content)).foldl Import.grant h.imports := by
  induction lines generalizing h with
  | nil => rfl
  | cons line rest ih =>
    show ((h.step name line).1.read name rest).1.imports = _
    rw [ih, imports_step, List.filterMap_cons]
    cases Import.ofContent? line.content <;> rfl

end Header

/-! ## From the raw lines to the imports -/

/-- **A raw line requests what it says**, whatever its number is. -/
theorem Import.ofRaw?_eq (number : Nat) (raw : Text) :
    (Line.ofRaw? number raw).bind (ofContent? ·.content) = ofRaw? raw := by
  rw [Line.ofRaw?_eq_map]
  unfold Content.ofRaw? ofRaw?
  dsimp only
  rw [← Line.significant]
  cases "#".toList.isPrefixOf (Line.significant raw) with
  | true => rfl
  | false =>
    cases "//".toList.isPrefixOf (Line.significant raw) with
    | true => rfl
    | false =>
      rcases words (Line.significant raw) with _ | ⟨head, _ | ⟨next, others⟩⟩
      · rfl
      · rfl
      · -- the first word tells the directives, and a line of any other is a field
        simp only [Content.ofWords, Bool.false_eq_true, if_false]
        by_cases htype : head = "type".toList
        · subst htype
          rfl
        by_cases hnamespace : head = "namespace".toList
        · simp only [hnamespace, if_true]
          rfl
        by_cases husing : head = "using".toList
        · simp only [husing, if_true]
          rfl
        · simp only [htype, hnamespace, husing, if_false]
          rfl

/-- **The imports of a definition are the first requests of its lines**, but for the namespace that
every message imports. -/
theorem Definition.imports_ofText_eq (name text : Text) : (ofText name text).1.imports
    = (Import.firsts (Import.requests text)).filter (·.name != messageModule) := by
  have hrequests : (Line.scan text).filterMap (Import.ofContent? ·.content) = Import.requests text := by
    -- what a line requests does not depend on its number
    have hraws : ((lines text).zipIdx 1).filterMap (Import.ofRaw? ∘ Prod.fst)
        = (lines text).filterMap Import.ofRaw? := by
      rw [← List.filterMap_map, List.zipIdx_map_fst]
    rw [Line.scan_eq_filterMap, List.filterMap_filterMap, Import.requests, ← hraws]
    simp only [Import.ofRaw?_eq]
    rfl
  rw [ofText_eq]
  dsimp only
  rw [Header.imports_read, hrequests, Import.foldl_grant, List.nil_append]
  refine List.filter_congr fun i _ => ?_
  rw [Import.known, List.any_nil, Bool.or_false]
  rfl

end MessageCompiler
