import MessageCompiler.Path.Definition
import MessageCompiler.Proofs.Text.Lines

/-!
# What counts of a path

Two paths that differ in idle segments only lead to the same place. `Path.steps` is what is left of
a path without them; here joining a name, and going up to the parent, are told by steps.

* **`steps_join`**: joining a name to a path is one more step.
* **`steps_spelled`**: a path that is spelled anew keeps its steps.
* **`defaultOutput_join`**: the default output of a file is one step below the file's folder.
* **`cutName_append`, `isDefinitionName_iff`**: where a name is cut, and which names definitions have.
-/

namespace MessageCompiler.Path

open Text

/-- A segment that names something in a folder. -/
structure IsName (name : Utf8.Bytes) : Prop where
  ne_nil : name ≠ []
  no_slash : slash ∉ name
  ne_here : name ≠ here
  ne_up : name ≠ up

instance : DecidablePred IsName := fun name =>
  decidable_of_iff (name ≠ [] ∧ slash ∉ name ∧ name ≠ here ∧ name ≠ up)
    ⟨fun ⟨h, h', h'', h'''⟩ => ⟨h, h', h'', h'''⟩,
      fun h => ⟨h.ne_nil, h.no_slash, h.ne_here, h.ne_up⟩⟩

theorem IsName.isIdle_eq_false {name : Utf8.Bytes} (h : IsName name) : isIdle name = false := by
  simp [isIdle, h.ne_nil, h.ne_here]

theorem isAbsolute_eq_false {p : Path} (h : slash ∉ p) : p.isAbsolute = false := by
  cases p with
  | nil => rfl
  | cons c rest =>
    have hc : c ≠ slash := fun heq => h (heq ▸ List.mem_cons_self)
    simpa [isAbsolute] using hc

/-- The segments that are not idle. -/
def steps (p : Path) : List Utf8.Bytes := (segments p).filter (!isIdle ·)

/-! ## Segments -/

theorem segments_ne_nil (p : Path) : segments p ≠ [] := splitWhen_ne_nil _ p

theorem slash_not_mem_of_mem_segments {p : Path} {segment : Utf8.Bytes} (h : segment ∈ segments p) :
    slash ∉ segment := by
  intro hmem
  have := eq_false_of_mem_splitWhen h slash hmem
  simp at this

theorem segments_append_slash (p q : Path) : segments (p ++ slash :: q) = segments p ++ segments q :=
  splitWhen_append_cons (p := (· == slash)) (beq_self_eq_true slash) p q

theorem segments_eq_singleton {p : Path} (h : slash ∉ p) : segments p = [p] :=
  splitWhen_eq_singleton fun _ hc => beq_false_of_ne fun heq => h (heq ▸ hc)

theorem segments_intercalate {ss : List Utf8.Bytes} (hne : ss ≠ []) (h : ∀ s ∈ ss, slash ∉ s) :
    segments ([slash].intercalate ss) = ss :=
  splitWhen_intercalate (p := (· == slash)) (beq_self_eq_true slash) hne fun s hs _ hc =>
    beq_false_of_ne fun heq => h s hs (heq ▸ hc)

/-- The segments of a path are empty, or a name with something in it is the last that is not. -/
theorem segments_cases (p : Path) : (∀ s ∈ p.segments, s = [])
    ∨ ∃ outer name k, p.segments = outer ++ name :: List.replicate k [] ∧ name ≠ [] := by
  rcases hdrop : p.segments.reverse.dropWhile (·.isEmpty) with _ | ⟨name, outer⟩
  · refine .inl fun s hs => ?_
    simpa using List.dropWhile_eq_nil_iff.1 hdrop s (List.mem_reverse.2 hs)
  have hname : name.isEmpty = false := by
    have := List.head?_dropWhile_not (·.isEmpty) p.segments.reverse
    rw [hdrop] at this
    simpa using this
  obtain ⟨k, hempty⟩ : ∃ k, p.segments.reverse.takeWhile (·.isEmpty) = List.replicate k [] :=
    ⟨_, List.eq_replicate_of_mem fun s hs => by simpa using List.mem_takeWhile_imp hs⟩
  have hcut := List.takeWhile_append_dropWhile (p := (·.isEmpty)) (l := p.segments.reverse)
  rw [hdrop, hempty] at hcut
  have hreverse := congrArg List.reverse hcut
  rw [List.reverse_reverse] at hreverse
  refine .inr ⟨outer.reverse, name, k, ?_, by simpa using hname⟩
  rw [← hreverse]
  simp

theorem dropWhile_segments {p : Path} {outer : List Utf8.Bytes} {name : Utf8.Bytes} {k : Nat}
    (h : p.segments = outer ++ name :: List.replicate k []) (hne : name ≠ []) :
    p.segments.reverse.dropWhile (·.isEmpty) = name :: outer.reverse := by
  have hempty : ∀ s ∈ List.replicate k ([] : Utf8.Bytes), s.isEmpty = true := fun s hs => by
    rw [List.eq_of_mem_replicate hs]
    rfl
  rw [h, List.reverse_append, List.reverse_cons, List.reverse_replicate, List.append_assoc,
    List.dropWhile_append_of_pos hempty, List.singleton_append,
    List.dropWhile_cons_of_neg (by simpa using hne)]

theorem join_nil (p : Path) : join [] p = p := by
  rw [join]
  split
  · rfl
  · rfl

/-- The segments of a path with any name joined to it: an empty segment at the end gives way. -/
theorem segments_join {base : Path} (hbase : base ≠ []) : ∃ ss, ss ≠ []
    ∧ (segments base = ss ∨ segments base = ss ++ [[]])
    ∧ ∀ {name : Utf8.Bytes}, IsName name → segments (base.join name) = ss ++ [name] := by
  have hjoin {name : Utf8.Bytes} (hname : IsName name) : base.join name
      = if base.getLast? = some slash then base ++ name else base ++ [slash] ++ name := by
    rw [join, isAbsolute_eq_false hname.no_slash, if_neg Bool.false_ne_true]
    simp [hbase]
  by_cases hend : base.getLast? = some slash
  · obtain ⟨b, rfl⟩ := List.getLast?_eq_some_iff.1 hend
    refine ⟨segments b, segments_ne_nil b, .inr (segments_append_slash b []), fun hname => ?_⟩
    rw [hjoin hname, if_pos hend, List.append_assoc, List.singleton_append, segments_append_slash,
      segments_eq_singleton hname.no_slash]
  · refine ⟨segments base, segments_ne_nil base, .inl rfl, fun hname => ?_⟩
    rw [hjoin hname, if_neg hend, List.append_assoc, List.singleton_append, segments_append_slash,
      segments_eq_singleton hname.no_slash]

/-- The path of a folder, where the empty path is that of the folder that one is in. -/
def orHere (folder : Path) : Path := if folder.isEmpty then here else folder

theorem orHere_nil : orHere [] = here := rfl

theorem orHere_of_ne_nil {folder : Path} (h : folder ≠ []) : folder.orHere = folder :=
  if_neg (by simpa using h)

theorem segments_here_join {name : Utf8.Bytes} (hname : IsName name) :
    segments (join here name) = [here, name] := by
  have hjoin : join here name = here ++ slash :: name := by
    rw [join, isAbsolute_eq_false hname.no_slash, if_neg Bool.false_ne_true]
    rfl
  rw [hjoin, segments_append_slash, segments_eq_singleton hname.no_slash]
  rfl

theorem filter_replicate_nil (k : Nat) :
    (List.replicate k ([] : Utf8.Bytes)).filter (!isIdle ·) = [] := by
  refine List.filter_eq_nil_iff.2 fun s hs => ?_
  rw [List.eq_of_mem_replicate hs]
  decide

theorem steps_of_segments {p : Path} {outer : List Utf8.Bytes} {name : Utf8.Bytes} {k : Nat}
    (h : p.segments = outer ++ name :: List.replicate k []) :
    p.steps = outer.filter (!isIdle ·) ++ [name].filter (!isIdle ·) := by
  rw [steps, h, List.append_cons, List.filter_append, List.filter_append, filter_replicate_nil,
    List.append_nil]

/-- An empty segment at the end is no step. -/
theorem steps_eq_filter {p : Path} {ss : List Utf8.Bytes}
    (h : segments p = ss ∨ segments p = ss ++ [[]]) : steps p = ss.filter (!isIdle ·) := by
  rcases h with h | h
  · rw [steps, h]
  · rw [steps, h, List.filter_append]
    simp [isIdle]

/-- **Joining a name is one more step.** -/
theorem steps_join {base : Path} (hbase : base ≠ []) {name : Utf8.Bytes} (hname : IsName name) :
    steps (base.join name) = steps base ++ [name] := by
  obtain ⟨ss, -, hss, hjoin⟩ := segments_join hbase
  rw [steps_eq_filter hss, steps, hjoin hname, List.filter_append]
  simp [hname.isIdle_eq_false]

theorem join_ne_nil (base : Path) {name : Utf8.Bytes} (hname : IsName name) :
    base.join name ≠ [] := by
  have hne := hname.ne_nil
  rw [join]
  split
  · exact hne
  split
  · simp [hne]
  · simp

theorem isAbsolute_join {base : Path} (hbase : base ≠ []) {name : Utf8.Bytes}
    (hname : IsName name) : (base.join name).isAbsolute = base.isAbsolute := by
  obtain ⟨c, rest, rfl⟩ := List.exists_cons_of_ne_nil hbase
  rw [join, isAbsolute_eq_false hname.no_slash, if_neg Bool.false_ne_true]
  split
  · rfl
  · rfl

theorem fileName?_join (base : Path) {name : Utf8.Bytes} (hname : IsName name) :
    fileName? (base.join name) = some name := by
  have hlast : lastSegment? (base.join name) = some name := by
    by_cases hbase : base = []
    · subst hbase
      rw [join_nil, lastSegment?, segments_eq_singleton hname.no_slash]
      simp [hname.ne_nil]
    · obtain ⟨ss, hne, -, hjoin⟩ := segments_join hbase
      obtain ⟨first, rest, rfl⟩ := List.exists_cons_of_ne_nil hne
      rw [lastSegment?, hjoin hname]
      simp [hname.isIdle_eq_false]
  rw [fileName?, hlast]
  simp [Option.filter, hname.ne_here, hname.ne_up]

/-- **The file name of a path is a name**: neither the root nor a way to stay or to go up. -/
theorem isName_of_fileName? {p : Path} {name : Utf8.Bytes} (h : p.fileName? = some name) :
    IsName name := by
  obtain ⟨hlast, hne⟩ := Option.filter_eq_some_iff.1 h
  obtain ⟨hhere, hup⟩ : name ≠ here ∧ name ≠ up := by simpa using hne
  have hmem : name ∈ p.segments ∧ name ≠ [] := by
    rw [lastSegment?] at hlast
    split at hlast
    · cases hlast
    · next first rest hsegments =>
      rw [hsegments]
      split at hlast
      · -- the last segment is the first one from the right that is not idle
        next segment outer hdrop =>
        obtain rfl := Option.some.inj hlast
        have hidle : isIdle segment = false := by
          have := List.head?_dropWhile_not isIdle rest.reverse
          rw [hdrop] at this
          simpa using this
        have hrest : segment ∈ rest.reverse :=
          (List.dropWhile_suffix isIdle).subset (hdrop ▸ List.mem_cons_self)
        refine ⟨List.mem_cons_of_mem _ (List.mem_reverse.1 hrest), fun hnil => ?_⟩
        rw [hnil] at hidle
        cases hidle
      · split at hlast
        · cases hlast
        · next hfirst =>
          obtain rfl := Option.some.inj hlast
          exact ⟨List.mem_cons_self, by simpa using hfirst⟩
  exact ⟨hmem.2, slash_not_mem_of_mem_segments hmem.1, hhere, hup⟩

theorem join_injective {base : Path} {name name' : Utf8.Bytes} (hname : IsName name)
    (hname' : IsName name') (h : base.join name = base.join name') : name = name' := by
  have hfile := fileName?_join base hname
  rw [h, fileName?_join base hname'] at hfile
  exact (Option.some.inj hfile).symm

/-! ## Spelling a path anew -/

section Spelled

variable {first : Utf8.Bytes} {rest : List Utf8.Bytes}

theorem segments_spelled (hfirst : slash ∉ first) (hrest : ∀ s ∈ rest, slash ∉ s) :
    segments (spelled first rest) = first :: (rest.dropWhile isIdle).reverse
      ∨ first = [] ∧ rest.dropWhile isIdle = [] ∧ segments (spelled first rest) = [[], []] := by
  cases hrest' : rest.dropWhile isIdle with
  | nil =>
    rw [spelled, hrest']
    cases first with
    | nil => exact .inr ⟨rfl, rfl, rfl⟩
    | cons c more => exact .inl (segments_eq_singleton hfirst)
  | cons s more =>
    refine .inl ?_
    rw [spelled, hrest']
    refine segments_intercalate (List.cons_ne_nil _ _) fun s' hs' => ?_
    rcases List.mem_cons.1 hs' with rfl | hs'
    · exact hfirst
    · rw [← hrest', List.mem_reverse] at hs'
      exact hrest s' ((List.dropWhile_sublist _).subset hs')

theorem filter_dropWhile_isIdle (ss : List Utf8.Bytes) :
    (ss.dropWhile isIdle).filter (!isIdle ·) = ss.filter (!isIdle ·) := by
  induction ss with
  | nil => rfl
  | cons s more ih =>
    rw [List.dropWhile_cons]
    split
    · next hs => rw [ih, List.filter_cons, hs, Bool.not_true, if_neg Bool.false_ne_true]
    · rfl

/-- **A path that is spelled anew keeps its steps.** -/
theorem steps_spelled (hfirst : slash ∉ first) (hrest : ∀ s ∈ rest, slash ∉ s) :
    steps (spelled first rest) = (first :: rest.reverse).filter (!isIdle ·) := by
  have hreverse : ((rest.dropWhile isIdle).reverse).filter (!isIdle ·)
      = rest.reverse.filter (!isIdle ·) := by
    rw [List.filter_reverse, filter_dropWhile_isIdle, List.filter_reverse]
  rcases segments_spelled hfirst hrest with h | ⟨rfl, hidle, h⟩
  · rw [steps, h, List.filter_cons, List.filter_cons, hreverse]
  · rw [hidle] at hreverse
    rw [steps, h, List.filter_cons]
    exact hreverse

theorem spelled_ne_nil (first : Utf8.Bytes) (rest : List Utf8.Bytes) : spelled first rest ≠ [] := by
  rw [spelled]
  split
  · cases first <;> simp
  · next hne =>
    obtain ⟨s, more, hs⟩ := List.exists_cons_of_ne_nil
      (fun h => hne (List.reverse_eq_nil_iff.1 h))
    rw [hs, List.intercalate_cons_cons]
    simp

theorem isAbsolute_spelled (hfirst : slash ∉ first) :
    (spelled first rest).isAbsolute = first.isEmpty := by
  have hhead : ∀ more, (isAbsolute (first ++ slash :: more)) = first.isEmpty := fun more => by
    cases first with
    | nil => rfl
    | cons c others =>
      show isAbsolute (c :: others) = false
      exact isAbsolute_eq_false hfirst
  rw [spelled]
  split
  · cases first with
    | nil => rfl
    | cons c others => exact isAbsolute_eq_false hfirst
  · next hne =>
    obtain ⟨s, more, hs⟩ := List.exists_cons_of_ne_nil
      (fun h => hne (List.reverse_eq_nil_iff.1 h))
    rw [hs, List.intercalate_cons_cons, List.append_assoc, List.singleton_append]
    exact hhead _

end Spelled

theorem isAbsolute_eq {p : Path} (hp : p ≠ []) {first : Utf8.Bytes} {rest : List Utf8.Bytes}
    (h : segments p = first :: rest) : p.isAbsolute = first.isEmpty := by
  obtain ⟨c, more, rfl⟩ := List.exists_cons_of_ne_nil hp
  rw [segments, splitWhen] at h
  by_cases hc : c = slash
  · rw [if_pos (by simpa using hc)] at h
    rw [← (List.cons.inj h).1, hc]
    rfl
  · rw [if_neg (by simpa using hc)] at h
    have habsolute : isAbsolute (c :: more) = false := by simpa [isAbsolute] using hc
    rw [habsolute]
    split at h
    · rw [← (List.cons.inj h).1]
      rfl
    · rw [← (List.cons.inj h).1]
      rfl

/-! ## The default output -/

/-- The name of the folder that takes the source of the messages in a folder. -/
def built : Utf8.Bytes := ofText "built".toList

theorem isName_built : IsName built := by decide

theorem defaultOutput_name {name : Utf8.Bytes} (hname : IsName name) :
    defaultOutput name = join here built := by
  have hempty : name.isEmpty = false := by simpa using hname.ne_nil
  have hparent : parent? name = some [] := by
    rw [parent?, ancestors, segments_eq_singleton hname.no_slash]
    show (above name []).head? = _
    rw [above, hempty, if_neg Bool.false_ne_true]
    rfl
  rw [defaultOutput, hparent]
  rfl

/-- **The default output of a file is one step below the file's folder**, however the path of that
folder is spelled. -/
theorem defaultOutput_join {base : Path} (hbase : base ≠ []) : ∃ folder : Path, folder ≠ []
    ∧ folder.isAbsolute = base.isAbsolute ∧ steps folder = steps base
    ∧ ∀ {name : Utf8.Bytes}, IsName name → (base.join name).defaultOutput = folder.join built := by
  obtain ⟨ss, hne, hss, hjoin⟩ := segments_join hbase
  obtain ⟨first, rest, rfl⟩ := List.exists_cons_of_ne_nil hne
  have hslash : ∀ s ∈ first :: rest, slash ∉ s := fun s hs => by
    refine slash_not_mem_of_mem_segments (p := base) ?_
    rcases hss with hss | hss
    · rw [hss]
      exact hs
    · rw [hss]
      exact List.mem_append_left _ hs
  refine ⟨spelled first rest.reverse, spelled_ne_nil _ _, ?_, ?_, fun {name} hname => ?_⟩
  · have habsolute : base.isAbsolute = first.isEmpty := by
      rcases hss with hss | hss
      · exact isAbsolute_eq hbase hss
      · exact isAbsolute_eq hbase hss
    rw [isAbsolute_spelled (hslash first List.mem_cons_self), habsolute]
  · rw [steps_spelled (hslash first List.mem_cons_self)
      (fun s hs => hslash s (List.mem_cons_of_mem _ (List.mem_reverse.1 hs))),
      List.reverse_reverse, steps_eq_filter hss]
  · have hparent : parent? (base.join name) = some (spelled first rest.reverse) := by
      rw [parent?, ancestors, hjoin hname]
      show (above first (rest ++ [name]).reverse).head? = _
      rw [List.reverse_append, List.reverse_singleton, List.singleton_append, above,
        hname.isIdle_eq_false, if_neg Bool.false_ne_true]
      rfl
    have hfolder : (spelled first rest.reverse).isEmpty = false := by
      simpa using spelled_ne_nil first rest.reverse
    rw [defaultOutput, hparent]
    show join (if (spelled first rest.reverse).isEmpty then here else _) _ = _
    rw [hfolder, if_neg Bool.false_ne_true]
    rfl

/-! ## Names that tell what is in a file or a folder -/

/-- **A name is cut at its last dot**, where something comes before it. -/
theorem cutName_append {stem extension : Utf8.Bytes} (hstem : stem ≠ [])
    (hextension : dot ∉ extension) : cutName (stem ++ dot :: extension) = (stem, some extension) := by
  rw [cutName, splitLast_append_cons hextension]
  dsimp only
  rw [if_neg (by simpa using hstem)]

theorem ofText_msg : ofText ".msg".toList = dot :: ofText "msg".toList := by decide

theorem dot_not_mem_msg : dot ∉ ofText "msg".toList := by decide

/-- Whether a file of this name holds a definition. -/
def isDefinitionName (name : Utf8.Bytes) : Bool := (cutName name).2 == some (ofText "msg".toList)

/-- **A definition is told by its extension**: something, and then `.msg`. -/
theorem isDefinitionName_iff {name : Utf8.Bytes} :
    isDefinitionName name = true ↔ ∃ stem, stem ≠ [] ∧ name = stem ++ ofText ".msg".toList := by
  rw [isDefinitionName, beq_iff_eq, cutName, ofText_msg]
  constructor
  · intro h
    split at h
    · next stem extension hsplit =>
      split at h
      · cases h
      · next hstem =>
        obtain rfl := Option.some.inj h
        exact ⟨stem, by simpa using hstem, eq_of_splitLast_eq_some hsplit⟩
    · cases h
  · rintro ⟨stem, hstem, rfl⟩
    exact congrArg Prod.snd (cutName_append hstem dot_not_mem_msg)

/-- **No other extension makes a definition.** -/
theorem isDefinitionName_append {stem extension : Utf8.Bytes} (hextension : dot ∉ extension)
    (hne : extension ≠ ofText "msg".toList) : isDefinitionName (stem ++ dot :: extension) = false := by
  refine Bool.eq_false_iff.2 fun h => hne ?_
  obtain ⟨stem', -, heq⟩ := isDefinitionName_iff.1 h
  have hsplit := congrArg (splitLast dot) heq
  rw [ofText_msg, splitLast_append_cons hextension, splitLast_append_cons dot_not_mem_msg] at hsplit
  exact (Prod.mk.inj (Option.some.inj hsplit)).2

/-- Whether a folder of this name is searched. -/
def isMessageName (name : Utf8.Bytes) : Bool := (messageFolderNames.map ofText).contains name

theorem isDefinitionFile_join (base : Path) {name : Utf8.Bytes} (hname : IsName name) :
    (base.join name).isDefinitionFile = isDefinitionName name := by
  rw [isDefinitionFile, extension?, fileName?_join base hname]
  rfl

theorem isMessageFolder_join (base : Path) {name : Utf8.Bytes} (hname : IsName name) :
    (base.join name).isMessageFolder = isMessageName name := by
  rw [isMessageFolder, fileName?_join base hname]
  rfl

theorem isMessageName_built : isMessageName built = false := by decide

end MessageCompiler.Path
