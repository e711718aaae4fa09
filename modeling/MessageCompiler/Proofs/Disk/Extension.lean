import MessageCompiler.Proofs.Disk.Links

/-!
# How a disk is extended

All that a build does to a disk, with or without links, is to add empty folders and to write files.
`Disk.Extended` is the closure of these two. Folders and files stay, links neither come nor go, and
what a path leads to it leads to afterwards.

* **`get?_put_folder`**: what becomes of a folder when something is put in a folder.
* **`Extended.isFolderAt`, `Extended.isFileAt`, `Extended.get?_eq_link_iff`**: what is at a place.
* **`Extended.locate`**: paths still lead where they led.
* **`makeFolder_inv`**: all that making a folder can do.
* **`extended_write`, `extended_makeFolders`**: what is done to a disk extends it.
* **`isFolder_of_makeFolders`, `makeFolders_of_isFolder`**: where making folders succeeds there is the
  folder, and from then on nothing more is made.
-/

namespace MessageCompiler

namespace Entries

/-- What fits in a folder under a name: an empty folder where nothing is, or a file where there is no
more than a file. -/
inductive Fits (es : Entries) (name : Utf8.Bytes) : Node → Prop
  | folder : Entries.find? name es = none → Fits es name (.folder [])
  | file {contents : Utf8.Bytes} :
    (∀ old, Entries.find? name es = some old → ∃ c, old = .file c) → Fits es name (.file contents)

theorem Fits.find?_ne_folder {es : Entries} {name : Utf8.Bytes} {new : Node}
    (h : Fits es name new) (sub : Entries) : Entries.find? name es ≠ some (.folder sub) := by
  intro hfind
  cases h with
  | folder hnone => cases hnone.symm.trans hfind
  | file hold =>
    obtain ⟨c, hc⟩ := hold _ hfind
    cases hc

/-- What fits holds nothing itself. -/
theorem Fits.get?_cons {es : Entries} {name : Utf8.Bytes} {new : Node} (h : Fits es name new)
    (m : Utf8.Bytes) (r : Place) : new.get? (m :: r) = none := by
  cases h <;> rfl

end Entries

namespace Disk

/-! ## One addition -/

section Put

variable {root : Node} {q p : Place} {es es' : Entries} {name : Utf8.Bytes} {new node : Node}
  (hq : root.get? q = some (.folder es)) (hnew : es.Fits name new)
include hq hnew

theorem not_isFolderAt_of_fits : ¬ root.IsFolderAt (q ++ [name]) := fun ⟨sub, hsub⟩ =>
  hnew.find?_ne_folder sub ((Node.get?_append_singleton hq name).symm.trans hsub)

theorem isFolderAt_put_of_fits : (Node.put new (q ++ [name]) root).IsFolderAt p
    ↔ root.IsFolderAt p ∨ p = q ++ [name] ∧ new.IsFolderAt [] :=
  Node.isFolderAt_put_iff hnew.get?_cons ⟨es, hq⟩ (not_isFolderAt_of_fits hq hnew)

/-- What becomes of a folder when something is put in a folder: nothing, or it is the folder that is
put in, or that folder is inside one of its folders. -/
theorem get?_put_folder (hp : root.get? p = some (.folder es')) :
    (Node.put new (q ++ [name]) root).get? p = some (.folder es')
      ∨ (p = q ∧ es' = es
        ∧ (Node.put new (q ++ [name]) root).get? p = some (.folder (Entries.insert name new es)))
      ∨ ∃ m sub sub', Entries.find? m es' = some (.folder sub)
        ∧ (Node.put new (q ++ [name]) root).get? p
          = some (.folder (Entries.insert m (.folder sub') es')) := by
  rcases Place.cases_concat q name p with ⟨rest, rfl⟩ | ⟨rest, rfl⟩ | hapart
  · -- a folder there, or further below, would be in the way of the addition
    exact absurd (Node.isFolderAt_of_append ⟨es', hp⟩) (not_isFolderAt_of_fits hq hnew)
  · cases rest with
    | nil =>
      rw [List.append_nil] at hq ⊢
      rw [hp] at hq
      have hes : es' = es := Node.folder.inj (Option.some.inj hq)
      refine .inr (.inl ⟨rfl, hes, ?_⟩)
      rw [Node.get?_put_outer new name [] hp, ← hes]
      rfl
    | cons m rest =>
      -- one of the folders in the folder changes, and is a folder before and after
      obtain ⟨outer, child, houter, hchild, hrest⟩ := Node.exists_folder_of_get?_append hq
      rw [hp] at houter
      rw [← Node.folder.inj (Option.some.inj houter)] at hchild
      obtain ⟨sub, rfl⟩ : ∃ sub, child = .folder sub := by
        obtain ⟨sub, hsub⟩ := Node.isFolderAt_nil ⟨es, hrest⟩
        rw [Node.get?_nil] at hsub
        exact ⟨sub, Option.some.inj hsub⟩
      obtain ⟨sub', hsub'⟩ : ∃ sub', Node.put new (rest ++ [name]) (.folder sub) = .folder sub' := by
        cases rest with
        | nil => exact ⟨_, rfl⟩
        | cons n rest => exact ⟨_, rfl⟩
      refine .inr (.inr ⟨m, sub, sub', hchild, ?_⟩)
      rw [List.append_assoc, List.cons_append, Node.get?_put_outer new m _ hp, hchild,
        Option.getD_some, hsub']
  · exact .inl (by rw [Node.get?_put_apart new hapart, hp])

theorem eq_nil_of_get?_put (hp : ¬ root.IsFolderAt p)
    (hes' : (Node.put new (q ++ [name]) root).get? p = some (.folder es')) : es' = [] := by
  obtain ⟨rfl, -⟩ := ((isFolderAt_put_of_fits hq hnew).1 ⟨es', hes'⟩).resolve_left hp
  rw [Node.get?_put_self] at hes'
  cases hnew with
  | folder => exact (Node.folder.inj (Option.some.inj hes')).symm
  | file => cases Option.some.inj hes'

/-- What is no folder stays as it is, unless it is a file and a file takes its place. -/
theorem get?_put_of_not_folder (hp : root.get? p = some node) (hnode : node.isFolder = false) :
    (Node.put new (q ++ [name]) root).get? p = some node
      ∨ (∃ c, node = .file c) ∧ ∃ c, (Node.put new (q ++ [name]) root).get? p = some (.file c) := by
  rcases Place.cases_concat q name p with ⟨rest, rfl⟩ | ⟨rest, rfl⟩ | hapart
  · cases rest with
    | nil =>
      rw [List.append_nil] at hp ⊢
      rw [Node.get?_append_singleton hq] at hp
      cases hnew with
      | folder hnone => cases hnone.symm.trans hp
      | file hold => exact .inr ⟨hold node hp, _, Node.get?_put_self _ _ _⟩
    | cons m rest =>
      -- it would have to be in a folder, where none is
      obtain ⟨sub, _, hsub, -⟩ := Node.exists_folder_of_get?_append hp
      exact absurd ⟨sub, hsub⟩ (not_isFolderAt_of_fits hq hnew)
  · obtain ⟨sub, hsub⟩ := Node.isFolderAt_of_append ⟨es, hq⟩
    rw [Option.some.inj (hp.symm.trans hsub)] at hnode
    cases hnode
  · exact .inl (by rw [Node.get?_put_apart new hapart, hp])

theorem get?_eq_link_of_put {target : Path}
    (h : (Node.put new (q ++ [name]) root).get? p = some (.link target)) :
    root.get? p = some (.link target) := by
  rcases Place.cases_concat q name p with ⟨rest, rfl⟩ | ⟨rest, rfl⟩ | hapart
  · rw [Node.get?_put_append] at h
    cases rest with
    | nil =>
      rw [Node.get?_nil] at h
      cases hnew <;> cases h
    | cons m rest => cases (hnew.get?_cons m rest).symm.trans h
  · -- there are folders on the way to the addition, before and afterwards
    obtain ⟨sub, hsub⟩ := (isFolderAt_put_of_fits hq hnew).2
      (.inl (Node.isFolderAt_of_append ⟨es, hq⟩))
    cases hsub.symm.trans h
  · rwa [Node.get?_put_apart new hapart] at h

theorem orderly_put (hroot : root.Orderly) (hname : Path.IsName name) :
    (Node.put new (q ++ [name]) root).Orderly := by
  intro p es' hes'
  by_cases hold : root.IsFolderAt p
  · obtain ⟨es₀, hes₀⟩ := hold
    obtain ⟨hsorted, hnames⟩ := hroot p es₀ hes₀
    have hinsert {n : Utf8.Bytes} (hn : Path.IsName n) (node : Node) :
        (Entries.insert n node es₀).Sorted ∧ ∀ e ∈ Entries.insert n node es₀, Path.IsName e.1 := by
      refine ⟨Entries.sorted_insert hsorted n node, fun e he => ?_⟩
      rcases Entries.eq_or_mem_of_mem_insert hsorted he with rfl | he
      · exact hn
      · exact hnames e he
    -- the folder is left alone, has the new name in it, or has one of its own names put anew
    rcases get?_put_folder hq hnew hes₀ with h | ⟨-, rfl, h⟩ | ⟨m, sub, sub', hm, h⟩
    · rw [Node.folder.inj (Option.some.inj (hes'.symm.trans h))]
      exact ⟨hsorted, hnames⟩
    · rw [Node.folder.inj (Option.some.inj (hes'.symm.trans h))]
      exact hinsert hname new
    · rw [Node.folder.inj (Option.some.inj (hes'.symm.trans h))]
      exact hinsert (hnames _ (Entries.mem_of_find?_eq_some hm)) _
  · rw [eq_nil_of_get?_put hq hnew hold hes']
    exact ⟨List.Pairwise.nil, List.forall_mem_nil _⟩

end Put

/-! ## Additions -/

/-- The disks that come from a disk by adding empty folders and writing files. -/
inductive Extended (d : Disk) : Disk → Prop
  | refl : Extended d d
  | put {e : Disk} {q : Place} {es : Entries} {name : Utf8.Bytes} {new : Node} : Extended d e →
    e.root.get? q = some (.folder es) → Path.IsName name → es.Fits name new →
    Extended d (e.put (q ++ [name]) new)

namespace Extended

variable {d e f : Disk}

theorem trans (h : d.Extended e) (h' : e.Extended f) : d.Extended f := by
  induction h' with
  | refl => exact h
  | put _ hq hname hnew ih => exact ih.put hq hname hnew

theorem folder_eq (h : d.Extended e) : e.folder = d.folder := by
  induction h with
  | refl => rfl
  | put _ _ _ _ ih => exact ih

/-- **Folders stay.** -/
theorem isFolderAt (h : d.Extended e) {p : Place} (hp : d.root.IsFolderAt p) :
    e.root.IsFolderAt p := by
  induction h with
  | refl => exact hp
  | put _ hq _ hnew ih => exact (isFolderAt_put_of_fits hq hnew).2 (.inl ih)

/-- **Files stay**, though they may be written anew. -/
theorem isFileAt (h : d.Extended e) {p : Place} (hp : ∃ c, d.root.get? p = some (.file c)) :
    ∃ c, e.root.get? p = some (.file c) := by
  induction h with
  | refl => exact hp
  | put _ hq _ hnew ih =>
    obtain ⟨c, hc⟩ := ih
    rcases get?_put_of_not_folder hq hnew hc rfl with h | ⟨-, h⟩
    · exact ⟨c, h⟩
    · exact h

/-- **Links neither come nor go.** -/
theorem get?_eq_link_iff (h : d.Extended e) {p : Place} {target : Path} :
    e.root.get? p = some (.link target) ↔ d.root.get? p = some (.link target) := by
  induction h with
  | refl => rfl
  | put _ hq _ hnew ih =>
    rw [← ih]
    refine ⟨get?_eq_link_of_put hq hnew, fun hlink => ?_⟩
    rcases get?_put_of_not_folder hq hnew hlink rfl with h | ⟨⟨c, hc⟩, -⟩
    · exact h
    · cases hc

theorem exists_get? (h : d.Extended e) {p : Place} {node : Node} (hp : d.root.get? p = some node) :
    ∃ node', e.root.get? p = some node' := by
  cases node with
  | folder es =>
    obtain ⟨es', hes'⟩ := h.isFolderAt ⟨es, hp⟩
    exact ⟨_, hes'⟩
  | file c =>
    obtain ⟨c', hc'⟩ := h.isFileAt ⟨c, hp⟩
    exact ⟨_, hc'⟩
  | link target => exact ⟨_, h.get?_eq_link_iff.2 hp⟩

theorem orderly (h : d.Extended e) (hd : d.Orderly) : e.Orderly := by
  refine ⟨?_, ?_⟩
  · induction h with
    | refl => exact hd.tree
    | put _ hq hname hnew ih => exact orderly_put hq hnew ih hname
  · rw [h.folder_eq]
    exact h.isFolderAt hd.here

/-! ## Where paths lead -/

theorem descend_eq (h : d.Extended e) {place q : Place} {names : List Utf8.Bytes}
    (hq : d.root.descend place names = some q) : e.root.descend place names = some q :=
  Node.descend_mono (fun _ => h.isFolderAt) hq

/-- Where names stop on a disk they stop on an extended one, if there is still no folder. -/
theorem stopsAt (h : d.Extended e) {place q : Place} {before : List Utf8.Bytes} {name : Utf8.Bytes}
    (hstop : d.root.StopsAt place before q name) (hnone : ¬ e.root.IsFolderAt (q ++ [name])) :
    e.root.StopsAt place before q name :=
  ⟨h.descend_eq hstop.descend, hstop.isIdle_eq_false, hstop.ne_up, hnone⟩

/-- A stretch that arrives somewhere, or at a link, does so on an extended disk. -/
theorem stretch_eq (h : d.Extended e) {place : Place} {names : List Utf8.Bytes} {s : Stretch}
    (hs : stretch d.root place names = s)
    (hfirm : (∃ q, s = .arrived (.taken q)) ∨ ∃ folder target rest, s = .linked folder target rest) :
    stretch e.root place names = s := by
  rcases d.root.descend_cases place names with ⟨q, hq⟩ | ⟨before, name, rest, q, rfl, hstop⟩
  · rw [stretch_of_descend hq] at hs
    rw [stretch_of_descend (h.descend_eq hq), hs]
  rw [stretch_of_stopsAt hstop] at hs
  cases hnode : d.root.get? (q ++ [name]) with
  | none =>
    rw [hnode] at hs
    rcases hfirm with ⟨q, rfl⟩ | ⟨folder, target, left, rfl⟩
    · cases rest <;> cases hs
    · cases rest <;> cases hs
  | some node =>
    rw [hnode] at hs
    cases node with
    | folder es => exact absurd ⟨es, hnode⟩ hstop.not_isFolderAt
    | file contents =>
      obtain ⟨c, hc⟩ := h.isFileAt ⟨contents, hnode⟩
      have hnone : ¬ e.root.IsFolderAt (q ++ [name]) := fun ⟨es, hes⟩ => by cases hes.symm.trans hc
      rw [stretch_of_stopsAt (h.stopsAt hstop hnone), hc, ← hs]
    | link target =>
      have hlink := h.get?_eq_link_iff.2 hnode
      have hnone : ¬ e.root.IsFolderAt (q ++ [name]) := fun ⟨es, hes⟩ => by cases hes.symm.trans hlink
      rw [stretch_of_stopsAt (h.stopsAt hstop hnone), hlink, ← hs]

theorem follow_eq (h : d.Extended e) {n : Nat} {place q : Place} {names : List Utf8.Bytes}
    (hq : follow d.root n place names = .ok (.taken q)) :
    follow e.root n place names = .ok (.taken q) := by
  induction n generalizing place names with
  | zero => cases hq
  | succ n ih =>
    rw [follow] at hq ⊢
    split at hq
    · next spot hs =>
      obtain rfl := Except.ok.inj hq
      rw [h.stretch_eq hs (.inl ⟨q, rfl⟩)]
    · cases hq
    · next folder target rest hs =>
      rw [h.stretch_eq hs (.inr ⟨folder, target, rest, rfl⟩)]
      exact ih hq

/-- **Paths still lead where they led.** -/
theorem locate (h : d.Extended e) {p : Path} {q : Place} (hq : d.locate p = .ok (.taken q)) :
    e.locate p = .ok (.taken q) := by
  have hp : p ≠ [] := by
    rintro rfl
    cases hq
  rw [locate_eq hp] at hq ⊢
  rw [h.folder_eq]
  exact h.follow_eq hq

theorem leadsTo (h : d.Extended e) {p : Path} {q : Place} (hq : d.LeadsTo p q) : e.LeadsTo p q :=
  ⟨h.locate hq.locate, h.isFolderAt hq.isFolderAt⟩

theorem isFile (h : d.Extended e) {p : Path} (hp : d.isFile p = true) : e.isFile p = true := by
  obtain ⟨q, contents, hq, hfile⟩ := isFile_iff.1 hp
  obtain ⟨c, hc⟩ := h.isFileAt ⟨contents, hfile⟩
  exact isFile_iff.2 ⟨q, c, h.locate hq, hc⟩

end Extended

/-! ## Writing a file -/

variable {d e : Disk} {p : Path}

/-- **A file is written** in a folder, under a name that stands for nothing or for a file. -/
theorem extended_write (hd : d.Orderly) {contents : Utf8.Bytes} (h : d.write p contents = .ok e) :
    d.Extended e := by
  have hp : p ≠ [] := by
    rintro rfl
    cases h
  have hstart := hd.isFolderAt_start p
  rw [write, locate_eq hp] at h
  split at h
  · cases h
  · next folder name hlocate =>
    obtain ⟨⟨es, hes⟩, hnone, hname⟩ := vacant_of_follow hstart
      (fun n hn => Path.slash_not_mem_of_mem_segments hn) hlocate
    rw [Node.get?_append_singleton hes] at hnone
    rw [← Except.ok.inj h]
    exact .put .refl hes hname (.file fun old hold => by cases hnone.symm.trans hold)
  · next place hlocate =>
    split at h
    · next old hold =>
      -- a file is in a folder, since the root is no file
      rw [← Except.ok.inj h]
      rcases List.eq_nil_or_concat place with rfl | ⟨outer, name, rfl⟩
      · obtain ⟨es, hes⟩ := Node.isFolderAt_nil hd.here
        cases hes.symm.trans hold
      · rw [List.concat_eq_append] at hold ⊢
        obtain ⟨es, child, hes, hchild, hrest⟩ := Node.exists_folder_of_get?_append hold
        rw [Node.get?_nil] at hrest
        obtain rfl := Option.some.inj hrest
        have hname := (hd.tree outer es hes).2 _ (Entries.mem_of_find?_eq_some hchild)
        exact .put .refl hes hname (.file fun node hnode =>
          ⟨old, Option.some.inj (hnode.symm.trans hchild)⟩)
    · cases h

/-! ## Making folders -/

theorem stretch_replicate_nil (root : Node) (place : Place) (k : Nat) :
    stretch root place (List.replicate k []) = .arrived (.taken place) := by
  induction k with
  | zero => rfl
  | succ k ih =>
    rw [List.replicate_succ, stretch]
    exact ih

theorem makeFolder_of_empty (hp : p ≠ []) (h : ∀ s ∈ p.segments, s = []) :
    d.makeFolder p = .error .exists := by
  have hdrop : p.segments.reverse.dropWhile (·.isEmpty) = [] :=
    List.dropWhile_eq_nil_iff.2 fun s hs => by rw [h s (List.mem_reverse.1 hs)]; rfl
  rw [makeFolder, if_neg (by simpa using hp), hdrop]

/-- **A folder is made by the last name of its path**, in the folder that the names before lead to. -/
theorem makeFolder_of_segments {outer : List Utf8.Bytes} {name : Utf8.Bytes} {k : Nat} (hp : p ≠ [])
    (hsegments : p.segments = outer ++ name :: List.replicate k []) (hne : name ≠ []) :
    d.makeFolder p = match walk d.root (start d.folder p) outer with
      | .error cause => .error cause
      | .ok (.vacant _ _) => .error .notFound
      | .ok (.taken q) =>
        match d.root.get? q with
        | some (.folder es) =>
          if name = Path.here || name = Path.up || (Entries.find? name es).isSome then .error .exists
          else .ok (d.put (q ++ [name]) (.folder []))
        | _ => .error .notADirectory := by
  rw [makeFolder, if_neg (by simpa using hp), Path.dropWhile_segments hsegments hne]
  dsimp only
  rewrite [List.reverse_reverse]
  rfl

/-- **All that making a folder can do**: put an empty one in a folder, under a name that is free. -/
theorem makeFolder_inv (h : d.makeFolder p = .ok e) :
    ∃ outer name k q es, p ≠ [] ∧ p.segments = outer ++ name :: List.replicate k []
      ∧ walk d.root (start d.folder p) outer = .ok (.taken q) ∧ d.root.get? q = some (.folder es)
      ∧ Path.IsName name ∧ Entries.find? name es = none ∧ e = d.put (q ++ [name]) (.folder []) := by
  have hp : p ≠ [] := by
    rintro rfl
    cases h
  rcases p.segments_cases with hempty | ⟨outer, name, k, hsegments, hne⟩
  · cases (makeFolder_of_empty hp hempty).symm.trans h
  rw [makeFolder_of_segments hp hsegments hne] at h
  split at h
  · cases h
  · cases h
  · next q hwalk =>
    split at h
    · next es hes =>
      split at h
      · cases h
      · next hfree =>
        simp only [Bool.or_eq_true, decide_eq_true_eq, not_or, Option.isSome_iff_ne_none, not_not,
          ne_eq] at hfree
        obtain ⟨⟨hhere, hup⟩, hnone⟩ := hfree
        have hslash : Path.slash ∉ name :=
          Path.slash_not_mem_of_mem_segments (p := p) (by rw [hsegments]; simp)
        exact ⟨outer, name, k, q, es, hp, hsegments, hwalk, hes, ⟨hne, hslash, hhere, hup⟩, hnone,
          (Except.ok.inj h).symm⟩
    · cases h

/-- **A folder is made** in a folder, under a name that is free, and the path leads to it then. -/
theorem exists_put_of_makeFolder (hd : d.Orderly) (h : d.makeFolder p = .ok e) :
    ∃ q es name, d.root.get? q = some (.folder es) ∧ Path.IsName name
      ∧ Entries.find? name es = none ∧ e = d.put (q ++ [name]) (.folder [])
      ∧ e.LeadsTo p (q ++ [name]) := by
  obtain ⟨outer, name, k, q, es, hp, hsegments, hwalk, hes, hname, hnone, rfl⟩ := makeFolder_inv h
  have hextended : d.Extended (d.put (q ++ [name]) (.folder [])) :=
    .put .refl hes hname (.folder hnone)
  have hput : (d.put (q ++ [name]) (.folder [])).root.get? (q ++ [name]) = some (.folder []) :=
    Node.get?_put_self _ _ _
  refine ⟨q, es, name, hes, hname, hnone, rfl, ?_, [], hput⟩
  obtain ⟨links, hlinks⟩ := follow_append ((hextended.orderly hd).isFolderAt_start p)
    (hextended.follow_eq hwalk) (hextended.isFolderAt ⟨es, hes⟩)
  -- behind the name the path has empty segments only
  rw [locate_eq hp, walk, hsegments, hlinks _ (List.cons_ne_nil _ _), follow, stretch,
    hname.isIdle_eq_false, if_neg Bool.false_ne_true, if_neg hname.ne_up, hput]
  dsimp only
  rw [stretch_replicate_nil]

/-- **A folder that is there is not made again**, through links or not. -/
theorem makeFolder_of_isFolder (hd : d.Orderly) (h : d.isFolder p = true) :
    d.makeFolder p = .error .exists := by
  obtain ⟨q, hq⟩ := isFolder_iff.1 h
  have hp := hq.ne_nil
  have hstart := hd.isFolderAt_start p
  have hlocate := hq.locate
  rw [locate_eq hp, walk] at hlocate
  rcases p.segments_cases with hempty | ⟨outer, name, k, hsegments, hne⟩
  · exact makeFolder_of_empty hp hempty
  · rw [makeFolder_of_segments hp hsegments hne]
    rw [hsegments] at hlocate
    obtain ⟨q', hq', hfolder'⟩ := exists_follow_of_append hstart (List.cons_ne_nil _ _) hlocate
    obtain ⟨links, hlinks⟩ := follow_append hstart hq' hfolder'
    obtain ⟨es, hes⟩ := hfolder'
    rw [hlinks _ (List.cons_ne_nil _ _)] at hlocate
    rw [walk, hq']
    dsimp only
    rw [hes]
    refine if_pos ?_
    by_cases hhere : name = Path.here
    · simp [hhere]
    by_cases hup : name = Path.up
    · simp [hup]
    -- a name that leads on stands for something
    have hidle : Path.isIdle name = false := by simp [Path.isIdle, hne, hhere]
    rw [follow, stretch, hidle, if_neg Bool.false_ne_true, if_neg hup,
      Node.get?_append_singleton hes] at hlocate
    cases hfind : Entries.find? name es with
    | none =>
      rw [hfind] at hlocate
      cases k <;> cases hlocate
    | some node => simp

/-- What making one folder keeps is kept when all folders on the way are made. -/
theorem makeAll_induction (kind : Disk → Prop) {ps : List Path}
    (hstep : ∀ {d e : Disk} {p : Path}, p ∈ ps → kind d → d.makeFolder p = .ok e → kind e)
    {refused : Option Cause} (hd : kind d) (h : makeAll ps d = (e, refused)) : kind e := by
  induction ps generalizing d e refused with
  | nil =>
    rw [makeAll] at h
    exact (Prod.mk.inj h).1 ▸ hd
  | cons p outer ih =>
    have houter {d' : Disk} {r : Option Cause} (hall : makeAll outer d = (d', r)) : kind d' :=
      ih (fun hp => hstep (List.mem_cons_of_mem _ hp)) hd hall
    rw [makeAll] at h
    split at h
    · exact (Prod.mk.inj h).1 ▸ hd
    split at h
    · next d' hmake => exact (Prod.mk.inj h).1 ▸ hstep List.mem_cons_self hd hmake
    · next hmake =>
      split at h
      · next d' cause hall => exact (Prod.mk.inj h).1 ▸ houter hall
      · next d' hall =>
        have hd' := houter hall
        split at h
        · next d'' hmake' => exact (Prod.mk.inj h).1 ▸ hstep List.mem_cons_self hd' hmake'
        · next cause hmake' => exact (Prod.mk.inj h).1 ▸ hd'
    · next cause _ hmake => exact (Prod.mk.inj h).1 ▸ hd

theorem extended_makeFolder (hd : d.Orderly) (h : d.makeFolder p = .ok e) : d.Extended e := by
  obtain ⟨q, es, name, hes, hname, hnone, rfl, -⟩ := exists_put_of_makeFolder hd h
  exact .put .refl hes hname (.folder hnone)

theorem extended_makeAll (hd : d.Orderly) {ps : List Path} {refused : Option Cause}
    (h : makeAll ps d = (e, refused)) : d.Extended e :=
  makeAll_induction d.Extended
    (fun _ hextended hmake => hextended.trans (extended_makeFolder (hextended.orderly hd) hmake))
    .refl h

theorem isFolder_of_makeAll (hd : d.Orderly) (hp : p ≠ []) {outer : List Path}
    (h : makeAll (p :: outer) d = (e, none)) : e.isFolder p = true := by
  -- the folder has been made, or it has been found there when it could not be made
  have hmade : ∀ {d e : Disk}, d.Orderly → d.makeFolder p = .ok e → e.isFolder p = true :=
    fun hd hmake => by
      obtain ⟨q, _, name, -, -, -, -, hq⟩ := exists_put_of_makeFolder hd hmake
      exact isFolder_iff.2 ⟨_, hq⟩
  have hthere : ∀ {d e : Disk} {cause : Cause},
      (d, if d.isFolder p then none else some cause) = (e, none) → e.isFolder p = true :=
    fun {d e cause} heq => by
      rw [← (Prod.mk.inj heq).1]
      have hnone := (Prod.mk.inj heq).2
      split at hnone
      · next hisFolder => exact hisFolder
      · cases hnone
  rw [makeAll, if_neg (by simpa using hp)] at h
  split at h
  · next hmake => exact (Prod.mk.inj h).1 ▸ hmade hd hmake
  · split at h
    · cases h
    · next d' hall =>
      have hd' := (extended_makeAll hd hall).orderly hd
      split at h
      · next hmake => exact (Prod.mk.inj h).1 ▸ hmade hd' hmake
      · exact hthere h
  · exact hthere h

/-- **A folder that is there is left as it is.** -/
theorem makeAll_of_isFolder (hd : d.Orderly) (h : d.isFolder p = true) (outer : List Path) :
    makeAll (p :: outer) d = (d, none) := by
  obtain ⟨q, hq⟩ := isFolder_iff.1 h
  rw [makeAll, if_neg (by simpa using hq.ne_nil), makeFolder_of_isFolder hd h]
  show (d, if d.isFolder p then none else some Cause.exists) = _
  rw [if_pos h]

theorem extended_makeFolders (hd : d.Orderly) {refused : Option Cause}
    (h : d.makeFolders p = (e, refused)) : d.Extended e :=
  extended_makeAll hd h

theorem isFolder_of_makeFolders (hd : d.Orderly) (hp : p ≠ []) (h : d.makeFolders p = (e, none)) :
    e.isFolder p = true :=
  isFolder_of_makeAll hd hp h

theorem makeFolders_of_isFolder (hd : d.Orderly) (h : d.isFolder p = true) :
    d.makeFolders p = (d, none) :=
  makeAll_of_isFolder hd h _

end Disk

end MessageCompiler
