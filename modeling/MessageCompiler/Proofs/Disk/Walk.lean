import Mathlib.Data.List.Induction
import MessageCompiler.Disk.Basic
import MessageCompiler.Proofs.Disk.Tree

/-!
# Walks without links

In a tree without links a path leads through folders alone. `Node.descend` follows names through
folders, `Disk.folderAt?` says to which folder a path leads, and everything that is asked of a
well-formed disk is told by the folder that a path leads to.

* **`isFolderAt_put_iff`**: where there are folders after a put.
* **`descend_cases`**: names lead through folders, all of them or up to the first that is no folder's.
* **`stretch_append_of_descend`, `stretch_of_stopsAt`**: a stretch goes through folders and stops there.
* **`list_eq_ok`, `folderAt?_join`**: what is listed in a folder, and what folders are in it.
* **`folderAt?_join_eq_none`**: there is no folder in what is not a folder itself.
-/

namespace MessageCompiler

namespace Node

/-- There is a folder at the place. -/
def IsFolderAt (root : Node) (place : Place) : Prop := ∃ es, root.get? place = some (.folder es)

/-- The place that names lead to from a place, through folders alone. -/
def descend (root : Node) (place : Place) : List Utf8.Bytes → Option Place
  | [] => some place
  | name :: rest =>
    if Path.isIdle name then descend root place rest
    else if name = Path.up then descend root place.dropLast rest
    else
      match root.get? (place ++ [name]) with
      | some (.folder _) => descend root (place ++ [name]) rest
      | _ => none

variable {root : Node}

theorem descend_singleton {name : Utf8.Bytes} (hname : Path.IsName name) (place : Place) :
    root.descend place [name] = match root.get? (place ++ [name]) with
      | some (.folder _) => some (place ++ [name])
      | _ => none := by
  rw [descend, hname.isIdle_eq_false, if_neg Bool.false_ne_true, if_neg hname.ne_up]
  rfl

theorem descend_append (place : Place) (xs ys : List Utf8.Bytes) :
    root.descend place (xs ++ ys) = (root.descend place xs).bind (root.descend · ys) := by
  induction xs generalizing place with
  | nil => rfl
  | cons name rest ih =>
    rw [List.cons_append, descend, descend]
    split
    · exact ih place
    split
    · exact ih place.dropLast
    cases root.get? (place ++ [name]) with
    | none => rfl
    | some node =>
      cases node with
      | folder es => exact ih (place ++ [name])
      | file contents => rfl
      | link target => rfl

theorem descend_filter (place : Place) (names : List Utf8.Bytes) :
    root.descend place (names.filter (!Path.isIdle ·)) = root.descend place names := by
  induction names generalizing place with
  | nil => rfl
  | cons name rest ih =>
    cases hidle : Path.isIdle name with
    | true =>
      rw [List.filter_cons, hidle, Bool.not_true, if_neg Bool.false_ne_true, ih, descend, hidle,
        if_pos rfl]
    | false =>
      rw [List.filter_cons, hidle, Bool.not_false, if_pos rfl, descend, descend, hidle]
      simp only [ih]

theorem isFolderAt_of_append {q r : Place} (h : root.IsFolderAt (q ++ r)) : root.IsFolderAt q := by
  cases r with
  | nil => rwa [List.append_nil] at h
  | cons name rest =>
    obtain ⟨es, hes⟩ := h
    obtain ⟨outer, _, houter, -⟩ := exists_folder_of_get?_append hes
    exact ⟨outer, houter⟩

theorem isFolderAt_dropLast {place : Place} (h : root.IsFolderAt place) :
    root.IsFolderAt place.dropLast := by
  rcases List.eq_nil_or_concat place with rfl | ⟨outer, name, rfl⟩
  · exact h
  · rw [List.concat_eq_append] at h ⊢
    rw [List.dropLast_concat]
    exact isFolderAt_of_append h

theorem isFolderAt_nil {place : Place} (h : root.IsFolderAt place) : root.IsFolderAt [] :=
  isFolderAt_of_append (q := []) h

theorem not_isFolderAt_file (contents : Utf8.Bytes) (r : Place) : ¬ (file contents).IsFolderAt r := by
  rintro ⟨es, hes⟩
  cases r with
  | nil => cases (get?_nil _).symm.trans hes
  | cons name rest => cases (get?_cons _ _ _).symm.trans hes

/-- **What is put in a folder and holds nothing itself** adds a folder only if it is one. -/
theorem isFolderAt_put_iff {new : Node} (hnew : ∀ m r, new.get? (m :: r) = none) {q : Place}
    (hq : root.IsFolderAt q) {name : Utf8.Bytes} (hfree : ¬ root.IsFolderAt (q ++ [name])) {p : Place} :
    (put new (q ++ [name]) root).IsFolderAt p
      ↔ root.IsFolderAt p ∨ p = q ++ [name] ∧ new.IsFolderAt [] := by
  rcases Place.cases_concat q name p with ⟨rest, rfl⟩ | ⟨rest, rfl⟩ | hapart
  · -- nothing was there, and all that is there now is what was put
    have hold : ¬ root.IsFolderAt (q ++ [name] ++ rest) := fun h => hfree (isFolderAt_of_append h)
    rw [IsFolderAt, get?_put_append, or_iff_right hold, List.append_right_eq_self]
    cases rest with
    | nil => exact (and_iff_right rfl).symm
    | cons m r => simp [hnew]
  · -- a folder on the way is still one, whatever is put in it
    obtain ⟨es, hes⟩ := isFolderAt_of_append hq
    refine iff_of_true ?_ (.inl ⟨es, hes⟩)
    cases rest with
    | nil =>
      rw [List.append_nil]
      exact ⟨_, get?_put_outer new name [] hes⟩
    | cons m rest =>
      rw [List.append_assoc, List.cons_append]
      exact ⟨_, get?_put_outer new m (rest ++ [name]) hes⟩
  · have hne : p ≠ q ++ [name] := fun heq => hapart.2 (heq ▸ List.prefix_refl p)
    simp only [IsFolderAt, get?_put_apart new hapart, hne, false_and, or_false]

/-- A file takes no folder away and is none. -/
theorem isFolderAt_put_file_iff {q : Place} (hq : root.IsFolderAt q) {name : Utf8.Bytes}
    (hfree : ¬ root.IsFolderAt (q ++ [name])) (contents : Utf8.Bytes) {p : Place} :
    (put (.file contents) (q ++ [name]) root).IsFolderAt p ↔ root.IsFolderAt p :=
  (isFolderAt_put_iff (fun _ _ => rfl) hq hfree).trans
    (or_iff_left fun h => not_isFolderAt_file contents [] h.2)

theorem isFolderAt_descend {place : Place} (h : root.IsFolderAt place) {names : List Utf8.Bytes}
    {q : Place} (hq : root.descend place names = some q) : root.IsFolderAt q := by
  induction names generalizing place with
  | nil => exact Option.some.inj hq ▸ h
  | cons name rest ih =>
    rw [descend] at hq
    split at hq
    · exact ih h hq
    split at hq
    · exact ih (isFolderAt_dropLast h) hq
    split at hq
    · next es hes => exact ih ⟨es, hes⟩ hq
    · exact absurd hq (Option.some_ne_none q).symm

/-- Names still lead where they led if no folder has gone. -/
theorem descend_mono {root' : Node} (h : ∀ p, root.IsFolderAt p → root'.IsFolderAt p) {place q : Place}
    {names : List Utf8.Bytes} (hq : root.descend place names = some q) :
    root'.descend place names = some q := by
  induction names generalizing place with
  | nil => exact hq
  | cons name rest ih =>
    rw [descend] at hq ⊢
    split
    · next hidle => exact ih (by rwa [if_pos hidle] at hq)
    · next hidle =>
      rw [if_neg hidle] at hq
      split
      · next hup => exact ih (by rwa [if_pos hup] at hq)
      · next hup =>
        rw [if_neg hup] at hq
        split at hq
        · next es hes =>
          obtain ⟨es', hes'⟩ := h _ ⟨es, hes⟩
          rw [hes']
          exact ih hq
        · cases hq

/-! ## Where names stop -/

/-- The names before lead through folders to a place, and under the next name there is no folder. -/
structure StopsAt (root : Node) (place : Place) (before : List Utf8.Bytes) (q : Place)
    (name : Utf8.Bytes) : Prop where
  descend : root.descend place before = some q
  isIdle_eq_false : Path.isIdle name = false
  ne_up : name ≠ Path.up
  not_isFolderAt : ¬ root.IsFolderAt (q ++ [name])

theorem stopsAt_of_descend {place q : Place} {before : List Utf8.Bytes} {name : Utf8.Bytes}
    (hbefore : root.descend place before = some q) (hname : root.descend q [name] = none) :
    root.StopsAt place before q name := by
  rw [Node.descend] at hname
  split at hname
  · cases hname
  · next hidle =>
    split at hname
    · cases hname
    · next hup =>
      refine ⟨hbefore, Bool.eq_false_iff.2 hidle, hup, ?_⟩
      rintro ⟨es, hes⟩
      rw [hes] at hname
      cases hname

/-- **Names lead through folders**, all of them or up to the first one that is not a folder's. -/
theorem descend_cases (root : Node) (place : Place) (names : List Utf8.Bytes) :
    (∃ q, root.descend place names = some q)
      ∨ ∃ before name rest q, names = before ++ name :: rest ∧ root.StopsAt place before q name := by
  induction names using List.reverseRecOn with
  | nil => exact .inl ⟨place, rfl⟩
  | append_singleton names name ih =>
    rcases ih with ⟨q, hq⟩ | ⟨before, stop, rest, q, rfl, hstop⟩
    · cases hname : root.descend q [name] with
      | some q' => exact .inl ⟨q', by rw [descend_append, hq, Option.bind_some, hname]⟩
      | none => exact .inr ⟨names, name, [], q, rfl, stopsAt_of_descend hq hname⟩
    · exact .inr ⟨before, stop, rest ++ [name], q, by simp, hstop⟩

end Node

namespace Disk

variable {root : Node}

/-! ## Stretches -/

/-- **A stretch goes through folders.** -/
theorem stretch_append_of_descend {place q : Place} {names : List Utf8.Bytes}
    (h : root.descend place names = some q) (rest : List Utf8.Bytes) :
    stretch root place (names ++ rest) = stretch root q rest := by
  induction names generalizing place with
  | nil => rw [List.nil_append, Option.some.inj h]
  | cons name more ih =>
    -- the two recursions split in the same way, and only a folder lets the first one go on
    rw [Node.descend] at h
    rw [List.cons_append, stretch]
    split at h
    · next hidle => rw [if_pos hidle, ih h]
    · next hidle =>
      rw [if_neg hidle]
      split at h
      · next hup => rw [if_pos hup, ih h]
      · next hup =>
        rw [if_neg hup]
        split at h
        · next es hes =>
          rw [hes]
          exact ih h
        · exact absurd h (Option.some_ne_none q).symm

theorem stretch_of_descend {place q : Place} {names : List Utf8.Bytes}
    (h : root.descend place names = some q) : stretch root place names = .arrived (.taken q) := by
  rw [← List.append_nil names, stretch_append_of_descend h, stretch]

/-- **A stretch stops at the first name that is not a folder's**: at a link in any case, and at a file
or at nothing only if no name is left. -/
theorem stretch_of_stopsAt {place q : Place} {before : List Utf8.Bytes} {name : Utf8.Bytes}
    (h : root.StopsAt place before q name) (rest : List Utf8.Bytes) :
    stretch root place (before ++ name :: rest) = match root.get? (q ++ [name]) with
      | some (.link target) => .linked q target rest
      | some _ => if rest.isEmpty then .arrived (.taken (q ++ [name])) else .failed .notADirectory
      | none => if rest.isEmpty then .arrived (.vacant q name) else .failed .notFound := by
  rw [stretch_append_of_descend h.descend, stretch, h.isIdle_eq_false, if_neg Bool.false_ne_true,
    if_neg h.ne_up]
  cases hnode : root.get? (q ++ [name]) with
  | none => rfl
  | some node =>
    cases node with
    | folder es => exact absurd ⟨es, hnode⟩ h.not_isFolderAt
    | file contents => rfl
    | link target => rfl

/-- **Where names do not lead through folders alone, a stretch leads to no folder**: it fails, or it
ends at a file or at a name that is free. -/
theorem stretch_of_descend_eq_none (hroot : root.isTree = true) {place : Place}
    {names : List Utf8.Bytes} (h : root.descend place names = none) :
    (∃ cause, stretch root place names = .failed cause)
      ∨ (∃ folder name, stretch root place names = .arrived (.vacant folder name))
      ∨ ∃ q contents, stretch root place names = .arrived (.taken q)
        ∧ root.get? q = some (.file contents) := by
  rcases root.descend_cases place names with ⟨q, hq⟩ | ⟨before, name, rest, q, rfl, hstop⟩
  · cases h.symm.trans hq
  rw [stretch_of_stopsAt hstop]
  cases hnode : root.get? (q ++ [name]) with
  | none =>
    cases rest with
    | nil => exact .inr (.inl ⟨q, name, rfl⟩)
    | cons _ _ => exact .inl ⟨.notFound, rfl⟩
  | some node =>
    cases node with
    | folder es => exact absurd ⟨es, hnode⟩ hstop.not_isFolderAt
    | link target => exact absurd rfl (Node.ne_link_of_get? hroot hnode target)
    | file contents =>
      cases rest with
      | nil => exact .inr (.inr ⟨q ++ [name], contents, rfl, hnode⟩)
      | cons _ _ => exact .inl ⟨.notADirectory, rfl⟩

theorem walk_eq_ok {place : Place} {names : List Utf8.Bytes} {spot : Spot}
    (h : stretch root place names = .arrived spot) : walk root place names = .ok spot := by
  rw [walk, follow, h]

theorem walk_eq_error {place : Place} {names : List Utf8.Bytes} {cause : Cause}
    (h : stretch root place names = .failed cause) : walk root place names = .error cause := by
  rw [walk, follow, h]

theorem walk_of_descend {place q : Place} {names : List Utf8.Bytes}
    (h : root.descend place names = some q) : walk root place names = .ok (.taken q) :=
  walk_eq_ok (stretch_of_descend h)

/-! ## Paths -/

/-- A disk without links, whose names are proper and in order, and on which one is in a folder. -/
structure WellFormed (d : Disk) : Prop where
  tree : d.root.isTree = true
  here : d.root.IsFolderAt d.folder

namespace WellFormed

variable {d : Disk} {q : Place} {es : Entries}

theorem sorted (hd : d.WellFormed) (hes : d.root.get? q = some (.folder es)) : es.Sorted :=
  (Node.isTreeAmong_iff.1 (Node.isTree_of_get? hd.tree hes)).1

theorem isName_of_mem (hd : d.WellFormed) (hes : d.root.get? q = some (.folder es))
    {e : Utf8.Bytes × Node} (he : e ∈ es) : Path.IsName e.1 :=
  ((Node.isTreeAmong_iff.1 (Node.isTree_of_get? hd.tree hes)).2 e he).1

theorem get?_of_mem (hd : d.WellFormed) (hes : d.root.get? q = some (.folder es))
    {e : Utf8.Bytes × Node} (he : e ∈ es) : d.root.get? (q ++ [e.1]) = some e.2 := by
  rw [Node.get?_append_singleton hes, Entries.find?_eq_some_of_mem (hd.sorted hes) he]

end WellFormed

/-- The folder that a path leads to, through folders alone. -/
def folderAt? (d : Disk) (p : Path) : Option Place :=
  if p.isEmpty then none else d.root.descend (start d.folder p) p.steps

variable {d : Disk}

theorem folderAt?_eq {p : Path} (hp : p ≠ []) :
    d.folderAt? p = d.root.descend (start d.folder p) p.steps := by
  rw [folderAt?, if_neg (by simpa using hp)]

theorem ne_nil_of_folderAt? {p : Path} {q : Place} (h : d.folderAt? p = some q) : p ≠ [] := by
  rintro rfl
  exact absurd h (Option.some_ne_none q).symm

theorem WellFormed.isFolderAt_start (hd : d.WellFormed) (p : Path) :
    d.root.IsFolderAt (start d.folder p) := by
  rw [start]
  split
  · exact Node.isFolderAt_nil hd.here
  · exact hd.here

theorem WellFormed.isFolderAt (hd : d.WellFormed) {p : Path} {q : Place}
    (h : d.folderAt? p = some q) : d.root.IsFolderAt q := by
  rw [folderAt?_eq (ne_nil_of_folderAt? h)] at h
  exact Node.isFolderAt_descend (hd.isFolderAt_start p) h

theorem folderAt?_congr {p p' : Path} (hp : p ≠ []) (hp' : p' ≠ [])
    (habsolute : p.isAbsolute = p'.isAbsolute) (hsteps : p.steps = p'.steps) :
    d.folderAt? p = d.folderAt? p' := by
  rw [folderAt?_eq hp, folderAt?_eq hp', hsteps, start, start, habsolute]

theorem find_of_folderAt? {p : Path} {q : Place} {node : Node} (hq : d.folderAt? p = some q)
    (hnode : d.root.get? q = some node) : d.find p = .ok node := by
  have hp := ne_nil_of_folderAt? hq
  rw [folderAt?_eq hp, Path.steps, Node.descend_filter] at hq
  have hlocate : d.locate p = .ok (.taken q) := by
    rw [locate, if_neg (by simpa using hp)]
    exact walk_of_descend hq
  rw [find, hlocate]
  dsimp only
  rw [hnode]

/-- **A path that leads to no folder through folders leads to none at all.** -/
theorem find_ne_folder (hd : d.WellFormed) {p : Path} (hq : d.folderAt? p = none) (es : Entries) :
    d.find p ≠ .ok (.folder es) := by
  intro hfind
  rw [find, locate] at hfind
  split at hfind
  · cases hfind
  · cases hfind
  · next place hlocate =>
    split at hlocate
    · cases hlocate
    · next hp =>
      rw [folderAt?, if_neg hp, Path.steps, Node.descend_filter] at hq
      -- each way in which a stretch may end without links is something else than a folder
      rcases stretch_of_descend_eq_none hd.tree hq with ⟨cause, h⟩ | ⟨folder, name, h⟩
        | ⟨q, contents, h, hfile⟩
      · rw [walk_eq_error h] at hlocate
        cases hlocate
      · rw [walk_eq_ok h] at hlocate
        cases Except.ok.inj hlocate
      · rw [walk_eq_ok h] at hlocate
        rw [← Spot.taken.inj (Except.ok.inj hlocate), hfile] at hfind
        cases Except.ok.inj hfind

theorem isFolder_eq (hd : d.WellFormed) (p : Path) : d.isFolder p = (d.folderAt? p).isSome := by
  cases hq : d.folderAt? p with
  | some q =>
    obtain ⟨es, hes⟩ := hd.isFolderAt hq
    rw [isFolder, find_of_folderAt? hq hes]
    rfl
  | none =>
    rw [isFolder]
    split
    · next es hfind => exact absurd hfind (find_ne_folder hd hq es)
    · rfl

theorem isFolder_eq_true_iff (hd : d.WellFormed) {p : Path} :
    d.isFolder p = true ↔ ∃ q, d.folderAt? p = some q := by
  rw [isFolder_eq hd, Option.isSome_iff_exists]

theorem isFolder_eq_false_iff (hd : d.WellFormed) {p : Path} :
    d.isFolder p = false ↔ d.folderAt? p = none := by
  rw [isFolder_eq hd, Option.isSome_eq_false_iff, Option.isNone_iff_eq_none]

theorem list_eq_ok {p : Path} {q : Place} {es : Entries} (hq : d.folderAt? p = some q)
    (hes : d.root.get? q = some (.folder es)) : d.list p = .ok es := by
  rw [list, find_of_folderAt? hq hes]

theorem list_eq_error (hd : d.WellFormed) {p : Path} (hq : d.folderAt? p = none) :
    ∃ cause, d.list p = .error cause := by
  rw [list]
  split
  · next es hfind => exact absurd hfind (find_ne_folder hd hq es)
  · exact ⟨_, rfl⟩
  · exact ⟨_, rfl⟩

/-! ## Names in a folder -/

section Join

variable {p : Path} {q : Place} {name : Utf8.Bytes}

theorem start_join (hp : p ≠ []) (hname : Path.IsName name) (here : Place) :
    start here (p.join name) = start here p := by
  rw [start, start, Path.isAbsolute_join hp hname]

/-- Before a name that is joined to a path, the segments lead where the path does. A path that ends in
a slash loses an empty segment there. -/
theorem exists_segments_join (hq : d.folderAt? p = some q) (hname : Path.IsName name) :
    ∃ ss, (p.join name).segments = ss ++ [name]
      ∧ d.root.descend (start d.folder p) ss = some q := by
  have hp := ne_nil_of_folderAt? hq
  obtain ⟨ss, -, hss, hsegments⟩ := Path.segments_join hp
  refine ⟨ss, hsegments hname, ?_⟩
  rw [folderAt?_eq hp, Path.steps, Node.descend_filter] at hq
  rcases hss with hss | hss
  · rw [← hss, hq]
  · rw [hss, Node.descend_append] at hq
    obtain ⟨q', hq', hlast⟩ := Option.bind_eq_some_iff.1 hq
    rw [hq', ← Option.some.inj hlast]

theorem folderAt?_join (hq : d.folderAt? p = some q) (hname : Path.IsName name) :
    d.folderAt? (p.join name) = match d.root.get? (q ++ [name]) with
      | some (.folder _) => some (q ++ [name])
      | _ => none := by
  have hp := ne_nil_of_folderAt? hq
  rw [folderAt?_eq hp] at hq
  rw [folderAt?_eq (Path.join_ne_nil p hname), Path.steps_join hp hname, Node.descend_append,
    start_join hp hname, hq, Option.bind_some, Node.descend_singleton hname]

/-- **There is no folder in what is not a folder itself.** -/
theorem folderAt?_join_eq_none (hp : p ≠ []) (hq : d.folderAt? p = none)
    (hname : Path.IsName name) : d.folderAt? (p.join name) = none := by
  rw [folderAt?_eq hp] at hq
  rw [folderAt?_eq (Path.join_ne_nil p hname), Path.steps_join hp hname, Node.descend_append,
    start_join hp hname, hq]
  rfl

end Join

end Disk

end MessageCompiler
