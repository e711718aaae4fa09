import MessageCompiler.Proofs.Disk.Making

/-!
# Footprints

What is seen at a place is a folder, whatever it holds, or a file or a link as it is. The footprint
of a change says where folders may have been made and which files may have been written; at all other
places one sees what was there before.

* **`shows_put`**: what is seen after something is put in a folder.
* **`Footprint.trans`**: one change after the other.
* **`footprint_makeFolders`**: folders are made on the way to the one that is asked for.
* **`exists_folderAt?_of_mem_ancestors`**: a folder lies in all the folders above it.
-/

namespace MessageCompiler

/-- What is seen at a place, without looking into a folder. -/
inductive Sight where
  | folder
  | file (contents : Utf8.Bytes)
  | link (target : Path)
  deriving DecidableEq, Repr

/-- What is seen of a node. -/
def Node.sight : Node → Sight
  | .folder _ => .folder
  | .file contents => .file contents
  | .link target => .link target

namespace Disk

variable {d e f : Disk} {q : Place}

/-- What is seen at a place, if there is anything. -/
def shows (d : Disk) (q : Place) : Option Sight := (d.root.get? q).map Node.sight

theorem shows_eq_none_iff : d.shows q = none ↔ d.root.get? q = none := Option.map_eq_none_iff

theorem shows_eq_folder_iff : d.shows q = some .folder ↔ d.root.IsFolderAt q := by
  rw [shows, Node.IsFolderAt]
  cases d.root.get? q with
  | none => simp
  | some node => cases node <;> simp [Node.sight]

theorem shows_eq_file_iff {contents : Utf8.Bytes} :
    d.shows q = some (.file contents) ↔ d.root.get? q = some (.file contents) := by
  rw [shows]
  cases d.root.get? q with
  | none => simp
  | some node => cases node <;> simp [Node.sight]

/-- **What is put in a folder under a name that is no folder** is seen at its place, and all other
places show what they did. -/
theorem shows_put {new : Node} (hnew : ∀ m r, new.get? (m :: r) = none)
    (hq : d.root.IsFolderAt q) {name : Utf8.Bytes} (hfree : ¬ d.root.IsFolderAt (q ++ [name]))
    (p : Place) : (d.put (q ++ [name]) new).shows p
      = if p = q ++ [name] then some new.sight else d.shows p := by
  rcases Place.cases_concat q name p with ⟨rest, rfl⟩ | ⟨rest, rfl⟩ | hapart
  · -- nothing is below the place, neither before nor afterwards
    rw [shows, put, Node.get?_put_append]
    cases rest with
    | nil => rw [List.append_nil, if_pos rfl, Node.get?_nil, Option.map_some]
    | cons m r =>
      have hnone : d.shows (q ++ [name] ++ m :: r) = none := by
        rw [shows_eq_none_iff, Option.eq_none_iff_forall_ne_some]
        intro node hnode
        obtain ⟨es, -, hes, -⟩ := Node.exists_folder_of_get?_append hnode
        exact hfree ⟨es, hes⟩
      rw [hnew, if_neg (by simp), hnone, Option.map_none]
  · -- the folders above are there before and afterwards
    have hbefore := Node.isFolderAt_of_append hq
    have hafter := (Node.isFolderAt_put_iff hnew hq hfree).2 (.inl hbefore)
    rw [if_neg (by simp), shows_eq_folder_iff.2 hafter, shows_eq_folder_iff.2 hbefore]
  · have hne : p ≠ q ++ [name] := fun heq => hapart.2 (heq ▸ List.prefix_refl p)
    rw [if_neg hne, shows, put, Node.get?_put_apart new hapart]
    rfl

/-! ## Footprints -/

/-- At each place one sees what was there before, or a folder that was made where nothing was, or a
file that was written where no folder was. -/
def Footprint (made : Place → Prop) (written : Place → Utf8.Bytes → Prop) (d e : Disk) : Prop :=
  ∀ q, e.shows q = d.shows q
    ∨ made q ∧ d.shows q = none ∧ e.shows q = some .folder
    ∨ ∃ contents, written q contents ∧ d.shows q ≠ some .folder ∧ e.shows q = some (.file contents)

namespace Footprint

variable {made made' : Place → Prop} {written written' : Place → Utf8.Bytes → Prop}

theorem refl (d : Disk) : Footprint made written d d := fun _ => .inl rfl

theorem mono (h : Footprint made written d e) (hmade : ∀ q, made q → made' q)
    (hwritten : ∀ q contents, written q contents → written' q contents) :
    Footprint made' written' d e := fun q =>
  (h q).imp_right (.imp (.imp_left (hmade q)) fun ⟨contents, hc, hrest⟩ =>
    ⟨contents, hwritten q contents hc, hrest⟩)

/-- **One change after the other.** A folder stays what it is, and a file that is written twice is as
it was written last. -/
theorem trans (h : Footprint made written d e) (h' : Footprint made written e f) :
    Footprint made written d f := by
  intro q
  rcases h' q with hsame | ⟨hmade, hnone, hfolder⟩ | ⟨contents, hwritten, hfree, hfile⟩
  · rw [hsame]
    exact h q
  · rcases h q with hbefore | ⟨-, -, hthere⟩ | ⟨_, -, -, hthere⟩
    · exact .inr (.inl ⟨hmade, hbefore ▸ hnone, hfolder⟩)
    · cases hthere.symm.trans hnone
    · cases hthere.symm.trans hnone
  · refine .inr (.inr ⟨contents, hwritten, fun hbefore => ?_, hfile⟩)
    rcases h q with hsame | ⟨-, hnone, -⟩ | ⟨_, -, hfree', -⟩
    · exact hfree (hsame.trans hbefore)
    · cases hnone.symm.trans hbefore
    · exact hfree' hbefore

theorem get?_eq_file_iff (h : Footprint made written d e) (hq : ∀ contents, ¬ written q contents)
    {contents : Utf8.Bytes} :
    e.root.get? q = some (.file contents) ↔ d.root.get? q = some (.file contents) := by
  rw [← shows_eq_file_iff, ← shows_eq_file_iff]
  rcases h q with hsame | ⟨-, hnone, hfolder⟩ | ⟨c, hc, -⟩
  · rw [hsame]
  · rw [hnone, hfolder]
    simp
  · exact absurd hc (hq c)

end Footprint

/-- **A file is written** in a folder. -/
theorem footprint_put_file (hq : d.root.IsFolderAt q) {name : Utf8.Bytes}
    (hfree : ¬ d.root.IsFolderAt (q ++ [name])) (contents : Utf8.Bytes) {made : Place → Prop}
    {written : Place → Utf8.Bytes → Prop} (hwritten : written (q ++ [name]) contents) :
    Footprint made written d (d.put (q ++ [name]) (.file contents)) := by
  intro p
  rw [shows_put (fun _ _ => rfl) hq hfree]
  split
  · next heq =>
    subst heq
    exact .inr (.inr ⟨contents, hwritten, fun h => hfree (shows_eq_folder_iff.1 h), rfl⟩)
  · exact .inl rfl

/-! ## Making folders -/

theorem footprint_makeFolder (hd : d.WellFormed) {p : Path} (h : d.makeFolder p = .ok e)
    {written : Place → Utf8.Bytes → Prop} :
    Footprint (fun q => e.folderAt? p = some q) written d e := by
  obtain ⟨q, es, name, hes, -, hnone, rfl, -, hleads⟩ := makeFolder_eq_ok hd h
  rw [← Node.get?_append_singleton hes] at hnone
  have hfree : ¬ d.root.IsFolderAt (q ++ [name]) := fun ⟨es', hes'⟩ => by
    cases hnone.symm.trans hes'
  intro r
  rw [shows_put (fun _ _ => rfl) ⟨es, hes⟩ hfree]
  split
  · next heq =>
    subst heq
    exact .inr (.inl ⟨hleads, shows_eq_none_iff.2 hnone, rfl⟩)
  · exact .inl rfl

/-- **Folders are made where the paths lead afterwards**, all of them or only some. -/
theorem footprint_makeAll (hd : d.WellFormed) {ps : List Path} {refused : Option Cause}
    (h : makeAll ps d = (e, refused)) {written : Place → Utf8.Bytes → Prop} :
    Footprint (fun q => ∃ p ∈ ps, e.folderAt? p = some q) written d e := by
  refine (makeAll_induction (fun e => d.Grown e
    ∧ Footprint (fun q => ∃ p ∈ ps, e.folderAt? p = some q) written d e) ?_ ⟨.refl, .refl d⟩ h).2
  rintro e e' p hp ⟨hgrown, hfootprint⟩ hmake
  have he := hgrown.wellFormed hd
  have hgrown' := grown_makeFolder he hmake
  refine ⟨hgrown.trans hgrown', .trans (hfootprint.mono ?_ fun _ _ h => h)
    ((footprint_makeFolder he hmake).mono (fun q hq => ⟨p, hp, hq⟩) fun _ _ h => h)⟩
  -- the folders that were there before are still where their paths lead
  rintro q ⟨p', hp', hq⟩
  exact ⟨p', hp', hgrown'.folderAt? hq⟩

theorem footprint_makeFolders (hd : d.WellFormed) {p : Path} {refused : Option Cause}
    (h : d.makeFolders p = (e, refused)) {written : Place → Utf8.Bytes → Prop} :
    Footprint (fun q => ∃ p' ∈ p :: p.ancestors, e.folderAt? p' = some q) written d e :=
  footprint_makeAll hd h

/-! ## Folders above a folder -/

/-- **A folder lies in all the folders above it.** -/
theorem exists_folderAt?_of_mem_ancestors (hd : d.WellFormed) {p : Path} (hq : d.folderAt? p = some q)
    {outer : Path} (houter : outer ∈ p.ancestors) (hne : outer ≠ []) :
    ∃ q', d.folderAt? outer = some q' := by
  refine Path.of_mem_of_isChain (fun p => ∃ q, d.folderAt? p = some q) ?_
    (Path.isChain_ancestors (ne_nil_of_folderAt? hq)) (fun _ => ⟨q, hq⟩) outer houter hne
  rintro p outer hp hne hwithin ⟨q, hq⟩
  refine Option.ne_none_iff_exists'.1 fun hnone => ?_
  rw [(makeFolder_ne_ok_of_within hd hp hwithin hne hnone).2] at hq
  cases hq

end Disk

end MessageCompiler
