import MessageCompiler.Proofs.Disk.Extension

/-!
# How a disk grows

A build only ever adds empty folders, and writes files that hold no definition. `Disk.Grown` is the
closure of these two additions. A disk that has grown still has its folders and its definitions, and
every folder that was searched before is searched in the same order; what is new among the folders
can be told apart by not having been there before.

* **`Grown.isFolderAt`, `Grown.folderAt?`**: folders stay, and paths still lead to them.
* **`Grown.wellFormed`**: a well-formed disk stays well-formed.
* **`Grown.entries`**: the definitions and the message folders that a folder has from the beginning.
* **`Grown.definitions_eq_nil`**: a folder that is new has no definitions.
-/

namespace MessageCompiler

namespace Entries

/-- The definitions among some entries, with the contents of their files. -/
def definitions (es : Entries) : List (Utf8.Bytes × Utf8.Bytes) :=
  es.filterMap fun e => match e.2 with
    | .file contents => if Path.isDefinitionName e.1 then some (e.1, contents) else none
    | _ => none

/-- The names of the message folders among some entries. -/
def messageNames (es : Entries) : List Utf8.Bytes :=
  es.filterMap fun e => if Path.isMessageName e.1 && e.2.isFolder then some e.1 else none

/-- What may be added to a folder under a name: an empty folder where nothing is, or a file that
holds no definition and takes the place of a file at most. -/
inductive Addition (es : Entries) (name : Utf8.Bytes) : Node → Prop
  | folder : Entries.find? name es = none → Addition es name (.folder [])
  | file {contents : Utf8.Bytes} : Path.isDefinitionName name = false →
    (∀ old, Entries.find? name es = some old → ∃ c, old = .file c) →
    Addition es name (.file contents)

theorem Addition.isTree {es : Entries} {name : Utf8.Bytes} {new : Node}
    (h : Addition es name new) : new.isTree = true := by
  cases h <;> rfl

theorem Addition.fits {es : Entries} {name : Utf8.Bytes} {new : Node} (h : Addition es name new) :
    Fits es name new := by
  cases h with
  | folder hnone => exact .folder hnone
  | file _ hold => exact .file hold

end Entries

namespace Disk

/-- The disks that come from a disk by additions. -/
inductive Grown (d : Disk) : Disk → Prop
  | refl : Grown d d
  | put {e : Disk} {q : Place} {es : Entries} {name : Utf8.Bytes} {new : Node} : Grown d e →
    e.root.get? q = some (.folder es) → Path.IsName name → Entries.Addition es name new →
    Grown d (e.put (q ++ [name]) new)

namespace Grown

theorem trans {d e f : Disk} (h : d.Grown e) (h' : e.Grown f) : d.Grown f := by
  induction h' with
  | refl => exact h
  | put _ hq hname hnew ih => exact ih.put hq hname hnew

theorem single {d : Disk} {q : Place} {es : Entries} {name : Utf8.Bytes} {new : Node}
    (hq : d.root.get? q = some (.folder es)) (hname : Path.IsName name)
    (hnew : Entries.Addition es name new) : d.Grown (d.put (q ++ [name]) new) :=
  refl.put hq hname hnew

theorem folder_eq {d e : Disk} (h : d.Grown e) : e.folder = d.folder := by
  induction h with
  | refl => rfl
  | put _ _ _ _ ih => exact ih

end Grown

/-! ## Folders stay -/

namespace Grown

variable {d e : Disk}

theorem extended (h : d.Grown e) : d.Extended e := by
  induction h with
  | refl => exact .refl
  | put _ hq hname hnew ih => exact ih.put hq hname hnew.fits

/-- **Folders stay.** -/
theorem isFolderAt (h : d.Grown e) {p : Place} (hp : d.root.IsFolderAt p) :
    e.root.IsFolderAt p := h.extended.isFolderAt hp

/-- **A well-formed disk stays well-formed.** -/
theorem wellFormed (h : d.Grown e) (hd : d.WellFormed) : e.WellFormed := by
  refine ⟨?_, ?_⟩
  · induction h with
    | refl => exact hd.tree
    | put _ hq hname hnew ih => exact Node.isTree_put ih hnew.isTree hq hname
  · rw [h.folder_eq]
    exact h.isFolderAt hd.here

theorem descend (h : d.Grown e) {place q : Place} {names : List Utf8.Bytes}
    (hq : d.root.descend place names = some q) : e.root.descend place names = some q := by
  induction names generalizing place with
  | nil => exact hq
  | cons name rest ih =>
    rw [Node.descend] at hq ⊢
    split
    · next hidle =>
      rw [if_pos hidle] at hq
      exact ih hq
    · next hidle =>
      rw [if_neg hidle] at hq
      split
      · next hup =>
        rw [if_pos hup] at hq
        exact ih hq
      · next hup =>
        rw [if_neg hup] at hq
        split at hq
        · next es hes =>
          obtain ⟨es', hes'⟩ := h.isFolderAt ⟨es, hes⟩
          rw [hes']
          exact ih hq
        · exact absurd hq (Option.some_ne_none q).symm

/-- **Paths still lead to the folders that they led to.** -/
theorem folderAt? (h : d.Grown e) {p : Path} {q : Place} (hq : d.folderAt? p = some q) :
    e.folderAt? p = some q := by
  have hp := ne_nil_of_folderAt? hq
  rw [folderAt?_eq hp] at hq ⊢
  rw [h.folder_eq]
  exact h.descend hq

/-! ## What folders hold from the beginning -/

/-- What is selected of the entries stays, if neither a new empty folder is selected nor any file of a
name that holds no definition. -/
theorem filterMap_insert_addition {α : Type} {es : Entries} (hes : es.Sorted) {name : Utf8.Bytes}
    {new : Node} (hnew : es.Addition name new) (f : Utf8.Bytes × Node → Option α)
    (hfolder : Entries.find? name es = none → f (name, .folder []) = none)
    (hfile : Path.isDefinitionName name = false → ∀ contents, f (name, .file contents) = none) :
    (Entries.insert name new es).filterMap f = es.filterMap f := by
  refine Entries.filterMap_insert hes f ?_
  cases hnew with
  | folder hnone =>
    rw [hnone]
    exact hfolder hnone
  | file hdef hold =>
    rw [hfile hdef]
    cases hfind : Entries.find? name es with
    | none => rfl
    | some old =>
      obtain ⟨c, rfl⟩ := hold old hfind
      exact (hfile hdef c).symm

theorem definitions_insert {es : Entries} (hes : es.Sorted) {name : Utf8.Bytes} {new : Node}
    (hnew : es.Addition name new) : (Entries.insert name new es).definitions = es.definitions :=
  filterMap_insert_addition hes hnew _ (fun _ => rfl) fun hdef _ =>
    if_neg (by rw [hdef]; exact Bool.false_ne_true)

theorem messageNames_insert {es : Entries} (hes : es.Sorted) {name : Utf8.Bytes} {new : Node}
    (hnew : es.Addition name new) {known : Utf8.Bytes → Bool}
    (hknown : Entries.find? name es = none → known name = false) :
    (Entries.insert name new es).messageNames.filter known = es.messageNames.filter known := by
  unfold Entries.messageNames
  rw [List.filter_filterMap, List.filter_filterMap]
  refine filterMap_insert_addition hes hnew _ (fun hnone => ?_) fun _ contents => ?_
  · show Option.filter known (if Path.isMessageName name && true then some name else none) = none
    split
    · rw [Option.filter_some, hknown hnone]
      rfl
    · rfl
  · dsimp only
    rw [Node.isFolder, Bool.and_false]
    rfl

/-- Where only a folder grows that was one before, the names stay what they were. -/
theorem messageNames_insert_folder {es : Entries} (hes : es.Sorted) {name : Utf8.Bytes}
    {sub : Entries} (hfind : Entries.find? name es = some (.folder sub)) (sub' : Entries) :
    (Entries.insert name (.folder sub') es).messageNames = es.messageNames := by
  refine Entries.filterMap_insert hes _ ?_
  rw [hfind]
  rfl

theorem definitions_insert_folder {es : Entries} (hes : es.Sorted) {name : Utf8.Bytes}
    {sub : Entries} (hfind : Entries.find? name es = some (.folder sub)) (sub' : Entries) :
    (Entries.insert name (.folder sub') es).definitions = es.definitions := by
  refine Entries.filterMap_insert hes _ ?_
  rw [hfind]
  rfl

/-- **The definitions of a folder stay what they were, and of its message folders those that were
there from the beginning**, in their order. -/
theorem entries (h : d.Grown e) (hd : d.WellFormed) {p : Place} {es : Entries}
    (hes : d.root.get? p = some (.folder es)) : ∃ es' : Entries,
      e.root.get? p = some (.folder es') ∧ es'.definitions = es.definitions
      ∧ es'.messageNames.filter (fun n => (d.root.get? (p ++ [n])).any Node.isFolder)
        = es.messageNames.filter (fun n => (d.root.get? (p ++ [n])).any Node.isFolder) := by
  induction h with
  | refl => exact ⟨es, hes, rfl, rfl⟩
  | @put e q outer name new hgrown hq hname hnew ih =>
    obtain ⟨es', hes', hdefs, hnames⟩ := ih
    have hsorted := (hgrown.wellFormed hd).sorted hes'
    rcases get?_put_folder hq hnew.fits hes' with h | ⟨rfl, rfl, h⟩ | ⟨m, sub, sub', hm, h⟩
    · exact ⟨es', h, hdefs, hnames⟩
    · refine ⟨_, h, (definitions_insert hsorted hnew).trans hdefs, ?_⟩
      refine (messageNames_insert hsorted hnew fun hnone => ?_).trans hnames
      -- a folder from the beginning would still be there
      by_contra hfolder
      obtain ⟨node, hnode, hisFolder⟩ := Option.any_eq_true _ _ |>.1 (by simpa using hfolder)
      obtain ⟨sub, rfl⟩ : ∃ sub, node = .folder sub := by
        cases node with
        | folder sub => exact ⟨sub, rfl⟩
        | file c => cases hisFolder
        | link t => cases hisFolder
      obtain ⟨sub', hsub'⟩ := hgrown.isFolderAt ⟨sub, hnode⟩
      rw [Node.get?_append_singleton hes', hnone] at hsub'
      cases hsub'
    · exact ⟨_, h, (definitions_insert_folder hsorted hm sub').trans hdefs, by
        rw [messageNames_insert_folder hsorted hm, hnames]⟩

/-- **A folder that was not there from the beginning has no definitions.** -/
theorem definitions_eq_nil (h : d.Grown e) (hd : d.WellFormed) {p : Place}
    (hp : ¬ d.root.IsFolderAt p) {es : Entries} (hes : e.root.get? p = some (.folder es)) :
    es.definitions = [] := by
  induction h generalizing es with
  | refl => exact absurd ⟨es, hes⟩ hp
  | @put e q outer name new hgrown hq hname hnew ih =>
    by_cases hold : e.root.IsFolderAt p
    · obtain ⟨es', hes'⟩ := hold
      have hnone := ih hes'
      have hsorted := (hgrown.wellFormed hd).sorted hes'
      rcases get?_put_folder hq hnew.fits hes' with h | ⟨rfl, rfl, h⟩ | ⟨m, sub, sub', hm, h⟩
      · rw [Node.folder.inj (Option.some.inj (hes.symm.trans h)), hnone]
      · rw [Node.folder.inj (Option.some.inj (hes.symm.trans h)), definitions_insert hsorted hnew,
          hnone]
      · rw [Node.folder.inj (Option.some.inj (hes.symm.trans h)),
          definitions_insert_folder hsorted hm, hnone]
    · rw [eq_nil_of_get?_put hq hnew.fits hold hes]
      rfl

end Grown

end Disk

end MessageCompiler
