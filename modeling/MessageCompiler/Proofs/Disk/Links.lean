import MessageCompiler.Proofs.Disk.Walk

/-!
# Walks through links

A walk goes on where a link points, through so many links at most, and what it comes to after some
names depends on the names before only by the folder that these lead to and the number of links that
are left. `Disk.LeadsTo` says to which folder a path leads, whether through links or not.

* **`stretch_append`, `follow_append`**: a walk goes on from the folder that the first names lead to.
* **`exists_locate_join`**: in a folder one looks for a name from the place of the folder on.
* **`LeadsTo.locate_join`, `LeadsTo.write_join`**: a name that is no link leads to its own place.
* **`find_join`, `write_join`**: what is found and written in a folder where there are no links.
-/

namespace MessageCompiler

/-! ## Trees with links -/

/-- In all folders of a tree the entries have proper names and stand in the order of their names. -/
def Node.Orderly (root : Node) : Prop :=
  ∀ (q : Place) (es : Entries), root.get? q = some (.folder es) →
    es.Sorted ∧ ∀ e ∈ es, Path.IsName e.1

namespace Node.Orderly

theorem file (contents : Utf8.Bytes) : (Node.file contents).Orderly := by
  intro q es h
  cases q <;> cases h

theorem link (target : Path) : (Node.link target).Orderly := by
  intro q es h
  cases q <;> cases h

theorem folder {es : Entries} (hsorted : es.Sorted)
    (hentries : ∀ e ∈ es, Path.IsName e.1 ∧ e.2.Orderly) : (Node.folder es).Orderly := by
  intro q es' h
  cases q with
  | nil =>
    rw [get?_nil] at h
    rw [← Node.folder.inj (Option.some.inj h)]
    exact ⟨hsorted, fun e he => (hentries e he).1⟩
  | cons name rest =>
    obtain ⟨_, child, hes, hchild, hrest⟩ := exists_folder_of_get?_cons h
    rw [← Node.folder.inj hes] at hchild
    exact (hentries _ (Entries.mem_of_find?_eq_some hchild)).2 rest es' hrest

end Node.Orderly

namespace Disk

variable {root : Node} {place q : Place} {names more : List Utf8.Bytes} {name : Utf8.Bytes}

/-! ## Stretches -/

/-- **A stretch goes on from the folder that the first names lead to.** It fails if they lead to a
file or to nothing, and stops where they lead to a link. -/
theorem stretch_append (hplace : root.IsFolderAt place) (hmore : more ≠ []) :
    stretch root place (names ++ more) = match stretch root place names with
      | .arrived (.taken q) =>
        match root.get? q with
        | some (.folder _) => stretch root q more
        | _ => .failed .notADirectory
      | .arrived (.vacant _ _) => .failed .notFound
      | .failed cause => .failed cause
      | .linked folder target rest => .linked folder target (rest ++ more) := by
  rcases root.descend_cases place names with ⟨q, hq⟩ | ⟨before, name, rest, q, rfl, hstop⟩
  · obtain ⟨es, hes⟩ := Node.isFolderAt_descend hplace hq
    rw [stretch_append_of_descend hq, stretch_of_descend hq]
    dsimp only
    rw [hes]
  have hempty : (rest ++ more).isEmpty = false := by simp [hmore]
  rw [List.append_assoc, List.cons_append, stretch_of_stopsAt hstop, stretch_of_stopsAt hstop, hempty]
  cases hnode : root.get? (q ++ [name]) with
  | none => cases rest <;> rfl
  | some node =>
    cases node with
    | folder es => exact absurd ⟨es, hnode⟩ hstop.not_isFolderAt
    | link target => rfl
    | file contents =>
      cases rest with
      | nil =>
        -- the file is where the first names lead, but nothing is in it
        simp [hnode]
      | cons _ _ => rfl

theorem stretch_name (hname : Path.IsName name) : stretch root q [name]
    = match root.get? (q ++ [name]) with
      | some (.link target) => .linked q target []
      | some _ => .arrived (.taken (q ++ [name]))
      | none => .arrived (.vacant q name) := by
  rw [stretch, hname.isIdle_eq_false, if_neg Bool.false_ne_true, if_neg hname.ne_up]
  cases root.get? (q ++ [name]) with
  | none => rfl
  | some node => cases node <;> rfl

theorem get?_of_stretch (hplace : root.IsFolderAt place)
    (h : stretch root place names = .arrived (.taken q)) :
    root.IsFolderAt q ∨ ∃ contents, root.get? q = some (.file contents) := by
  rcases root.descend_cases place names with ⟨q', hq'⟩ | ⟨before, name, rest, q', rfl, hstop⟩
  · cases (stretch_of_descend hq').symm.trans h
    exact .inl (Node.isFolderAt_descend hplace hq')
  rw [stretch_of_stopsAt hstop] at h
  cases hnode : root.get? (q' ++ [name]) with
  | none => rw [hnode] at h; cases rest <;> cases h
  | some node =>
    rw [hnode] at h
    cases node with
    | folder es => exact absurd ⟨es, hnode⟩ hstop.not_isFolderAt
    | link target => cases h
    | file contents =>
      cases rest with
      | nil => cases h; exact .inr ⟨contents, hnode⟩
      | cons _ _ => cases h

theorem vacant_of_stretch (hplace : root.IsFolderAt place)
    (h : stretch root place names = .arrived (.vacant q name)) :
    root.IsFolderAt q ∧ root.get? (q ++ [name]) = none ∧ name ∈ names
      ∧ Path.isIdle name = false ∧ name ≠ Path.up := by
  rcases root.descend_cases place names with ⟨q', hq'⟩ | ⟨before, stop, rest, q', rfl, hstop⟩
  · cases (stretch_of_descend hq').symm.trans h
  rw [stretch_of_stopsAt hstop] at h
  cases hnode : root.get? (q' ++ [stop]) with
  | none =>
    rw [hnode] at h
    cases rest with
    | nil =>
      cases h
      exact ⟨Node.isFolderAt_descend hplace hstop.descend, hnode, by simp, hstop.isIdle_eq_false,
        hstop.ne_up⟩
    | cons _ _ => cases h
  | some node =>
    rw [hnode] at h
    cases node with
    | link target => cases h
    | folder es => cases rest <;> cases h
    | file contents => cases rest <;> cases h

theorem stopsAt_of_linked {folder : Place} {target : Path} {rest : List Utf8.Bytes}
    (h : stretch root place names = .linked folder target rest) :
    ∃ before name, names = before ++ name :: rest ∧ root.StopsAt place before folder name := by
  rcases root.descend_cases place names with ⟨q', hq'⟩ | ⟨before, stop, left, q', rfl, hstop⟩
  · cases (stretch_of_descend hq').symm.trans h
  rw [stretch_of_stopsAt hstop] at h
  cases hnode : root.get? (q' ++ [stop]) with
  | none => rw [hnode] at h; cases left <;> cases h
  | some node =>
    rw [hnode] at h
    cases node with
    | folder es => cases left <;> cases h
    | file contents => cases left <;> cases h
    | link target =>
      cases h
      exact ⟨before, stop, rfl, hstop⟩

theorem isFolderAt_of_linked (hplace : root.IsFolderAt place) {folder : Place} {target : Path}
    {rest : List Utf8.Bytes} (h : stretch root place names = .linked folder target rest) :
    root.IsFolderAt folder := by
  obtain ⟨before, stop, -, hstop⟩ := stopsAt_of_linked h
  exact Node.isFolderAt_descend hplace hstop.descend

theorem suffix_of_linked {folder : Place} {target : Path} {rest : List Utf8.Bytes}
    (h : stretch root place names = .linked folder target rest) : rest <:+ names := by
  obtain ⟨before, stop, rfl, -⟩ := stopsAt_of_linked h
  exact ⟨before ++ [stop], by simp⟩

theorem isFolderAt_start (hplace : root.IsFolderAt place) (p : Path) :
    root.IsFolderAt (start place p) := by
  rw [start]
  split
  · exact Node.isFolderAt_nil hplace
  · exact hplace

/-! ## Walks -/

section Follow

variable {n : Nat}

/-- **A walk goes on from the folder that the first names lead to**, with the links that are left. -/
theorem follow_append (hplace : root.IsFolderAt place)
    (h : follow root n place names = .ok (.taken q)) (hq : root.IsFolderAt q) :
    ∃ k, ∀ more ≠ [], follow root n place (names ++ more) = follow root (k + 1) q more := by
  induction n generalizing place names with
  | zero => cases h
  | succ n ih =>
    rw [follow] at h
    split at h
    · next spot hstretch =>
      obtain rfl := Except.ok.inj h
      obtain ⟨es, hes⟩ := hq
      refine ⟨n, fun more hmore => ?_⟩
      rw [follow, stretch_append hplace hmore, hstretch]
      dsimp only
      rw [hes, follow]
    · cases h
    · next folder target rest hstretch =>
      have hfolder := isFolderAt_of_linked hplace hstretch
      -- the walk starts anew at the link, with one link less and the names that are left
      obtain ⟨k, hk⟩ := ih (isFolderAt_start hfolder target) h
      refine ⟨k, fun more hmore => ?_⟩
      rw [follow, stretch_append hplace hmore, hstretch]
      dsimp only
      rw [← List.append_assoc, hk more hmore]

/-- **Where a walk goes on after some names, these lead to a folder.** -/
theorem exists_follow_of_append (hplace : root.IsFolderAt place) {spot : Spot} (hmore : more ≠ [])
    (h : follow root n place (names ++ more) = .ok spot) :
    ∃ q, follow root n place names = .ok (.taken q) ∧ root.IsFolderAt q := by
  induction n generalizing place names with
  | zero => cases h
  | succ n ih =>
    rw [follow, stretch_append hplace hmore] at h
    rw [follow]
    cases hstretch : stretch root place names with
    | failed cause =>
      rw [hstretch] at h
      cases h
    | linked folder target rest =>
      have hfolder := isFolderAt_of_linked hplace hstretch
      rw [hstretch] at h
      dsimp only at h
      -- the names of the target and those that are left now stand before the same ones as ever
      rw [← List.append_assoc] at h
      exact ih (isFolderAt_start hfolder target) h
    | arrived spot' =>
      rw [hstretch] at h
      cases spot' with
      | vacant folder name => cases h
      | taken q =>
        refine ⟨q, rfl, ?_⟩
        rcases get?_of_stretch hplace hstretch with hq | ⟨contents, hfile⟩
        · exact hq
        · simp only [hfile] at h
          cases h

theorem vacant_of_follow (hplace : root.IsFolderAt place) (hnames : ∀ n ∈ names, Path.slash ∉ n)
    (h : follow root n place names = .ok (.vacant q name)) :
    root.IsFolderAt q ∧ root.get? (q ++ [name]) = none ∧ Path.IsName name := by
  induction n generalizing place names with
  | zero => cases h
  | succ n ih =>
    rw [follow] at h
    split at h
    · next spot hstretch =>
      obtain rfl := Except.ok.inj h
      obtain ⟨hq, hnone, hmem, hidle, hup⟩ := vacant_of_stretch hplace hstretch
      simp only [Path.isIdle, Bool.or_eq_false_iff, List.isEmpty_eq_false_iff, beq_eq_false_iff_ne]
        at hidle
      exact ⟨hq, hnone, hidle.1, hnames name hmem, hidle.2, hup⟩
    · cases h
    · next folder target rest hstretch =>
      have hfolder := isFolderAt_of_linked hplace hstretch
      -- a target's segments have no slash either
      refine ih (isFolderAt_start hfolder target) (fun n hn => ?_) h
      rcases List.mem_append.1 hn with hn | hn
      · exact Path.slash_not_mem_of_mem_segments hn
      · exact hnames n ((suffix_of_linked hstretch).subset hn)

end Follow

/-! ## Disks with links -/

/-- A disk whose names are proper and in order, links or not, and on which one is in a folder. -/
structure Orderly (d : Disk) : Prop where
  tree : d.root.Orderly
  here : d.root.IsFolderAt d.folder

theorem WellFormed.orderly {d : Disk} (hd : d.WellFormed) : d.Orderly :=
  ⟨fun _ _ hes => ⟨hd.sorted hes, fun _ => hd.isName_of_mem hes⟩, hd.here⟩

/-- The path leads to the folder at the place, through links or not. -/
structure LeadsTo (d : Disk) (p : Path) (q : Place) : Prop where
  locate : d.locate p = .ok (.taken q)
  isFolderAt : d.root.IsFolderAt q

variable {d : Disk} {p : Path}

namespace Orderly

theorem isFolderAt_start (hd : d.Orderly) (p : Path) : d.root.IsFolderAt (start d.folder p) :=
  Disk.isFolderAt_start hd.here p

theorem get?_of_mem (hd : d.Orderly) {es : Entries} (hes : d.root.get? q = some (.folder es))
    {e : Utf8.Bytes × Node} (he : e ∈ es) : d.root.get? (q ++ [e.1]) = some e.2 := by
  rw [Node.get?_append_singleton hes, Entries.find?_eq_some_of_mem (hd.tree q es hes).1 he]

end Orderly

theorem locate_eq (hp : p ≠ []) : d.locate p = walk d.root (start d.folder p) p.segments := by
  rw [locate, if_neg (by simpa using hp)]

theorem LeadsTo.ne_nil (h : d.LeadsTo p q) : p ≠ [] := by
  rintro rfl
  cases h.locate

theorem LeadsTo.unique {q' : Place} (h : d.LeadsTo p q) (h' : d.LeadsTo p q') : q = q' :=
  Spot.taken.inj (Except.ok.inj (h.locate.symm.trans h'.locate))

theorem find_eq_ok_iff {node : Node} : d.find p = .ok node
    ↔ ∃ q, d.locate p = .ok (.taken q) ∧ d.root.get? q = some node := by
  rw [find]
  constructor
  · intro h
    split at h
    · cases h
    · cases h
    · next q hlocate =>
      split at h
      · next found hfound => exact ⟨q, hlocate, hfound.trans (congrArg some (Except.ok.inj h))⟩
      · cases h
  · rintro ⟨q, hlocate, hnode⟩
    simp only [hlocate, hnode]

theorem isFile_of_find {contents : Utf8.Bytes} (h : d.find p = .ok (.file contents)) :
    d.isFile p = true := by
  rw [isFile, h]

theorem readFile_eq_ok_iff {contents : Utf8.Bytes} : d.readFile p = .ok contents
    ↔ d.find p = .ok (.file contents) := by
  rw [readFile]
  constructor
  · intro h
    split at h
    · next found hfind => rw [hfind, Except.ok.inj h]
    · cases h
    · cases h
  · intro h
    rw [h]

/-- **A file is read as text** if its bytes are one. -/
theorem readText_of_find {contents : Utf8.Bytes} (h : d.find p = .ok (.file contents)) :
    d.readText p = match Utf8.decode? contents with
      | some text => .ok text
      | none => .error .invalidUtf8 := by
  rewrite [readText, readFile_eq_ok_iff.2 h]
  rfl

theorem exists_of_readText {text : Text} (h : d.readText p = .ok text) :
    ∃ contents, d.find p = .ok (.file contents) ∧ Utf8.decode? contents = some text := by
  rw [readText] at h
  split at h
  · next contents hread =>
    split at h
    · next hdecode =>
      rw [Except.ok.inj h] at hdecode
      exact ⟨contents, readFile_eq_ok_iff.1 hread, hdecode⟩
    · cases h
  · cases h

theorem WellFormed.leadsTo (hd : d.WellFormed) (hq : d.folderAt? p = some q) : d.LeadsTo p q := by
  have hp := ne_nil_of_folderAt? hq
  refine ⟨?_, hd.isFolderAt hq⟩
  rw [folderAt?_eq hp, Path.steps, Node.descend_filter] at hq
  rw [locate_eq hp]
  exact walk_of_descend hq

theorem isFolder_iff : d.isFolder p = true ↔ ∃ q, d.LeadsTo p q := by
  rw [isFolder]
  constructor
  · intro h
    split at h
    · next es hfind =>
      obtain ⟨q, hlocate, hes⟩ := find_eq_ok_iff.1 hfind
      exact ⟨q, hlocate, es, hes⟩
    · cases h
  · rintro ⟨q, hlocate, es, hes⟩
    rw [find_eq_ok_iff.2 ⟨q, hlocate, hes⟩]

theorem isFile_iff : d.isFile p = true
    ↔ ∃ q contents, d.locate p = .ok (.taken q) ∧ d.root.get? q = some (.file contents) := by
  rw [isFile]
  constructor
  · intro h
    split at h
    · next contents hfind =>
      obtain ⟨q, hlocate, hfile⟩ := find_eq_ok_iff.1 hfind
      exact ⟨q, contents, hlocate, hfile⟩
    · cases h
  · rintro ⟨q, contents, hlocate, hfile⟩
    rw [find_eq_ok_iff.2 ⟨q, hlocate, hfile⟩]

theorem list_eq_ok_iff {es : Entries} : d.list p = .ok es
    ↔ ∃ q, d.LeadsTo p q ∧ d.root.get? q = some (.folder es) := by
  rw [list]
  constructor
  · intro h
    split at h
    · next es' hfind =>
      obtain rfl := Except.ok.inj h
      obtain ⟨q, hlocate, hes⟩ := find_eq_ok_iff.1 hfind
      exact ⟨q, ⟨hlocate, es', hes⟩, hes⟩
    · cases h
    · cases h
  · rintro ⟨q, hq, hes⟩
    rw [find_eq_ok_iff.2 ⟨q, hq.locate, hes⟩]

theorem isFolder_of_list {es : Entries} (h : d.list p = .ok es) : d.isFolder p = true := by
  obtain ⟨q, hq, -⟩ := list_eq_ok_iff.1 h
  exact isFolder_iff.2 ⟨q, hq⟩

/-! ## Names in a folder -/

/-- Whether a link in a folder has this name. -/
def hasLink (d : Disk) (folder : Path) (name : Utf8.Bytes) : Bool :=
  match d.list folder with
  | .error _ => false
  | .ok es =>
    match Entries.find? name es with
    | some (.link _) => true
    | _ => false

theorem LeadsTo.ne_link (hq : d.LeadsTo p q) (h : d.hasLink p name = false) (target : Path) :
    d.root.get? (q ++ [name]) ≠ some (.link target) := by
  intro hlink
  obtain ⟨es, hes⟩ := hq.isFolderAt
  rw [Node.get?_append_singleton hes] at hlink
  rw [hasLink, list_eq_ok_iff.2 ⟨q, hq, hes⟩] at h
  simp only [hlink] at h
  cases h

/-- **In a folder one looks for a name from the place of the folder on.** A path that ends in a slash
has an empty segment there, which stays in the folder. -/
theorem exists_locate_join (hd : d.Orderly) (hq : d.LeadsTo p q) :
    ∃ k, ∀ name, Path.IsName name →
      d.locate (p.join name) = follow d.root (k + 1) q [name] := by
  have hp := hq.ne_nil
  have hstart := hd.isFolderAt_start p
  have hlocate := hq.locate
  rw [locate_eq hp, walk] at hlocate
  obtain ⟨ss, -, hss, hjoin⟩ := Path.segments_join hp
  have hleads : follow d.root 41 (start d.folder p) ss = .ok (.taken q) := by
    rcases hss with hss | hss
    · rwa [hss] at hlocate
    · -- the empty segment behind the last slash stays where the others lead
      rw [hss] at hlocate
      obtain ⟨q', hq', hfolder'⟩ := exists_follow_of_append hstart (List.cons_ne_nil _ _) hlocate
      obtain ⟨k, hk⟩ := follow_append hstart hq' hfolder'
      have hend : follow d.root (k + 1) q' [[]] = .ok (.taken q') := rfl
      rw [hk _ (List.cons_ne_nil _ _), hend] at hlocate
      rw [hq', hlocate]
  obtain ⟨k, hk⟩ := follow_append hstart hleads hq.isFolderAt
  refine ⟨k, fun name hname => ?_⟩
  rw [locate_eq (Path.join_ne_nil p hname), start_join hp hname, walk, hjoin hname,
    hk _ (List.cons_ne_nil _ _)]

namespace LeadsTo

variable (hd : d.Orderly) (hq : d.LeadsTo p q) (hname : Path.IsName name)
  (hlink : ∀ target, d.root.get? (q ++ [name]) ≠ some (.link target))
include hd hq hname hlink

/-- **A name that is no link leads to its own place.** -/
theorem locate_join : d.locate (p.join name) = .ok
    (if (d.root.get? (q ++ [name])).isSome then .taken (q ++ [name]) else .vacant q name) := by
  obtain ⟨k, hk⟩ := exists_locate_join hd hq
  rw [hk name hname, follow, stretch_name hname]
  cases hnode : d.root.get? (q ++ [name]) with
  | none => rfl
  | some node =>
    cases node with
    | link target => exact absurd hnode (hlink target)
    | file contents => rfl
    | folder es => rfl

/-- A file is written under a name that is no link, unless a folder is in its place. -/
theorem write_join (contents : Utf8.Bytes) : d.write (p.join name) contents
    = match d.root.get? (q ++ [name]) with
      | some (.folder _) => .error .isADirectory
      | _ => .ok (d.put (q ++ [name]) (.file contents)) := by
  rw [write, locate_join hd hq hname hlink]
  cases hnode : d.root.get? (q ++ [name]) with
  | none => rfl
  | some node =>
    simp only [Option.isSome_some, if_true, hnode]
    cases node with
    | link target => exact absurd hnode (hlink target)
    | file contents => rfl
    | folder es => rfl

end LeadsTo

theorem LeadsTo.join (hd : d.Orderly) (hq : d.LeadsTo p q) (hname : Path.IsName name)
    (hfolder : d.root.IsFolderAt (q ++ [name])) : d.LeadsTo (p.join name) (q ++ [name]) := by
  obtain ⟨es, hes⟩ := hfolder
  have hlocate := locate_join hd hq hname fun target h => by
    cases hes.symm.trans h
  rw [hes, Option.isSome_some, if_pos rfl] at hlocate
  exact ⟨hlocate, es, hes⟩

/-! ## Names on a disk without links -/

section WellFormed

variable (hd : d.WellFormed) (hq : d.folderAt? p = some q) (hname : Path.IsName name)
include hd hq hname

theorem locate_join : d.locate (p.join name) = .ok
    (if (d.root.get? (q ++ [name])).isSome then .taken (q ++ [name]) else .vacant q name) :=
  (hd.leadsTo hq).locate_join hd.orderly hname fun target h => Node.ne_link_of_get? hd.tree h target rfl

/-- **In a folder one finds what is there under the name.** -/
theorem find_join : d.find (p.join name) = match d.root.get? (q ++ [name]) with
    | some node => .ok node
    | none => .error .notFound := by
  rw [find, locate_join hd hq hname]
  cases hnode : d.root.get? (q ++ [name]) with
  | none => rfl
  | some node => simp only [Option.isSome_some, if_true, hnode]

/-- A file is written in a folder unless a folder is in its place. -/
theorem write_join (contents : Utf8.Bytes) : d.write (p.join name) contents
    = match d.root.get? (q ++ [name]) with
      | some (.folder _) => .error .isADirectory
      | _ => .ok (d.put (q ++ [name]) (.file contents)) :=
  (hd.leadsTo hq).write_join hd.orderly hname
    (fun target h => Node.ne_link_of_get? hd.tree h target rfl) contents

end WellFormed

end Disk

end MessageCompiler
