import MessageCompiler.Proofs.Build.Recursive

/-!
# Which files a tree build compiles

A tree build comes to the builds of some files, one after the other. These are the definition files
directly in the folders that it visits, each once. Whether an entry is a regular file is asked when
its folder is built. A file that is there from the beginning stays; where there are symbolic links,
one that was none may have become one by then, since a file was generated where a link points.

* **`mem_definitionsIn_iff`**: the definition files in a folder.
* **`nodup_filesInTurn`**: no file is compiled twice.
* **`mem_filesInTurn_of_isDefinition`**: a definition that is there from the beginning is compiled.
* **`mem_filesInTurn_iff_of_wellFormed`**: without links no other file is compiled.
* **`not_unvisited_of_mem_turns`**: without links nothing is read in a folder that is not visited.
-/

namespace MessageCompiler.Build

open Disk

variable {d e : Disk} {p root : Path} {q : Place} {name : Utf8.Bytes}

/-! ## Definitions -/

/-- A regular file, or a link to one, is directly in a folder and has the extension of a
definition. -/
structure IsDefinition (disk : Disk) (folder : Path) (name : Utf8.Bytes) : Prop where
  listed : ∃ es, disk.list folder = .ok es ∧ name ∈ es.map Prod.fst
  named : ∃ stem, stem ≠ [] ∧ name = stem ++ Path.ofText ".msg".toList
  isFile : disk.isFile (folder.join name) = true

theorem definitionsIn_eq_nil (h : d.isFolder p = false) : definitionsIn d p = [] := by
  rw [definitionsIn]
  cases hlist : d.list p with
  | error cause => rfl
  | ok es => cases h.symm.trans (isFolder_of_list hlist)

theorem IsDefinition.isName (hd : d.Orderly) (h : IsDefinition d p name) : Path.IsName name := by
  obtain ⟨es, hlist, hname⟩ := h.listed
  obtain ⟨q, -, hes⟩ := list_eq_ok_iff.1 hlist
  exact List.forall_mem_map.2 (hd.tree q es hes).2 name hname

/-- **The definition files in a folder**, as paths. -/
theorem mem_definitionsIn_iff (hd : d.Orderly) {file : Path} :
    file ∈ definitionsIn d p ↔ ∃ name, IsDefinition d p name ∧ file = p.join name := by
  cases hfolder : d.isFolder p with
  | false =>
    rw [definitionsIn_eq_nil hfolder]
    constructor
    · -- what is no folder has no entries to be definitions
      exact fun h => absurd h List.not_mem_nil
    · rintro ⟨name, ⟨⟨es, hlist, -⟩, -, -⟩, -⟩
      cases hfolder.symm.trans (isFolder_of_list hlist)
  | true =>
    obtain ⟨q, hq⟩ := isFolder_iff.1 hfolder
    obtain ⟨es, hes⟩ := hq.isFolderAt
    have hlist := list_eq_ok_iff.2 ⟨q, hq, hes⟩
    rw [definitionsIn, hlist]
    simp only [Except.toOption, Option.getD_some, definitionFiles, List.mem_filter, List.mem_map,
      Bool.and_eq_true]
    constructor
    · rintro ⟨⟨entry, hentry, rfl⟩, hdefinition, hfile⟩
      rw [Path.isDefinitionFile_join p ((hd.tree q es hes).2 entry hentry)] at hdefinition
      exact ⟨entry.1, ⟨⟨es, hlist, List.mem_map_of_mem hentry⟩, Path.isDefinitionName_iff.1 hdefinition,
        hfile⟩, rfl⟩
    · rintro ⟨name, h, rfl⟩
      obtain ⟨es', hlist', hname⟩ := h.listed
      rw [Except.ok.inj (hlist'.symm.trans hlist)] at hname
      obtain ⟨entry, hentry, rfl⟩ := List.mem_map.1 hname
      refine ⟨⟨entry, hentry, rfl⟩, ?_, h.isFile⟩
      rw [Path.isDefinitionFile_join p (h.isName hd)]
      exact Path.isDefinitionName_iff.2 h.named

theorem nodup_definitionsIn (hd : d.Orderly) (p : Path) : (definitionsIn d p).Nodup := by
  cases hfolder : d.isFolder p with
  | false =>
    rw [definitionsIn_eq_nil hfolder]
    exact List.nodup_nil
  | true =>
    obtain ⟨q, hq⟩ := isFolder_iff.1 hfolder
    obtain ⟨es, hes⟩ := hq.isFolderAt
    obtain ⟨hsorted, hnames⟩ := hd.tree q es hes
    rw [definitionsIn, list_eq_ok_iff.2 ⟨q, hq, hes⟩]
    refine List.Nodup.filter _ ?_
    show (es.map (p.join ∘ Prod.fst)).Nodup
    rw [← List.map_map]
    have hproper : ∀ n ∈ es.map Prod.fst, Path.IsName n := List.forall_mem_map.2 hnames
    exact (Entries.nodup_names hsorted).map_on fun n hn n' hn' =>
      Path.join_injective (hproper n hn) (hproper n' hn')

/-- **A definition stays a definition** while the disk is extended. -/
theorem IsDefinition.of_extended (hd : d.Orderly) (hextended : d.Extended e)
    (h : IsDefinition d p name) : IsDefinition e p name := by
  obtain ⟨es, hlist, hname⟩ := h.listed
  obtain ⟨q, hq, hes⟩ := list_eq_ok_iff.1 hlist
  obtain ⟨⟨n, node⟩, hentry, rfl⟩ := List.mem_map.1 hname
  have hq' := hextended.leadsTo hq
  obtain ⟨es', hes'⟩ := hq'.isFolderAt
  obtain ⟨node', hnode'⟩ := hextended.exists_get? (hd.get?_of_mem hes hentry)
  rw [Node.get?_append_singleton hes'] at hnode'
  exact ⟨⟨es', list_eq_ok_iff.2 ⟨q, hq', hes'⟩,
    List.mem_map.2 ⟨_, Entries.mem_of_find?_eq_some hnode', rfl⟩⟩, h.named, hextended.isFile h.isFile⟩

theorem definitionsIn_of_grown (hd : d.WellFormed) (hgrown : d.Grown e) (hq : d.folderAt? p = some q) :
    definitionsIn e p = definitionsIn d p := by
  obtain ⟨es, hes⟩ := hd.isFolderAt hq
  obtain ⟨es', hes', hdefinitions, -⟩ := hgrown.entries hd hes
  have hq' := hgrown.folderAt? hq
  rw [definitionsIn, definitionsIn, list_eq_ok hq hes, list_eq_ok hq' hes']
  simp only [Except.toOption, Option.getD_some]
  rw [definitionFiles_eq hd hq hes, definitionFiles_eq (hgrown.wellFormed hd) hq' hes', hdefinitions]

/-! ## The files of a tree -/

section Files

variable (config : Config) (output : Option Path) {order : List Path}

/-- The files that are compiled when folders are built one after the other. -/
def filesInTurn (config : Config) (output : Option Path) (order : List Path) (disk : Disk) :
    List Path :=
  (turns (buildFolder config output) order disk).flatMap fun turn => definitionsIn turn.2 turn.1

/-- **Building folders comes to building their files**, one after the other. -/
theorem result_inTurn_buildFolder (order : List Path) (d : Disk) :
    (inTurn (buildFolder config output) order d).result
      = (inTurn (countFile config output) (filesInTurn config output order d) d).result :=
  result_inTurn_flatMap (fun folder d => buildFolder_result config output folder d) order d

theorem orderly_of_mem_turns (hd : d.Orderly) {turn : Path × Disk}
    (h : turn ∈ turns (buildFolder config output) order d) : d.Extended turn.2 ∧ turn.2.Orderly := by
  have hextended := of_mem_turns
    (fun folder _ => keeps_extended_buildFolder config output hd folder) Extended.refl h
  exact ⟨hextended, hextended.orderly hd⟩

theorem mem_filesInTurn_iff (hd : d.Orderly) {file : Path} : file ∈ filesInTurn config output order d
    ↔ ∃ turn ∈ turns (buildFolder config output) order d, ∃ name,
      IsDefinition turn.2 turn.1 name ∧ file = turn.1.join name := by
  rw [filesInTurn, List.mem_flatMap]
  exact exists_congr fun turn => and_congr_right fun hturn =>
    mem_definitionsIn_iff (orderly_of_mem_turns config output hd hturn).2

theorem filesInTurn_eq_nil (hroot : d.isFolder root = false)
    (horder : order.Perm (visitedFolders d root)) : filesInTurn config output order d = [] := by
  rw [visitedFolders_eq_singleton hroot] at horder
  rw [List.perm_singleton.1 horder]
  show definitionsIn d root ++ [] = []
  rw [definitionsIn_eq_nil hroot]
  rfl

variable (hd : d.Orderly) (horder : order.Perm (visitedFolders d root))
include hd horder

theorem visited_of_mem_turns {turn : Path × Disk}
    (h : turn ∈ turns (buildFolder config output) order d) : Visited d root turn.1 :=
  (mem_visitedFolders_iff_visited hd).1 (horder.mem_iff.1 (mem_of_mem_turns h))

/-- **No file is compiled twice.** -/
theorem nodup_filesInTurn : (filesInTurn config output order d).Nodup := by
  cases hroot : d.isFolder root with
  | false =>
    rw [filesInTurn_eq_nil config output hroot horder]
    exact List.nodup_nil
  | true =>
    obtain ⟨place, hplace⟩ := isFolder_iff.1 hroot
    have hdifferent : (turns (buildFolder config output) order d).Pairwise fun t t' => t.1 ≠ t'.1 := by
      rw [← List.pairwise_map, map_fst_turns]
      exact horder.nodup_iff.2 (nodup_visitedFolders hd hplace)
    refine List.nodup_flatMap.2 ⟨fun turn hturn => ?_, hdifferent.imp_of_mem ?_⟩
    · exact nodup_definitionsIn (orderly_of_mem_turns config output hd hturn).2 turn.1
    · intro turn turn' hturn hturn' hne file hfile hfile'
      -- a path tells the names on the way to it, and so its folder
      obtain ⟨names, hnames, hp⟩ := (visited_of_mem_turns config output hd horder hturn).exists_names
      obtain ⟨names', hnames', hp'⟩ := (visited_of_mem_turns config output hd horder hturn').exists_names
      have he := (orderly_of_mem_turns config output hd hturn).2
      have he' := (orderly_of_mem_turns config output hd hturn').2
      obtain ⟨-, name, hname, rfl⟩ := exists_name_of_mem_definitionsIn he hfile
      obtain ⟨-, name', hname', heq⟩ := exists_name_of_mem_definitionsIn he' hfile'
      rw [hp, hp', ← Path.joins_concat, ← Path.joins_concat] at heq
      have hall := List.forall_mem_append.2
        ⟨Path.forall_isName hnames, List.forall_mem_singleton.2 hname⟩
      have hall' := List.forall_mem_append.2
        ⟨Path.forall_isName hnames', List.forall_mem_singleton.2 hname'⟩
      have hsame := Path.joins_injective hplace.ne_nil hall hall' heq
      exact hne (by rw [hp, hp', (List.append_inj' hsame rfl).1])

/-- **A definition that is there from the beginning is compiled.** -/
theorem mem_filesInTurn_of_isDefinition (hp : Visited d root p) (h : IsDefinition d p name) :
    p.join name ∈ filesInTurn config output order d := by
  have hmem := horder.mem_iff.2 ((mem_visitedFolders_iff_visited hd).2 hp)
  obtain ⟨e, hturn⟩ : ∃ e, (p, e) ∈ turns (buildFolder config output) order d :=
    exists_turn_of_mem hmem d
  have hextended := (orderly_of_mem_turns config output hd hturn).1
  exact (mem_filesInTurn_iff config output hd).2 ⟨(p, e), hturn, name, h.of_extended hd hextended, rfl⟩

omit hd horder in
/-- Folders that were there when a disk began to grow keep their definitions, wherever on the way a run
of them starts. -/
theorem definitionsIn_of_mem_turns_of_grown (hd : d.WellFormed)
    (hsettled : ∀ c ∈ order, Settled d root c) (hgrown : d.Grown e) {turn : Path × Disk}
    (h : turn ∈ turns (buildFolder config output) order e) :
    definitionsIn turn.2 turn.1 = definitionsIn d turn.1 := by
  have hkept : d.Grown turn.2 :=
    of_mem_turns (fun c hc => (hsettled c hc).keeps config output hd) hgrown h
  obtain ⟨q, hq⟩ := (isFolder_eq_true_iff hd).1 (hsettled _ (mem_of_mem_turns h)).isFolder
  exact definitionsIn_of_grown hd hkept hq

omit hd in
/-- **Without links a folder still has the definitions from the beginning when its turn comes.** -/
theorem definitionsIn_of_mem_turns (hd : d.WellFormed) {turn : Path × Disk}
    (h : turn ∈ turns (buildFolder config output) order d) :
    definitionsIn turn.2 turn.1 = definitionsIn d turn.1 := by
  cases hroot : d.isFolder root with
  | false =>
    -- there is one turn, and it comes first
    rw [visitedFolders_eq_singleton hroot] at horder
    rw [List.perm_singleton.1 horder] at h
    rw [List.mem_singleton.1 h]
  | true =>
    exact definitionsIn_of_mem_turns_of_grown config output hd
      (fun c hc => .of_isFolder hd hroot (horder.mem_iff.1 hc)) .refl h

omit hd in
theorem filesInTurn_of_wellFormed (hd : d.WellFormed) :
    filesInTurn config output order d = order.flatMap (definitionsIn d) := by
  rw [filesInTurn, List.flatMap_congr fun turn hturn =>
    definitionsIn_of_mem_turns config output horder hd hturn, ← List.flatMap_map, map_fst_turns]

omit hd in
/-- **Without links no other file is compiled.** -/
theorem mem_filesInTurn_iff_of_wellFormed (hd : d.WellFormed) {file : Path} :
    file ∈ filesInTurn config output order d
      ↔ ∃ p name, Visited d root p ∧ IsDefinition d p name ∧ file = p.join name := by
  constructor
  · intro hfile
    obtain ⟨turn, hturn, hfile⟩ := List.mem_flatMap.1 hfile
    rw [definitionsIn_of_mem_turns config output horder hd hturn] at hfile
    obtain ⟨name, hname, rfl⟩ := (mem_definitionsIn_iff hd.orderly).1 hfile
    exact ⟨turn.1, name, visited_of_mem_turns config output hd.orderly horder hturn, hname, rfl⟩
  · rintro ⟨p, name, hp, hname, rfl⟩
    exact mem_filesInTurn_of_isDefinition config output hd.orderly horder hp hname

end Files

/-! ## What is read -/

/-- A place at any depth below a folder that lies in a visited one and has another name than a message
folder. The folder that the build starts from is at `place`. -/
def Unvisited (place r : Place) : Prop := ∃ names other rest,
  (∀ n ∈ names, Path.isMessageName n = true) ∧ Path.isMessageName other = false ∧ rest ≠ []
    ∧ r = place ++ names ++ other :: rest

theorem not_unvisited (place : Place) {names : List Utf8.Bytes}
    (hnames : ∀ n ∈ names, Path.isMessageName n = true) (name : Utf8.Bytes) :
    ¬ Unvisited place (place ++ names ++ [name]) := by
  rintro ⟨names', other, rest, -, hother, hrest, heq⟩
  obtain ⟨init, last, rfl⟩ := (List.eq_nil_or_concat rest).resolve_left hrest
  rw [List.concat_eq_append, ← List.cons_append, ← List.append_assoc,
    List.append_assoc place names'] at heq
  have hsame := List.append_cancel_left (List.append_inj' heq rfl).1
  have hmem : other ∈ names := by simp [hsame]
  cases (hnames other hmem).symm.trans hother

/-- **Nothing is read in a folder that is not visited**, unless through a link in one that is. -/
theorem not_unvisited_of_mem_turns (config : Config) (output : Option Path) {order : List Path}
    (hd : d.Orderly) (horder : order.Perm (visitedFolders d root)) {turn : Path × Disk}
    (h : turn ∈ turns (countFile config output) (filesInTurn config output order d) d) :
    ∃ p name, Visited d root p ∧ turn.1 = p.join name ∧ (d.hasLink p name = false →
      ∀ place, d.LeadsTo root place → ∀ r, turn.2.locate turn.1 = .ok (.taken r) →
        ¬ Unvisited place r) := by
  obtain ⟨⟨p, found⟩, hturn, name, hname, hfile⟩ :=
    (mem_filesInTurn_iff config output hd).1 (mem_of_mem_turns h)
  have hp := visited_of_mem_turns config output hd horder hturn
  refine ⟨p, name, hp, hfile, fun hlink place hplace r hr => ?_⟩
  obtain ⟨names, hnames, rfl, hfolder⟩ :=
    (mem_visitedFolders_iff hd hplace).1 ((mem_visitedFolders_iff_visited hd).2 hp)
  have hleads := hplace.joins hd (Path.forall_isName hnames) hfolder
  have hextended : d.Extended turn.2 :=
    of_mem_turns (fun file _ => keeps_extended_countFile config output hd file) Extended.refl h
  -- what is no link in the beginning is none when it is read, and leads to its own place
  have hlocate := (hextended.leadsTo hleads).locate_join (hextended.orderly hd)
    (hname.isName (orderly_of_mem_turns config output hd hturn).2) fun target htarget =>
      hleads.ne_link hlink target (hextended.get?_eq_link_iff.1 htarget)
  rw [hfile] at hr
  have hspot := Except.ok.inj (hlocate.symm.trans hr)
  split at hspot
  · rw [← Spot.taken.inj hspot]
    exact not_unvisited place hnames name
  · cases hspot

theorem result_inTurn_of_not_isFolder (config : Config) (output : Option Path) {order : List Path}
    (hroot : d.isFolder root = false) (horder : order.Perm (visitedFolders d root)) :
    (inTurn (buildFolder config output) order d).result = ({}, d) := by
  rw [result_inTurn_buildFolder, filesInTurn_eq_nil config output hroot horder]
  rfl

end MessageCompiler.Build
