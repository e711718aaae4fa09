import Mathlib.Data.List.Basic
import MessageCompiler.Proofs.Build.Accounting
import MessageCompiler.Proofs.Build.Repetition

/-!
# Trees that are built again

A tree build writes in the tree that it searches, and yet finds the same the next time. The folders
that it makes are named as output folders and not as message folders, and no file that it writes is
named as a definition. So a second build visits the same folders and compiles the same definitions,
each of which overlays what has been left of the others; what failed fails again.

* **`keeps_outputsAdded_buildFolder`**: with the default output all folders that are made are output
  folders.
* **`OutputsAdded.sameSources`**: the folders to be visited and the definitions in them are the same.
* **`result_buildTree_again`**: a second build comes to the same and changes nothing.
* **`tree_rebuild`**: rebuilding under every schedule.
-/

namespace MessageCompiler.Build

open Disk

variable {d d₀ : Disk} {root p : Path} {q place : Place}

/-! ## Folders that are made -/

/-- A disk has grown, and all folders that are new are named as output folders. -/
structure OutputsAdded (d₀ d : Disk) : Prop where
  grown : d₀.Grown d
  eq_built : ∀ r name, d.root.IsFolderAt (r ++ [name]) → ¬ d₀.root.IsFolderAt (r ++ [name]) →
    name = Path.built

theorem OutputsAdded.refl (d : Disk) : OutputsAdded d d := ⟨.refl, fun _ _ h hnew => absurd h hnew⟩

section Outputs

variable (config : Config) {output : Option Path}

theorem keeps_outputsAdded_countFile (hd₀ : d₀.WellFormed) (houtput : output.getD [] = [])
    {definition : Utf8.Bytes × Utf8.Bytes} (h : HasDefinition d₀ p q definition) :
    Keeps (OutputsAdded d₀) (countFile config output (p.join definition.1)) := by
  intro d hd
  refine ⟨keeps_grown_countFile config output hd₀ _ d hd.grown, fun r name hfolder hnew => ?_⟩
  cases hmessage : message? definition with
  | none =>
    obtain ⟨t, ht⟩ := h.exists_idle config output hd₀ hmessage
    rw [(Prod.mk.inj (ht d hd.grown)).2] at hfolder
    exact hd.eq_built r name hfolder hnew
  | some found =>
    have hresult := h.result_default config output hd₀ houtput hmessage hd.grown
    rw [(Prod.mk.inj hresult).2] at hfolder
    -- the one folder that a delivery can make is the output folder
    rcases attempt_deliveries (h.of_grown hd₀ hd.grown).isFolderAt with
      hrefused | ⟨e, he, hiff, hdelivered⟩
    · rw [hrefused] at hfolder
      exact hd.eq_built r name hfolder hnew
    · rw [hdelivered, isFolderAt_attempt_writings he, hiff] at hfolder
      rcases hfolder with hold | heq
      · exact hd.eq_built r name hold hnew
      · exact (List.cons.inj (List.append_inj' heq rfl).2).1

/-- **All folders that are made are output folders**, if the output is the default. -/
theorem keeps_outputsAdded_buildFolder (hd₀ : d₀.WellFormed) (houtput : output.getD [] = [])
    (hq : d₀.folderAt? p = some q) : Keeps (OutputsAdded d₀) (buildFolder config output p) := by
  obtain ⟨es, hes⟩ := hd₀.isFolderAt hq
  intro d hd
  rw [buildFolder_eq config output hd₀ hq hes hd.grown]
  refine Keeps.inTurn (fun file hfile => ?_) d hd
  obtain ⟨definition, hmem, rfl⟩ := List.mem_map.1 hfile
  exact keeps_outputsAdded_countFile config hd₀ houtput ⟨hq, es, hes, hmem⟩

end Outputs

/-! ## What a build finds -/

/-- A tree build finds the same on two disks: the folders to be visited, the definitions in them, and
what these say. -/
structure SameSources (d e : Disk) (root : Path) : Prop where
  visited : ∀ p, Visited e root p ↔ Visited d root p
  isDefinition : ∀ p, Visited d root p → ∀ name, IsDefinition e p name ↔ IsDefinition d p name
  readFile : ∀ p, Visited d root p → ∀ name, IsDefinition d p name →
    e.readFile (p.join name) = d.readFile (p.join name)

theorem SameSources.refl (d : Disk) (root : Path) : SameSources d d root :=
  ⟨fun _ => .rfl, fun _ _ _ => .rfl, fun _ _ _ _ => rfl⟩

theorem exists_hasDefinition_of_mem (hd₀ : d₀.WellFormed) (hq : d₀.folderAt? p = some q) {file : Path}
    (h : file ∈ definitionsIn d₀ p) :
    ∃ definition, HasDefinition d₀ p q definition ∧ file = p.join definition.1 := by
  obtain ⟨es, hes⟩ := hd₀.isFolderAt hq
  rw [definitionsIn, list_eq_ok hq hes] at h
  simp only [Except.toOption, Option.getD_some] at h
  rw [definitionFiles_eq hd₀ hq hes] at h
  obtain ⟨definition, hmem, rfl⟩ := List.mem_map.1 h
  exact ⟨definition, ⟨hq, es, hes, hmem⟩, rfl⟩

/-- **A folder that has been there keeps its definitions**, and gets no others. -/
theorem isDefinition_iff_of_grown (hd : d₀.WellFormed) (hgrown : d₀.Grown d)
    (hq : d₀.folderAt? p = some q) {name : Utf8.Bytes} :
    IsDefinition d p name ↔ IsDefinition d₀ p name := by
  have hwf := hgrown.wellFormed hd
  refine ⟨fun h => ?_, fun h => h.of_extended hd.orderly hgrown.extended⟩
  have hmem : p.join name ∈ definitionsIn d p := (mem_definitionsIn_iff hwf.orderly).2 ⟨name, h, rfl⟩
  rw [definitionsIn_of_grown hd hgrown hq] at hmem
  obtain ⟨name', h', heq⟩ := (mem_definitionsIn_iff hd.orderly).1 hmem
  rwa [Path.join_injective (h.isName hwf.orderly) (h'.isName hd.orderly) heq]

theorem readFile_of_grown (hd : d₀.WellFormed) (hgrown : d₀.Grown d) (hq : d₀.folderAt? p = some q)
    {name : Utf8.Bytes} (h : IsDefinition d₀ p name) :
    d.readFile (p.join name) = d₀.readFile (p.join name) := by
  obtain ⟨definition, hdefinition, hfile⟩ := exists_hasDefinition_of_mem hd hq
    ((mem_definitionsIn_iff hd.orderly).2 ⟨name, h, rfl⟩)
  rw [hfile, readFile_eq_ok_iff.2 (hdefinition.find hd).2,
    readFile_eq_ok_iff.2 ((hdefinition.of_grown hd hgrown).find (hgrown.wellFormed hd)).2]

/-- **Output folders are not visited**, so the tree is the same to a build as before they were
made. -/
theorem OutputsAdded.sameSources (hd₀ : d₀.WellFormed) (hroot : d₀.folderAt? root = some place)
    (h : OutputsAdded d₀ d) : SameSources d₀ d root := by
  have hd := h.grown.wellFormed hd₀
  have hfolder {p : Path} (hp : Visited d₀ root p) : ∃ q, d₀.folderAt? p = some q :=
    folderAt?_of_mem_visitedFolders hd₀ hroot ((mem_visitedFolders_iff_visited hd₀.orderly).2 hp)
  refine ⟨fun p => ?_, fun p hp name => ?_, fun p hp name hname => ?_⟩
  · rw [← mem_visitedFolders_iff_visited hd.orderly, ← mem_visitedFolders_iff_visited hd₀.orderly,
      mem_visitedFolders_iff hd.orderly (hd.leadsTo (h.grown.folderAt? hroot)),
      mem_visitedFolders_iff hd₀.orderly (hd₀.leadsTo hroot)]
    refine exists_congr fun names => and_congr_right fun hnames => and_congr_right fun _ =>
      ⟨fun hfolder => ?_, h.grown.isFolderAt⟩
    -- a name at the end of the way tells what the folder is for
    rcases List.eq_nil_or_concat names with rfl | ⟨init, last, rfl⟩
    · rw [List.append_nil]
      exact hd₀.isFolderAt hroot
    · -- a folder that is new has the name of an output folder, and not that of a message folder
      by_contra hnew
      rw [List.concat_eq_append, ← List.append_assoc] at hfolder hnew
      have hmessage := hnames last (by simp)
      rw [h.eq_built _ _ hfolder hnew] at hmessage
      cases hmessage.symm.trans Path.isMessageName_built
  · obtain ⟨q, hq⟩ := hfolder hp
    exact isDefinition_iff_of_grown hd₀ h.grown hq
  · obtain ⟨q, hq⟩ := hfolder hp
    exact readFile_of_grown hd₀ h.grown hq hname

theorem SameSources.perm (hd₀ : d₀.WellFormed) (hd : d.WellFormed)
    (hroot : d₀.folderAt? root = some place) (hroot' : d.folderAt? root = some place)
    (h : SameSources d₀ d root) : (visitedFolders d₀ root).Perm (visitedFolders d root) := by
  refine (List.perm_ext_iff_of_nodup (nodup_visitedFolders hd₀.orderly (hd₀.leadsTo hroot))
    (nodup_visitedFolders hd.orderly (hd.leadsTo hroot'))).2 fun p => ?_
  rw [mem_visitedFolders_iff_visited hd₀.orderly, mem_visitedFolders_iff_visited hd.orderly,
    h.visited]

/-! ## The definitions of a tree -/

/-- The definition files of a tree, folder by folder. -/
def treeDefinitions (disk : Disk) (root : Path) : List Path :=
  (visitedFolders disk root).flatMap (definitionsIn disk)

section Again

variable (config : Config) {output : Option Path} (hd₀ : d₀.WellFormed)
  (hroot : d₀.folderAt? root = some place)
include hd₀ hroot

theorem settled_of_mem (hp : p ∈ visitedFolders d₀ root) : Settled d₀ root p :=
  .of_isFolder hd₀ ((isFolder_eq_true_iff hd₀).2 ⟨place, hroot⟩) hp

theorem exists_hasDefinition {file : Path} (h : file ∈ treeDefinitions d₀ root) :
    ∃ p names definition, (∀ n ∈ names, Path.isMessageName n = true)
      ∧ HasDefinition d₀ p (place ++ names) definition ∧ file = p.join definition.1 := by
  obtain ⟨p, hp, hfile⟩ := List.mem_flatMap.1 h
  obtain ⟨names, hnames, -, hq⟩ := exists_names_of_mem_visitedFolders hd₀ hroot hp
  obtain ⟨definition, hdefinition, rfl⟩ := exists_hasDefinition_of_mem hd₀ hq hfile
  exact ⟨p, names, definition, hnames, hdefinition, rfl⟩

/-- **Building the folders comes to building the definitions** that they have from the beginning, on
every disk that has grown. -/
theorem result_visitedFolders (hgrown : d₀.Grown d) :
    (inTurn (buildFolder config output) (visitedFolders d₀ root) d).result
      = (inTurn (countFile config output) (treeDefinitions d₀ root) d).result := by
  have hfiles : filesInTurn config output (visitedFolders d₀ root) d = treeDefinitions d₀ root := by
    rw [filesInTurn, treeDefinitions, ← map_fst_turns (buildFolder config output)
      (visitedFolders d₀ root) d, List.flatMap_map, map_fst_turns]
    exact List.flatMap_congr fun turn hturn => definitionsIn_of_mem_turns_of_grown config output hd₀
      (fun p hp => settled_of_mem hd₀ hroot hp) hgrown hturn
  rw [result_inTurn_buildFolder, hfiles]

/-- **The definitions of a tree may all be built twice.** -/
theorem result_treeDefinitions_again (houtput : output.getD [] = []) :
    let run := inTurn (countFile config output) (treeDefinitions d₀ root)
    (run (run d₀).disk).result = (run d₀).result := by
  refine @result_inTurn_again d₀.Grown _ _ _ _ (fun _ h => h)
    (fun file _ => keeps_grown_countFile config output hd₀ file) (fun file hfile => ?_)
    (fun file hfile file' hfile' => ?_) _ .refl
  · obtain ⟨p, names, definition, -, h, rfl⟩ := exists_hasDefinition hd₀ hroot hfile
    exact idempotent_countFile config hd₀ houtput h
  · obtain ⟨p, names, definition, hnames, h, rfl⟩ := exists_hasDefinition hd₀ hroot hfile
    obtain ⟨p', names', definition', hnames', h', rfl⟩ := exists_hasDefinition hd₀ hroot hfile'
    refine overlays_countFile config hd₀ houtput h h' ?_
    by_cases hsame : names = names'
    · exact .inl (hsame ▸ rfl)
    · exact .inr (apart_built hnames hnames' hsame)

theorem outputsAdded_inTurn (houtput : output.getD [] = []) {order : List Path}
    (horder : ∀ p ∈ order, p ∈ visitedFolders d₀ root) :
    OutputsAdded d₀ (inTurn (buildFolder config output) order d₀).disk := by
  refine Keeps.inTurn (fun p hp => ?_) d₀ (.refl d₀)
  obtain ⟨q, hq⟩ := folderAt?_of_mem_visitedFolders hd₀ hroot (horder p hp)
  exact keeps_outputsAdded_buildFolder config hd₀ houtput hq

/-- The folders may all be built again, in the order in which the second build finds them. -/
theorem result_visitedFolders_again (houtput : output.getD [] = []) :
    let first := inTurn (buildFolder config output) (visitedFolders d₀ root) d₀
    (inTurn (buildFolder config output) (visitedFolders first.disk root) first.disk).result
      = first.result := by
  intro first
  have hadded := outputsAdded_inTurn config hd₀ hroot houtput fun p hp => hp
  have hgrown : d₀.Grown first.disk := hadded.grown
  have hfirst : first.result = _ := result_visitedFolders config hd₀ hroot .refl
  have hperm := (hadded.sameSources hd₀ hroot).perm hd₀ (hgrown.wellFormed hd₀) hroot
    (hgrown.folderAt? hroot)
  rw [← result_inTurn_perm hperm (fun p hp => (settled_of_mem hd₀ hroot hp).keeps config output hd₀)
      (fun p hp p' hp' =>
        commutes_buildFolder config output hd₀ hroot (.inr (.inl houtput)) hp hp') hgrown,
    result_visitedFolders config hd₀ hroot hgrown, (Prod.mk.inj hfirst).2,
    result_treeDefinitions_again config hd₀ hroot houtput, ← hfirst]

end Again

/-! ## Rebuilding -/

variable (config : Config) {output : Option Path}

theorem disk_buildTree_of_folderAt?_eq_none (hd₀ : d₀.WellFormed) (hroot : d₀.folderAt? root = none) :
    (buildTree config output root d₀).disk = d₀ := by
  have hfolder := (isFolder_eq_false_iff hd₀).2 hroot
  exact (Prod.mk.inj (result_inTurn_of_not_isFolder config output hfolder (.refl _))).2

/-- **A second build of a tree comes to the same as the first, and changes nothing.** -/
theorem result_buildTree_again (hd₀ : d₀.WellFormed) (houtput : output.getD [] = []) (root : Path) :
    let first := buildTree config output root d₀
    (buildTree config output root first.disk).result = first.result := by
  cases hroot : d₀.folderAt? root with
  | some place => exact result_visitedFolders_again config hd₀ hroot houtput
  | none => simp only [disk_buildTree_of_folderAt?_eq_none config hd₀ hroot]

theorem sameSources_buildTree (hd₀ : d₀.WellFormed) (houtput : output.getD [] = []) (root : Path) :
    SameSources d₀ (buildTree config output root d₀).disk root := by
  cases hroot : d₀.folderAt? root with
  | some place =>
    exact (outputsAdded_inTurn config hd₀ hroot houtput fun p hp => hp).sameSources hd₀ hroot
  | none =>
    rw [disk_buildTree_of_folderAt?_eq_none config hd₀ hroot]
    exact .refl d₀ root

namespace Schedule

/-- **At any time of a build the tree has the sources that it had in the beginning.** -/
theorem sameSources_of_reachable (hd₀ : d₀.WellFormed) (houtput : output.getD [] = []) {s : State}
    (h : Reachable config output (.initial config root d₀) s) : SameSources d₀ s.disk root := by
  cases hroot : d₀.folderAt? root with
  | none =>
    rw [(onTheWay_of_reachable hd₀ h).during.unchanged hroot]
    exact .refl d₀ root
  | some place =>
    obtain ⟨built, hperm, hrun⟩ := exists_run_of_reachable hd₀ h
    rw [left_initial, if_pos ((isFolder_eq_true_iff hd₀).2 ⟨place, hroot⟩)] at hperm
    have hadded := outputsAdded_inTurn config hd₀ hroot houtput fun p hp =>
      hperm.mem_iff.1 (List.mem_append_left _ hp)
    rw [← (Prod.mk.inj hrun).2] at hadded
    exact hadded.sameSources hd₀ hroot

end Schedule

open Schedule

/-- **Rebuilding.** On a disk without links and with the default output, a build of a tree that has
been built comes to the same totals as the build before and leaves the disk as it is, whatever has
failed and whichever definitions share a name; and so does every schedule of it that comes to its end.
All definitions with a name for their message are in these totals. At any time of a build the folders
to be visited and the definitions in them are those from the beginning, so nothing that is generated is
taken for either. -/
theorem tree_rebuild (config : Config) {output : Option Path} (houtput : output.getD [] = [])
    (root : Path) {disk : Disk} (hdisk : disk.WellFormed) :
    let first := buildTree config output root disk
    (buildTree config output root first.disk).result = first.result
      ∧ first.totals.counted = ((visitedFolders disk root).map (messageCount disk)).sum
      ∧ SameSources disk first.disk root
      ∧ (∀ s totals, Reachable config output (.initial config root disk) s →
        s.task = .finished totals → ∀ s' totals',
          Reachable config output (.initial config root s.disk) s' → s'.task = .finished totals' →
            (totals', s'.disk) = (totals, s.disk))
      ∧ ∀ s, Reachable config output (.initial config root disk) s →
        s.disk.WellFormed ∧ SameSources disk s.disk root := by
  intro first
  have hagain := result_buildTree_again config hdisk houtput root
  have hgrown {s : State} (h : Reachable config output (.initial config root disk) s) :
      s.disk.WellFormed := (onTheWay_of_reachable hdisk h).during.grown.wellFormed hdisk
  refine ⟨hagain, counted_inTurn_of_wellFormed config output hdisk (.refl _),
    sameSources_buildTree config hdisk houtput root,
    fun s totals hs hfinished s' totals' hs' hfinished' => ?_, fun s hs =>
      ⟨hgrown hs, sameSources_of_reachable config hdisk houtput hs⟩⟩
  obtain ⟨htotals, hend⟩ := result_of_reachable hdisk (.inl houtput) hs hfinished
  obtain ⟨htotals', hend'⟩ := result_of_reachable (hgrown hs) (.inl houtput) hs' hfinished'
  rw [htotals', hend', htotals, hend]
  exact hagain

/-! ## Failures that are repeated -/

section Examples

/-- A folder in which two definitions are compiled under one name, one cannot be read, and a folder is
in the way of the source file of another; and a message folder in it, in which a file is in the way of
the output folder. -/
def obstructed : Disk where
  root := .folder [(Path.ofText "A.msg".toList, .file (Path.ofText "int x".toList)),
    (Path.ofText "B.msg".toList, .file (Path.ofText "int y".toList)),
    (Path.ofText "a.msg".toList, .file (Path.ofText "int z".toList)),
    (Path.ofText "b.msg".toList, .file [0xff]),
    (Path.ofText "built".toList, .folder [(Path.ofText "B.cs".toList, .folder [])]),
    (Path.ofText "msg".toList,
      .folder [(Path.ofText "C.msg".toList, .file []), (Path.ofText "built".toList, .file [])])]
  folder := []

/-- Two definitions are compiled and three fail, the second time as the first; and so it is if the
message folder comes first and the next time last. -/
theorem tree_rebuild_obstructed :
    let first := buildTree oneAtATime none currentFolder obstructed
    let inner := buildFolder oneAtATime none messageFolder obstructed
    let outer := buildFolder oneAtATime none currentFolder inner.disk
    let outer' := buildFolder oneAtATime none currentFolder outer.disk
    let inner' := buildFolder oneAtATime none messageFolder outer'.disk
    obstructed.WellFormed ∧ first.totals.compiled = 2 ∧ first.totals.failed = 3
      ∧ (buildTree oneAtATime none currentFolder first.disk).result = first.result
      ∧ (outer'.totals + inner'.totals, inner'.disk) = (outer.totals + inner.totals, outer.disk) := by
  intro first inner outer outer' inner'
  have hdisk : obstructed.WellFormed := ⟨by decide +kernel, _, rfl⟩
  obtain ⟨hagain, -, -, hschedules, -⟩ := @tree_rebuild oneAtATime none rfl currentFolder _ hdisk
  refine ⟨hdisk, by decide +kernel, by decide +kernel, hagain, ?_⟩
  have hreachable : Reachable oneAtATime none (.initial oneAtATime currentFolder obstructed)
      ⟨some 1, outer.disk, .finished (outer.totals + inner.totals)⟩ :=
    reachable_inner_first (by decide) (by decide)
  have hreachable' : Reachable oneAtATime none (.initial oneAtATime currentFolder outer.disk)
      ⟨some 1, inner'.disk, .finished (outer'.totals + inner'.totals)⟩ :=
    reachable_outer_first (by decide +kernel) (by decide +kernel)
  -- the two ends are compared as they stand, and not computed
  clear_value inner' outer' outer inner
  exact hschedules _ _ hreachable rfl _ _ hreachable' rfl

end Examples

end MessageCompiler.Build
