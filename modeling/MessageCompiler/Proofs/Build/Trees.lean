import MessageCompiler.Proofs.Build.Steadiness

/-!
# What a tree build visits and compiles

Whether the folders of a tree are built one after the other, in whatever order, or by tasks: those are
visited that names of message folders lead to, the definition files in them are compiled once each, and
the totals are those of the folders.

* **`selection_of_perm`**: what comes of building the folders in some order.
* **`tree_build`**: the folders that are visited, the files that are compiled, and the totals.
-/

namespace MessageCompiler.Build

open Disk

/-- What comes of a build of folders that are taken one after the other in this order. -/
structure Selection (config : Config) (output : Option Path) (disk : Disk) (root : Path)
    (order : List Path) : Prop where
  /-- It comes to the builds of the files, and no file is built twice. -/
  result : (inTurn (buildFolder config output) order disk).result
    = (inTurn (countFile config output) (filesInTurn config output order disk) disk).result
  nodup : (filesInTurn config output order disk).Nodup
  /-- The totals are the sum over the folders, each with the disk that it finds. -/
  totals : (inTurn (buildFolder config output) order disk).totals
    = ((turns (buildFolder config output) order disk).map fun turn =>
        (buildFolder config output turn.1 turn.2).totals).foldr (· + ·) {}
  /-- If there are no links, each folder comes to what it comes to on the disk from the beginning. -/
  totals_of_wellFormed : disk.WellFormed → (inTurn (buildFolder config output) order disk).totals
    = ((visitedFolders disk root).map fun p => (buildFolder config output p disk).totals).foldr
      (· + ·) {}
  /-- The files are the definitions in the folders when these are built. -/
  mem_iff : ∀ file, file ∈ filesInTurn config output order disk
    ↔ ∃ turn ∈ turns (buildFolder config output) order disk, ∃ name,
      IsDefinition turn.2 turn.1 name ∧ file = turn.1.join name
  /-- The definitions from the beginning are among them, and are all if there are no links. -/
  mem_of_isDefinition : ∀ p name, Visited disk root p → IsDefinition disk p name →
    p.join name ∈ filesInTurn config output order disk
  mem_iff_of_wellFormed : disk.WellFormed → ∀ file, file ∈ filesInTurn config output order disk
    ↔ ∃ p name, Visited disk root p ∧ IsDefinition disk p name ∧ file = p.join name
  /-- Each file is in a visited folder, and read there unless it is a link. -/
  read : ∀ turn ∈ turns (countFile config output) (filesInTurn config output order disk) disk,
    ∃ p name, Visited disk root p ∧ turn.1 = p.join name ∧ (disk.hasLink p name = false →
      ∀ place, disk.LeadsTo root place → ∀ r, turn.2.locate turn.1 = .ok (.taken r) →
        ¬ Unvisited place r)

/-- **The folders of a tree may be built in any order.** -/
theorem selection_of_perm (config : Config) (output : Option Path) {root : Path} {disk : Disk}
    (hdisk : disk.Orderly) {order : List Path} (horder : order.Perm (visitedFolders disk root)) :
    Selection config output disk root order where
  result := result_inTurn_buildFolder config output order disk
  nodup := nodup_filesInTurn config output hdisk horder
  totals := totals_inTurn order disk
  totals_of_wellFormed hwf := totals_inTurn_of_perm config output hwf horder
  mem_iff _ := mem_filesInTurn_iff config output hdisk
  mem_of_isDefinition _ _ := mem_filesInTurn_of_isDefinition config output hdisk horder
  mem_iff_of_wellFormed hwf _ := mem_filesInTurn_iff_of_wellFormed config output horder hwf
  read _ := not_unvisited_of_mem_turns config output hdisk horder

theorem nodup_visitedFolders_of_orderly {disk : Disk} (hdisk : disk.Orderly) (root : Path) :
    (visitedFolders disk root).Nodup := by
  cases hroot : disk.isFolder root with
  | false =>
    rw [visitedFolders_eq_singleton hroot]
    exact List.nodup_singleton root
  | true =>
    obtain ⟨place, hplace⟩ := isFolder_iff.1 hroot
    exact nodup_visitedFolders hdisk hplace

/-- **The files that a schedule compiles** are the definitions of the tree, each once. -/
theorem Schedule.files_of_finished {config : Config} {output : Option Path} {root : Path} {disk : Disk}
    (hdisk : disk.WellFormed) {s : State} {order : List Path} {totals : Totals}
    (h : Ran config output (.initial config root disk) s order) (hfinished : s.task = .finished totals) :
    (filesInTurn config output order disk).Nodup
      ∧ ∀ file, file ∈ filesInTurn config output order disk
        ↔ ∃ p name, Visited disk root p ∧ IsDefinition disk p name ∧ file = p.join name := by
  have hselection := selection_of_perm config output hdisk.orderly (.refl (visitedFolders disk root))
  have hperm := perm_filesInTurn_of_finished hdisk h hfinished
  rw [treeDefinitions, ← filesInTurn_of_wellFormed config output (.refl _) hdisk] at hperm
  refine ⟨hperm.nodup_iff.2 hselection.nodup, fun file => ?_⟩
  rw [hperm.mem_iff, hselection.mem_iff_of_wellFormed hdisk]

/-- **Which folders a tree build visits and which files it compiles.** It visits the first folder and
every folder that names of message folders lead to from there, each once. In whatever order these are
built, each definition file that is directly in one of them when its turn comes is compiled once, and
the totals add up. If there are no links, every schedule that comes to its end compiles the definition
files from the beginning, each once, and has the totals of the folders as they are in the beginning; and
it leaves the same disk as the build of one folder after the other, if no two definitions are compiled
to one path. -/
theorem tree_build (config : Config) (output : Option Path) (root : Path) {disk : Disk}
    (hdisk : disk.Orderly) :
    (visitedFolders disk root).Nodup
      ∧ (∀ p, p ∈ visitedFolders disk root ↔ Visited disk root p)
      ∧ (buildTree config output root disk).result
        = (inTurn (buildFolder config output) (visitedFolders disk root) disk).result
      ∧ (∀ cause, disk.list root = .error cause →
        (buildTree config output root disk).result = ({}, disk)
          ∧ filesInTurn config output (visitedFolders disk root) disk = [])
      ∧ (∀ order, order.Perm (visitedFolders disk root) → Selection config output disk root order)
      ∧ (disk.WellFormed → ∀ s totals,
        Schedule.Reachable config output (.initial config root disk) s → s.task = .finished totals →
          totals = ((visitedFolders disk root).map fun p =>
              (buildFolder config output p disk).totals).foldr (· + ·) {}
            ∧ (∃ order, Schedule.Ran config output (.initial config root disk) s order)
            ∧ (∀ order, Schedule.Ran config output (.initial config root disk) s order →
              (filesInTurn config output order disk).Nodup
                ∧ ∀ file, file ∈ filesInTurn config output order disk
                  ↔ ∃ p name, Visited disk root p ∧ IsDefinition disk p name ∧ file = p.join name)
            ∧ (OutputsDisjoint config output disk root →
              s.disk = (buildTree config output root disk).disk)) := by
  refine ⟨nodup_visitedFolders_of_orderly hdisk root, fun p => mem_visitedFolders_iff_visited hdisk, rfl,
    fun cause hlist => ?_, fun order => selection_of_perm config output hdisk,
    fun hwf s totals hreach hfinished => ⟨Schedule.totals_of_finished hwf hreach hfinished,
      Schedule.exists_ran_of_reachable hreach,
      fun order hran => Schedule.files_of_finished hwf hran hfinished, fun hdisjoint => ?_⟩⟩
  · have hroot : disk.isFolder root = false := by
      rw [← Bool.not_eq_true, isFolder_iff]
      rintro ⟨q, hq⟩
      obtain ⟨es, hes⟩ := hq.isFolderAt
      cases hlist.symm.trans (list_eq_ok_iff.2 ⟨q, hq, hes⟩)
    exact ⟨result_inTurn_of_not_isFolder config output hroot (.refl _),
      filesInTurn_eq_nil config output hroot (.refl _)⟩
  · exact (Schedule.end_of_reachable hwf hdisjoint.unobstructed hreach hfinished).2

/-! ## Trees with and without links -/

section Examples

open Schedule

/-- Of two folders the inner one may be built first, by a loop or by tasks: two files are compiled, each
in its folder, and the totals are those of the two folders. So they are where both files are compiled to
one path, too. Of a folder that is missing nothing is visited. -/
theorem tree_build_inner_first :
    let missing := Path.ofText "./none".toList
    let shared := some (Path.ofText "out".toList)
    let order := [messageFolder, currentFolder]
    let build := buildFolder oneAtATime
    let first := build none messageFolder twoFolders
    let last := build none currentFolder first.disk
    let first' := build shared messageFolder twoFolders
    let last' := build shared currentFolder first'.disk
    order.Perm (visitedFolders twoFolders currentFolder)
      ∧ Selection oneAtATime none twoFolders currentFolder order
      ∧ filesInTurn oneAtATime none order twoFolders
        = [Path.ofText "./msg/A.msg".toList, Path.ofText "./A.msg".toList]
      ∧ last.totals + first.totals = (build none currentFolder twoFolders).totals
        + ((build none messageFolder twoFolders).totals + {})
      ∧ last.disk = (buildTree oneAtATime none currentFolder twoFolders).disk
      ∧ last'.totals + first'.totals = (build shared currentFolder twoFolders).totals
        + ((build shared messageFolder twoFolders).totals + {})
      ∧ (∃ ran, Ran oneAtATime shared (.initial oneAtATime currentFolder twoFolders)
          ⟨some 1, last'.disk, .finished (last'.totals + first'.totals)⟩ ran
        ∧ (filesInTurn oneAtATime shared ran twoFolders).Nodup
        ∧ Path.ofText "./msg/A.msg".toList ∈ filesInTurn oneAtATime shared ran twoFolders)
      ∧ (buildTree oneAtATime none missing twoFolders).result = ({}, twoFolders) := by
  intro missing shared order build first last first' last'
  have hdisk : twoFolders.WellFormed := ⟨by decide, _, rfl⟩
  have horder : order.Perm (visitedFolders twoFolders currentFolder) := by decide
  have hreachable : Reachable oneAtATime none (.initial oneAtATime currentFolder twoFolders)
      ⟨some 1, last.disk, .finished (last.totals + first.totals)⟩ :=
    reachable_inner_first (by decide) (by decide)
  have hreachable' : Reachable oneAtATime shared (.initial oneAtATime currentFolder twoFolders)
      ⟨some 1, last'.disk, .finished (last'.totals + first'.totals)⟩ :=
    reachable_inner_first (by decide) (by decide)
  have hdisjoint : OutputsDisjoint oneAtATime none twoFolders currentFolder := by decide +kernel
  obtain ⟨-, -, -, -, hselection, hschedule⟩ := tree_build oneAtATime none currentFolder hdisk.orderly
  obtain ⟨-, -, -, -, -, hshared⟩ := tree_build oneAtATime shared currentFolder hdisk.orderly
  obtain ⟨-, -, -, hmissing, -⟩ := tree_build oneAtATime none missing hdisk.orderly
  obtain ⟨htotals, -, -, hsame⟩ := hschedule hdisk _ _ hreachable rfl
  obtain ⟨htotals', ⟨ran, hran⟩, hfiles, -⟩ := hshared hdisk _ _ hreachable' rfl
  obtain ⟨hnodup, hmem⟩ := hfiles ran hran
  have hinner : IsDefinition twoFolders messageFolder (Path.ofText "A.msg".toList) :=
    ⟨⟨_, rfl, List.mem_cons_self⟩, ⟨Path.ofText "A".toList, by decide, rfl⟩, by decide⟩
  have hvisited : Visited twoFolders currentFolder messageFolder :=
    (mem_visitedFolders_iff_visited hdisk.orderly).1 (by decide)
  exact ⟨horder, hselection order horder, by decide +kernel, htotals, hsame hdisjoint, htotals',
    ⟨ran, hran, hnodup, (hmem _).2 ⟨messageFolder, _, hvisited, hinner, rfl⟩⟩,
    (hmissing .notFound rfl).1⟩

/-- A message folder with a link to a file that is yet to be generated. -/
def lateDefinition : Disk where
  root := .folder [(Path.ofText "A.msg".toList, .file (Path.ofText "int x".toList)),
    (Path.ofText "msg".toList,
      .folder [(Path.ofText "x.msg".toList, .link (Path.ofText "../built/A.cs".toList))])]
  folder := []

/-- A link to a definition in a folder that is not visited. -/
def hiddenDefinition : Disk where
  root := .folder [(Path.ofText "other".toList,
      .folder [(Path.ofText "y.msg".toList, .file (Path.ofText "int y".toList))]),
    (Path.ofText "x.msg".toList, .link (Path.ofText "other/y.msg".toList))]
  folder := []

/-- **With links other files are compiled than the definitions that are there from the beginning**: a
file that was generated where a link points; **and files of folders that are not visited are read**. -/
theorem exists_late_and_hidden :
    (¬ ∀ file, file ∈ filesInTurn {} none (visitedFolders lateDefinition Path.here) lateDefinition
      ↔ ∃ p name, Visited lateDefinition Path.here p ∧ IsDefinition lateDefinition p name
        ∧ file = p.join name)
    ∧ ∃ turn ∈ turns (countFile {} none)
        (filesInTurn {} none (visitedFolders hiddenDefinition Path.here) hiddenDefinition)
        hiddenDefinition,
      ∃ r, turn.2.locate turn.1 = .ok (.taken r) ∧ Unvisited [] r := by
  constructor
  · intro h
    obtain ⟨p, name, -, hname, heq⟩ := (h (Path.ofText "./msg/x.msg".toList)).1 (by decide +kernel)
    have hfile := hname.isFile
    rw [← heq] at hfile
    exact absurd hfile (by decide +kernel)
  · have hfiles : filesInTurn {} none (visitedFolders hiddenDefinition Path.here) hiddenDefinition
        = [Path.ofText "./x.msg".toList] := by decide +kernel
    rw [hfiles]
    exact ⟨_, List.mem_cons_self,
      [Path.ofText "other".toList, Path.ofText "y.msg".toList], rfl,
      [], _, _, List.forall_mem_nil _, by decide, List.cons_ne_nil _ _, rfl⟩

end Examples

end MessageCompiler.Build
