import MessageCompiler.Proofs.Build.Rebuilding

/-!
# Totals in any order

Whether a definition is compiled does not depend on what is built before it. The others of the tree
leave source files and folders on the way to these, and neither is in the way of anything: the output
folder is there or can be made as before, and where there was no folder there is none now. So without
links the totals of a tree are the sum of what its folders come to in the beginning, even where
definitions are compiled to one path. For every schedule that is so, too, and the files that it compiles
are the definitions from the beginning, each once.

* **`totals_inTurn_of_steady`**: builds that come to the same totals after each other.
* **`steady_countFile`, `steady_buildFolder`**: definitions of a tree, and its folders.
* **`totals_inTurn_of_perm`**: the folders of a tree in any order.
* **`Schedule.totals_of_finished`, `Schedule.perm_filesInTurn_of_finished`**: the totals of a schedule,
  and the files that it compiles.
-/

namespace MessageCompiler.Build

open Disk

variable {kind : Disk → Prop} {d e d₀ : Disk} {root p p' : Path} {place q q' o : Place}

/-! ## Runs of steady builds -/

/-- A build comes to the same totals after another one as without it. -/
def Steady (kind : Disk → Prop) (f g : Disk → FolderBuild) : Prop :=
  ∀ d, kind d → (f (g d).disk).totals = (f d).totals

theorem Overlays.steady {f g : Disk → FolderBuild} (h : Overlays kind f g) : Steady kind f g :=
  fun d hd => (h d hd).1

section InTurn

variable {α β : Type} {build : α → Disk → FolderBuild} {build' : β → Disk → FolderBuild} {l : List α}
  {m : List β}

theorem Steady.inTurn_right {f : Disk → FolderBuild} (hkeeps : ∀ a ∈ l, Keeps kind (build a))
    (h : ∀ a ∈ l, Steady kind f (build a)) : Steady kind f (inTurn build l) := by
  induction l with
  | nil => exact fun _ _ => rfl
  | cons a rest ih =>
    intro d hd
    have hrest := ih (fun b hb => hkeeps b (List.mem_cons_of_mem _ hb))
      (fun b hb => h b (List.mem_cons_of_mem _ hb))
    exact (hrest _ (hkeeps a List.mem_cons_self d hd)).trans (h a List.mem_cons_self d hd)

/-- **A run of steady builds** comes to the sum of what each comes to in the beginning. -/
theorem totals_inTurn_of_steady (hkeeps : ∀ a ∈ l, Keeps kind (build a))
    (h : ∀ a ∈ l, ∀ b ∈ l, Steady kind (build a) (build b)) (hd : kind d) :
    (inTurn build l d).totals = (l.map fun a => (build a d).totals).foldr (· + ·) {} := by
  induction l generalizing d with
  | nil => rfl
  | cons a rest ih =>
    have hrest := ih (fun b hb => hkeeps b (List.mem_cons_of_mem _ hb))
      (fun b hb c hc => h b (List.mem_cons_of_mem _ hb) c (List.mem_cons_of_mem _ hc))
      (hkeeps a List.mem_cons_self d hd)
    have hsame : (rest.map fun b => (build b (build a d).disk).totals)
        = rest.map fun b => (build b d).totals :=
      List.map_congr_left fun b hb => h b (List.mem_cons_of_mem _ hb) a List.mem_cons_self d hd
    rw [hsame] at hrest
    exact congrArg ((build a d).totals + ·) hrest

/-- **Runs are steady** if their builds are. -/
theorem Steady.inTurn (hl : ∀ a ∈ l, Keeps kind (build a)) (hm : ∀ b ∈ m, Keeps kind (build' b))
    (hself : ∀ a ∈ l, ∀ a' ∈ l, Steady kind (build a) (build a'))
    (h : ∀ a ∈ l, ∀ b ∈ m, Steady kind (build a) (build' b)) :
    Steady kind (inTurn build l) (inTurn build' m) := by
  intro d hd
  rw [totals_inTurn_of_steady hl hself hd, totals_inTurn_of_steady hl hself (Keeps.inTurn hm d hd)]
  congr 1
  exact List.map_congr_left fun a ha => Steady.inTurn_right hm (h a ha) d hd

end InTurn

theorem Totals.foldr_add_perm {l l' : List Totals} (h : l.Perm l') :
    l.foldr (· + ·) ({} : Totals) = l'.foldr (· + ·) {} := by
  refine h.foldr_eq' (fun a _ b _ c => ?_) _
  show b + (a + c) = a + (b + c)
  rw [← Totals.add_assoc, Totals.add_comm b a, Totals.add_assoc]

/-! ## Definitions -/

theorem fst_attempt_writings_congr {files : List SourceFile} (ho : d.root.IsFolderAt o)
    (h : ∀ r, e.root.IsFolderAt r ↔ d.root.IsFolderAt r) :
    (attempt (files.map (writing o)) e).1 = (attempt (files.map (writing o)) d).1 := by
  induction files generalizing d e with
  | nil => rfl
  | cons file rest ih =>
    by_cases hfolder : d.root.IsFolderAt (o ++ [Path.ofText file.name])
    · rw [attempt_writings_of_isFolderAt hfolder, attempt_writings_of_isFolderAt ((h _).2 hfolder)]
    · have hfolder' := mt (h _).1 hfolder
      rw [attempt_writings_of_not_isFolderAt hfolder, attempt_writings_of_not_isFolderAt hfolder']
      have hiff (r : Place) :=
        Node.isFolderAt_put_file_iff (p := r) ho hfolder (Utf8.encode file.contents)
      have hiff' (r : Place) :=
        Node.isFolderAt_put_file_iff (p := r) ((h o).2 ho) hfolder' (Utf8.encode file.contents)
      exact ih ((hiff o).2 ho) fun r => (hiff' r).trans ((h r).trans (hiff r).symm)

variable (config : Config) (output : Option Path)

/-- **With one output folder** a definition comes to the same totals after any other. The other makes
the folder or finds it, or fails for it as the definition does, and leaves files there, but no
folder. -/
theorem steady_given (hd₀ : d₀.WellFormed) (houtput : output.getD [] ≠ [])
    {definition definition' : Utf8.Bytes × Utf8.Bytes} (h : HasDefinition d₀ p q definition)
    (h' : HasDefinition d₀ p' q' definition') : Steady d₀.Grown
      (countFile config output (p.join definition.1))
      (countFile config output (p'.join definition'.1)) := by
  have hkeeps := keeps_grown_countFile config output hd₀ (p'.join definition'.1)
  cases hmessage : message? definition with
  | none =>
    obtain ⟨t, ht⟩ := h.exists_idle config output hd₀ hmessage
    exact (Overlays.of_idle ht hkeeps).steady
  | some found =>
    cases hmessage' : message? definition' with
    | none =>
      obtain ⟨t, ht⟩ := h'.exists_idle config output hd₀ hmessage'
      exact (Overlays.of_idle_right ht).steady
    | some found' =>
      intro d hgrown
      have hd := hgrown.wellFormed hd₀
      have hkept := hkeeps d hgrown
      rcases hmake : d.makeFolders (output.getD []) with ⟨e, _ | cause⟩
      · have he := (grown_makeFolders hd hmake).wellFormed hd
        obtain ⟨o, ho⟩ := folderAt?_makeFolders hd houtput hmake
        obtain ⟨hfirst, -⟩ := h.result_given config output hd₀ houtput hmessage hgrown hmake ho
        obtain ⟨hother, hsaved⟩ := h'.result_given config output hd₀ houtput hmessage' hgrown hmake ho
        rw [(Prod.mk.inj hother).2] at hkept ⊢
        obtain ⟨hlast, -⟩ := h.result_given config output hd₀ houtput hmessage hkept
          (makeFolders_again (hsaved.wellFormed he) (hsaved.folderAt? ho)) (hsaved.folderAt? ho)
        rw [(Prod.mk.inj hfirst).1, (Prod.mk.inj hlast).1]
        -- the same files are written, and there are the same folders where they go
        exact congrArg _ (fst_attempt_writings_congr (he.isFolderAt ho) fun r =>
          isFolderAt_attempt_writings (he.isFolderAt ho) _)
      · obtain ⟨cause', hagain⟩ := makeFolders_fails_again hd houtput hmake
        obtain ⟨htotals, -⟩ := Prod.mk.inj
          (h.result_refused config output hd₀ houtput hmessage hgrown hmake)
        obtain ⟨-, hdisk⟩ := Prod.mk.inj
          (h'.result_refused config output hd₀ houtput hmessage' hgrown hmake)
        rw [hdisk] at hkept ⊢
        obtain ⟨hlast, -⟩ := Prod.mk.inj
          (h.result_refused config output hd₀ houtput hmessage hkept hagain)
        rw [htotals, hlast]

/-- **A definition of a tree comes to the same totals after any other.** -/
theorem steady_countFile (hd₀ : d₀.WellFormed) {names names' : List Utf8.Bytes}
    (hnames : ∀ n ∈ names, Path.isMessageName n = true)
    (hnames' : ∀ n ∈ names', Path.isMessageName n = true)
    {definition definition' : Utf8.Bytes × Utf8.Bytes}
    (h : HasDefinition d₀ p (place ++ names) definition)
    (h' : HasDefinition d₀ p' (place ++ names') definition') : Steady d₀.Grown
      (countFile config output (p.join definition.1))
      (countFile config output (p'.join definition'.1)) := by
  by_cases houtput : output.getD [] = []
  · refine (overlays_countFile config hd₀ houtput h h' ?_).steady
    by_cases hsame : names = names'
    · exact .inl (hsame ▸ rfl)
    · exact .inr (apart_built hnames hnames' hsame)
  · exact steady_given config output hd₀ houtput h h'

/-! ## Folders -/

/-- **A folder of a tree comes to the same totals after any other.** -/
theorem steady_buildFolder (hd₀ : d₀.WellFormed) (hroot : d₀.folderAt? root = some place)
    (hp : p ∈ visitedFolders d₀ root) (hp' : p' ∈ visitedFolders d₀ root) :
    Steady d₀.Grown (buildFolder config output p) (buildFolder config output p') := by
  obtain ⟨names, hnames, rfl, hq⟩ := exists_names_of_mem_visitedFolders hd₀ hroot hp
  obtain ⟨names', hnames', rfl, hq'⟩ := exists_names_of_mem_visitedFolders hd₀ hroot hp'
  obtain ⟨es, hes⟩ := hd₀.isFolderAt hq
  obtain ⟨es', hes'⟩ := hd₀.isFolderAt hq'
  have hkeeps := keeps_grown_countFile config output hd₀
  intro d hgrown
  have hkept := keeps_buildFolder config output hd₀ hq' d hgrown
  rw [buildFolder_eq config output hd₀ hq hes hkept, buildFolder_eq config output hd₀ hq hes hgrown,
    buildFolder_eq config output hd₀ hq' hes' hgrown]
  refine (Steady.inTurn (fun file _ => hkeeps file) (fun file _ => hkeeps file)
    (fun file hfile file' hfile' => ?_) (fun file hfile file' hfile' => ?_) : Steady d₀.Grown _ _)
      d hgrown
  · obtain ⟨definition, hmem, rfl⟩ := List.mem_map.1 hfile
    obtain ⟨definition', hmem', rfl⟩ := List.mem_map.1 hfile'
    exact steady_countFile config output hd₀ hnames hnames ⟨hq, es, hes, hmem⟩ ⟨hq, es, hes, hmem'⟩
  · obtain ⟨definition, hmem, rfl⟩ := List.mem_map.1 hfile
    obtain ⟨definition', hmem', rfl⟩ := List.mem_map.1 hfile'
    exact steady_countFile config output hd₀ hnames hnames' ⟨hq, es, hes, hmem⟩
      ⟨hq', es', hes', hmem'⟩

/-- **The folders of a tree in any order** come to the sum of what each comes to in the beginning. -/
theorem totals_inTurn_of_perm (hd₀ : d₀.WellFormed) {order : List Path}
    (horder : order.Perm (visitedFolders d₀ root)) : (inTurn (buildFolder config output) order d₀).totals
      = ((visitedFolders d₀ root).map fun p => (buildFolder config output p d₀).totals).foldr
        (· + ·) {} := by
  cases hroot : d₀.folderAt? root with
  | none =>
    rw [visitedFolders_eq_singleton ((isFolder_eq_false_iff hd₀).2 hroot)] at horder ⊢
    rw [List.perm_singleton.1 horder]
    rfl
  | some place =>
    have hmem {p : Path} (hp : p ∈ order) : p ∈ visitedFolders d₀ root := horder.mem_iff.1 hp
    rw [← Totals.foldr_add_perm (horder.map _)]
    exact totals_inTurn_of_steady
      (fun p hp => (settled_of_mem hd₀ hroot (hmem hp)).keeps config output hd₀)
      (fun p hp p' hp' => steady_buildFolder config output hd₀ hroot (hmem hp) (hmem hp')) .refl

/-! ## Output paths -/

/-- The paths that a definition file is compiled to, if it can be read. -/
def outputPaths (config : Config) (output : Option Path) (disk : Disk) (file : Path) : List Path :=
  match disk.readText file, file.messageName? with
  | .ok _, some message => config.targets.enabled.map (outputPath output file message)
  | _, _ => []

/-- Whether no two definitions of a tree are compiled to one path. -/
def OutputsDisjoint (config : Config) (output : Option Path) (disk : Disk) (root : Path) : Prop :=
  ((visitedFolders disk root).flatMap (definitionsIn disk)).Pairwise fun file file' =>
    ∀ path ∈ outputPaths config output disk file, path ∉ outputPaths config output disk file'

instance (config : Config) (output : Option Path) (disk : Disk) (root : Path) :
    Decidable (OutputsDisjoint config output disk root) :=
  inferInstanceAs (Decidable (List.Pairwise _ _))

section OutputPaths

variable {config : Config} {output : Option Path} {disk : Disk} {root : Path}

theorem mem_outputPaths (hgiven : output.getD [] ≠ []) {t : Target} (ht : t ∈ config.targets.enabled)
    {file : Path} {message : Text} (hmessage : (match disk.readText file with
      | .ok _ => file.messageName?
      | .error _ => none) = some message) :
    (output.getD []).join (Path.fileName message t) ∈ outputPaths config output disk file := by
  unfold outputPaths
  cases hread : disk.readText file with
  | error cause =>
    rw [hread] at hmessage
    cases hmessage
  | ok text =>
    rw [hread] at hmessage
    dsimp only at hmessage
    rw [hmessage, ← outputFolder_of_given hgiven file]
    exact List.mem_map_of_mem ht

/-- **Where no two definitions are compiled to one path**, no two messages have one name, unless
nothing is generated or every folder has an output of its own. -/
theorem OutputsDisjoint.unobstructed (h : OutputsDisjoint config output disk root) :
    Unobstructed config output disk root := by
  by_cases hdefault : output.getD [] = []
  · exact .inr (.inl hdefault)
  cases henabled : config.targets.enabled with
  | nil => exact .inl henabled
  | cons t rest =>
    have ht : t ∈ config.targets.enabled := henabled ▸ List.mem_cons_self
    refine .inr (.inr ?_)
    unfold compiledNames
    rw [← List.filterMap_flatMap, List.nodup_iff_pairwise_ne, List.pairwise_filterMap]
    apply h.imp
    intro file file' hdisjoint message hmessage message' hmessage' heq
    apply hdisjoint _ (mem_outputPaths hdefault ht hmessage)
    rw [heq]
    exact mem_outputPaths hdefault ht hmessage'

theorem OutputsDisjoint.congr {config' : Config} (h : OutputsDisjoint config output disk root)
    (htargets : config'.targets = config.targets) : OutputsDisjoint config' output disk root := by
  unfold OutputsDisjoint outputPaths
  rw [htargets]
  exact h

end OutputPaths

/-! ## Schedules -/

namespace Schedule

variable {config output} {s t : State} {order : List Path} {totals : Totals}

/-- **A schedule that comes to its end has the totals of the folders that are visited**, each as it is in
the beginning. -/
theorem totals_of_finished (hd₀ : d₀.WellFormed)
    (h : Reachable config output (.initial config root d₀) s) (hfinished : s.task = .finished totals) :
    totals = ((visitedFolders d₀ root).map fun p => (buildFolder config output p d₀).totals).foldr
      (· + ·) {} := by
  obtain ⟨order, horder, hresult⟩ := exists_order_of_reachable hd₀ h hfinished
  rw [← totals_inTurn_of_perm config output hd₀ horder]
  exact (Prod.mk.inj hresult).1

theorem reachable_of_ran {start : State} (h : Ran config output start s order) :
    Reachable config output start s := by
  induction h with
  | refl => exact .refl
  | build _ hbuilds ih => exact ih.step hbuilds.step
  | quiet _ hstep _ ih => exact ih.step hstep

theorem left_eq_of_quiet (hd₀ : d₀.WellFormed) (h : Step config output s t)
    (hs : OnTheWay d₀ root s) (hquiet : ∀ p, ¬ Builds config output p s t) :
    t.task.left d₀ = s.task.left d₀ := by
  induction h with
  | start => exact left_start hd₀ hs
  | build => exact absurd .here (hquiet _)
  | join => simp only [Task.left, Task.leftAmong_append, Task.leftAmong, List.nil_append]; rfl
  | inner _ ih =>
    have hinner := ih hs.inner fun p hp => hquiet p (.inner hp)
    dsimp only at hinner
    simp only [Task.left, Task.leftAmong_append, Task.leftAmong, hinner]
  | _ => rfl

/-- What a step builds is the folder of a task. -/
theorem exists_task_of_builds (h : Builds config output p s t) :
    ∃ u ∈ s.task.all, u.folder? = some p := by
  induction h with
  | here => exact ⟨_, Task.mem_all_self _, rfl⟩
  | inner _ ih => exact ih.imp fun u hu => ⟨Task.mem_all_inner hu.1, hu.2⟩

/-- **A folder that is built has the definitions from the beginning**, and one that was none then has
none. -/
theorem definitionsIn_of_builds (hd₀ : d₀.WellFormed) (hs : OnTheWay d₀ root s)
    (h : Builds config output p s t) : definitionsIn s.disk p = definitionsIn d₀ p := by
  cases hp : d₀.isFolder p with
  | true =>
    obtain ⟨q, hq⟩ := (isFolder_eq_true_iff hd₀).1 hp
    exact definitionsIn_of_grown hd₀ hs.during.grown hq
  | false =>
    obtain ⟨u, hu, hfolder⟩ := exists_task_of_builds h
    rw [definitionsIn_eq_nil hp, (hs.late u hu p hfolder hp).definitionsIn_eq_nil hd₀ hs.during]

/-- **The files that a schedule has compiled** and those in the folders that are left are the files in
the folders that are to be visited. -/
theorem perm_filesInTurn_of_ran (hd₀ : d₀.WellFormed)
    (h : Ran config output (.initial config root d₀) s order) :
    (filesInTurn config output order d₀ ++ (s.task.left d₀).flatMap (definitionsIn d₀)).Perm
      (((State.initial config root d₀).task.left d₀).flatMap (definitionsIn d₀)) := by
  induction h with
  | refl => exact .refl _
  | @build s t p order hran hbuilds ih =>
    have hs := onTheWay_of_reachable hd₀ (reachable_of_ran hran)
    have hfiles : filesInTurn config output (order ++ [p]) d₀
        = filesInTurn config output order d₀ ++ definitionsIn d₀ p := by
      rw [filesInTurn, turns_append, List.flatMap_append, ← (Prod.mk.inj (result_of_ran hran)).2,
        ← definitionsIn_of_builds hd₀ hs hbuilds]
      exact congrArg _ (List.append_nil _)
    have hcounted : (if d₀.isFolder p then [p] else []).flatMap (definitionsIn d₀)
        = definitionsIn d₀ p := by
      cases hp : d₀.isFolder p with
      | true => exact List.append_nil _
      | false => exact (definitionsIn_eq_nil hp).symm
    have hleft := (perm_left_of_builds (d := d₀) hbuilds).flatMap_right (definitionsIn d₀)
    rw [List.flatMap_append, hcounted] at hleft
    rw [hfiles, List.append_assoc]
    exact (hleft.symm.append_left _).trans ih
  | quiet hran hstep hquiet ih =>
    rwa [left_eq_of_quiet hd₀ hstep (onTheWay_of_reachable hd₀ (reachable_of_ran hran)) hquiet]

/-- **A schedule that comes to its end has compiled the definitions of the tree**, each once. -/
theorem perm_filesInTurn_of_finished (hd₀ : d₀.WellFormed)
    (h : Ran config output (.initial config root d₀) s order) (hfinished : s.task = .finished totals) :
    (filesInTurn config output order d₀).Perm (treeDefinitions d₀ root) := by
  have hperm := perm_filesInTurn_of_ran hd₀ h
  rw [hfinished, Task.left, List.flatMap_nil, List.append_nil, left_initial] at hperm
  rw [treeDefinitions]
  cases hroot : d₀.isFolder root with
  | true => rwa [hroot, if_pos rfl] at hperm
  | false =>
    rw [hroot, if_neg Bool.false_ne_true] at hperm
    rw [visitedFolders_eq_singleton hroot, List.flatMap_singleton, definitionsIn_eq_nil hroot]
    exact hperm

end Schedule

end MessageCompiler.Build
