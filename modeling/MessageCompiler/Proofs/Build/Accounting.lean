import Mathlib.Algebra.GroupWithZero.Nat
import MessageCompiler.Proofs.Build.Logs
import MessageCompiler.Proofs.Build.Selection

/-!
# Every definition is accounted for

A definition file whose name gives the message a name is compiled or has failed; one whose stem is no
text, or has nothing but spaces, is passed over. So the files that a build counts are the definition
files with a name for their message, each in the folder that it lies in and on the disk that the folder
finds. That is so for one folder, for folders one after the other, and for every schedule of their
tasks: a schedule comes to what it has built, in this order.

* **`counted_countFile`, `countFile_of_not_namesMessage`**: how one file is counted.
* **`counted_buildFolder`, `counted_inTurn`**: a folder, and folders one after the other.
* **`Schedule.Ran`, `Schedule.result_of_ran`**: a schedule with the folders that it has built, and what
  it comes to.
* **`definitions_accounted`**: every definition is accounted for.
-/

namespace MessageCompiler.Build

open Disk

variable {d : Disk} {p root : Path} {name : Utf8.Bytes}

namespace Totals

/-- How many files were compiled or have failed. -/
def counted (t : Totals) : Nat := t.compiled + t.failed

theorem counted_add (a b : Totals) : (a + b).counted = a.counted + b.counted := by
  show a.compiled + b.compiled + (a.failed + b.failed) = a.compiled + a.failed + (b.compiled + b.failed)
  omega

theorem counted_ofOutcome {outcome : Outcome} (h : outcome ≠ .ok none) :
    (ofOutcome outcome).counted = 1 := by
  match outcome, h with
  | .ok (some _), _ => rfl
  | .error _, _ => rfl

end Totals

/-! ## The definitions of a folder -/

/-- The names of the definition files directly in a folder. -/
def definitionNames (disk : Disk) (folder : Path) : List Utf8.Bytes :=
  (((disk.list folder).toOption.getD []).map Prod.fst).filter fun name =>
    Path.isDefinitionName name && disk.isFile (folder.join name)

/-- How many definition files directly in a folder give their message a name. -/
def messageCount (disk : Disk) (folder : Path) : Nat :=
  (definitionNames disk folder).countP Path.namesMessage

theorem definitionsIn_eq_map (hd : d.Orderly) (p : Path) :
    definitionsIn d p = (definitionNames d p).map p.join := by
  rw [definitionsIn, definitionNames]
  cases hlist : d.list p with
  | error cause => rfl
  | ok es =>
    obtain ⟨q, -, hes⟩ := list_eq_ok_iff.1 hlist
    have hname : ∀ name ∈ es.map Prod.fst, Path.IsName name :=
      List.forall_mem_map.2 (hd.tree q es hes).2
    show definitionFiles d p es = ((es.map Prod.fst).filter _).map p.join
    have hpaths : es.map (fun entry => p.join entry.1) = (es.map Prod.fst).map p.join := by
      rw [List.map_map]
      rfl
    rw [definitionFiles, hpaths, List.filter_map]
    congr 1
    refine List.filter_congr fun name hmem => ?_
    show ((p.join name).isDefinitionFile && _) = _
    rw [Path.isDefinitionFile_join p (hname name hmem)]

/-- **The definition files of a folder**, by their names. -/
theorem mem_definitionNames_iff : name ∈ definitionNames d p ↔ IsDefinition d p name := by
  rw [definitionNames, List.mem_filter, Bool.and_eq_true, Path.isDefinitionName_iff]
  constructor
  · rintro ⟨hlisted, hnamed, hfile⟩
    refine ⟨?_, hnamed, hfile⟩
    cases hlist : d.list p with
    | error cause =>
      rw [hlist] at hlisted
      cases hlisted
    | ok es =>
      rw [hlist] at hlisted
      exact ⟨es, rfl, hlisted⟩
  · rintro ⟨⟨es, hlist, hmem⟩, hnamed, hfile⟩
    rw [hlist]
    exact ⟨hmem, hnamed, hfile⟩

theorem nodup_definitionNames (hd : d.Orderly) (p : Path) : (definitionNames d p).Nodup := by
  refine List.Nodup.of_map p.join ?_
  rw [← definitionsIn_eq_map hd]
  exact nodup_definitionsIn hd p

theorem messageCount_eq (hd : d.Orderly) (p : Path) :
    messageCount d p = (definitionsIn d p).countP (·.messageName?.isSome) := by
  rw [definitionsIn_eq_map hd, List.countP_map, messageCount]
  refine List.countP_congr fun name hname => ?_
  have hisName := (mem_definitionNames_iff.1 hname).isName hd
  rw [Function.comp_apply, Path.messageName?_join p hisName, Path.isSome_messageOf?]

/-! ## One file -/

variable (config : Config) (output : Option Path)

theorem countFile_of_messageName?_eq_none {file : Path} (h : file.messageName? = none) :
    countFile config output file d = ⟨{}, d, []⟩ := by
  rw [countFile, buildFile_of_idle config output (.inr h)]
  rfl

theorem counted_countFile_of_isSome {file : Path} (hfile : d.isFile file = true)
    (h : file.messageName?.isSome = true) :
    (countFile config output file d).totals.counted = 1 := by
  obtain ⟨message, hmessage⟩ := Option.isSome_iff_exists.1 h
  show (Totals.ofOutcome (buildFile config output file d).outcome).counted = 1
  rw [buildFile_eq_buildMessage config output hfile hmessage]
  exact Totals.counted_ofOutcome (outcome_buildMessage_ne config output file message d)

/-- **A definition with a name for its message is compiled or has failed.** -/
theorem counted_countFile (hd : d.Orderly) (h : IsDefinition d p name)
    (hname : Path.namesMessage name = true) :
    (countFile config output (p.join name) d).totals.counted = 1 := by
  have hisName := h.isName hd
  obtain ⟨es, hlist, -⟩ := h.listed
  obtain ⟨q, hq, -⟩ := list_eq_ok_iff.1 hlist
  refine counted_countFile_of_isSome config output h.isFile ?_
  rw [Path.messageName?_join p hisName, Path.isSome_messageOf?, hname]

/-- **A definition without a name for its message is passed over.** -/
theorem countFile_of_not_namesMessage (hisName : Path.IsName name)
    (hname : Path.namesMessage name = false) :
    countFile config output (p.join name) d = ⟨{}, d, []⟩ := by
  refine countFile_of_messageName?_eq_none config output (Option.not_isSome_iff_eq_none.1 ?_)
  rw [Path.messageName?_join p hisName, Path.isSome_messageOf?, hname]
  exact Bool.false_ne_true

/-! ## Folders -/

theorem counted_inTurn_countFile (hd : d.Orderly) {files : List Path}
    (h : ∀ file ∈ files, d.isFile file = true) :
    (inTurn (countFile config output) files d).totals.counted
      = files.countP (·.messageName?.isSome) := by
  induction files generalizing d with
  | nil => rfl
  | cons file rest ih =>
    -- the files are still there when their turn comes
    have hextended := keeps_extended_countFile config output hd file d .refl
    have hrest := ih (hextended.orderly hd) fun f hf =>
      hextended.isFile (h f (List.mem_cons_of_mem _ hf))
    rw [inTurn_cons]
    show ((countFile config output file d).totals + _).counted = _
    rw [Totals.counted_add, hrest, List.countP_cons]
    cases hmessage : file.messageName?.isSome with
    | true =>
      rw [counted_countFile_of_isSome config output (h file List.mem_cons_self) hmessage,
        if_pos rfl]
      omega
    | false =>
      have hnone := Option.not_isSome_iff_eq_none.1 (Bool.eq_false_iff.1 hmessage)
      rw [countFile_of_messageName?_eq_none config output hnone, if_neg Bool.false_ne_true]
      exact Nat.zero_add _

/-- **A folder counts its definitions** with a name for their message. -/
theorem counted_buildFolder (hd : d.Orderly) (p : Path) :
    (buildFolder config output p d).totals.counted = messageCount d p := by
  obtain ⟨htotals, -⟩ := Prod.mk.inj (buildFolder_result config output p d)
  rw [htotals, messageCount_eq hd]
  refine counted_inTurn_countFile config output hd fun file hfile => ?_
  obtain ⟨name, hname, rfl⟩ := (mem_definitionsIn_iff hd).1 hfile
  exact hname.isFile

/-- **Folders that are built one after the other count their definitions**, each folder those that it
has when its turn comes. -/
theorem counted_inTurn (hd : d.Orderly) (order : List Path) :
    (inTurn (buildFolder config output) order d).totals.counted
      = ((turns (buildFolder config output) order d).map fun turn =>
          messageCount turn.2 turn.1).sum := by
  induction order generalizing d with
  | nil => rfl
  | cons p rest ih =>
    have hextended := extended_buildFolder config output hd p
    rw [inTurn_cons, turns, List.map_cons, List.sum_cons, ← ih (hextended.orderly hd),
      ← counted_buildFolder config output hd p]
    exact Totals.counted_add _ _

theorem counted_inTurn_of_wellFormed (hd : d.WellFormed) {order : List Path}
    (horder : order.Perm (visitedFolders d root)) :
    (inTurn (buildFolder config output) order d).totals.counted
      = ((visitedFolders d root).map (messageCount d)).sum := by
  rw [counted_inTurn config output hd.orderly, ← (horder.map _).sum_nat]
  have hcount : ∀ turn ∈ turns (buildFolder config output) order d,
      messageCount turn.2 turn.1 = messageCount d turn.1 := fun turn hturn => by
    rw [messageCount_eq (orderly_of_mem_turns config output hd.orderly hturn).2,
      messageCount_eq hd.orderly, definitionsIn_of_mem_turns config output horder hd hturn]
  rw [List.map_congr_left hcount, ← map_fst_turns (buildFolder config output) order d,
    List.map_map, map_fst_turns]
  rfl

/-! ## Schedules -/

namespace Schedule

variable {config output} {s t : State} {order : List Path}

theorem disk_of_builds (h : Builds config output p s t) :
    t.disk = (buildFolder config output p s.disk).disk := by
  induction h with
  | here => rfl
  | inner _ ih => exact ih

theorem disk_of_quiet (h : Step config output s t) (hquiet : ∀ p, ¬ Builds config output p s t) :
    t.disk = s.disk := by
  induction h with
  | build => exact absurd .here (hquiet _)
  | inner _ ih => exact ih fun c hc => hquiet c (.inner hc)
  | _ => rfl

/-- The states that some schedule leads to, with the folders whose files it has built on the way, in
this order. -/
inductive Ran (config : Config) (output : Option Path) (start : State) : State → List Path → Prop where
  | refl : Ran config output start start []
  | build {s t : State} {p : Path} {order : List Path} :
    Ran config output start s order → Builds config output p s t →
    Ran config output start t (order ++ [p])
  | quiet {s t : State} {order : List Path} :
    Ran config output start s order → Step config output s t →
    (∀ p, ¬ Builds config output p s t) → Ran config output start t order

theorem exists_ran_of_reachable {start : State} (h : Reachable config output start s) :
    ∃ order, Ran config output start s order := by
  induction h with
  | refl => exact ⟨[], .refl⟩
  | @step s t _ hstep ih =>
    obtain ⟨order, hran⟩ := ih
    by_cases hbuilds : ∃ p, Builds config output p s t
    · obtain ⟨p, hp⟩ := hbuilds
      exact ⟨order ++ [p], hran.build hp⟩
    · exact ⟨order, hran.quiet hstep (not_exists.1 hbuilds)⟩

/-- **A schedule comes to what it has built**, one folder after the other, on any disk. -/
theorem result_of_ran {disk : Disk} (h : Ran config output (.initial config root disk) s order) :
    (s.task.gathered, s.disk) = (inTurn (buildFolder config output) order disk).result := by
  induction h with
  | refl => rfl
  | @build s t p order _ hbuilds ih =>
    obtain ⟨hgathered, hdisk⟩ := Prod.mk.inj ih
    rw [result_inTurn_append, result_andThen, ← hgathered, ← hdisk, gathered_of_builds hbuilds,
      disk_of_builds hbuilds]
    show _ = (_ + ((buildFolder config output p s.disk).totals + {}), _)
    rw [Totals.add_comm _ {}, Totals.zero_add]
    rfl
  | quiet _ hstep hquiet ih => rw [gathered_of_quiet hstep hquiet, disk_of_quiet hstep hquiet, ih]

/-! ### No folder is left out -/

theorem Task.mem_left_inner {stage : Stage} {permit : Bool} {before after : List Task} {task : Task}
    {c q : Path} : c ∈ (active q stage permit (before ++ task :: after)).left d
      ↔ c ∈ (active q stage permit (before ++ after)).left d ∨ c ∈ task.left d := by
  simp only [Task.left, Task.leftAmong_append, Task.leftAmong, List.mem_append]
  tauto

/-- **Of what is left, a step that builds a folder takes that folder**, if it counts, and nothing
else. -/
theorem perm_left_of_builds (h : Builds config output p s t) :
    (s.task.left d).Perm ((if d.isFolder p then [p] else []) ++ t.task.left d) := by
  induction h with
  | here => exact .refl _
  | inner _ ih =>
    -- the folder stands in the middle, after those of the task above and of the tasks before
    simp only [Task.left, Task.leftAmong_append, Task.leftAmong]
    refine (((ih.append_right _).append_left _).append_left _).trans ?_
    rw [List.append_assoc]
    exact ((List.perm_append_comm_assoc _ _ _).append_left _).trans (List.perm_append_comm_assoc _ _ _)

theorem messageFolders_of_extended {e : Disk} (hd : d.Orderly) (hextended : d.Extended e)
    (hp : d.isFolder p = true) {c : Path} (hc : c ∈ messageFolders d p) :
    c ∈ messageFolders e p ∧ d.isFolder c = true := by
  obtain ⟨q, hq⟩ := isFolder_iff.1 hp
  obtain ⟨es, hes⟩ := hq.isFolderAt
  have hq' := hextended.leadsTo hq
  obtain ⟨es', hes'⟩ := hq'.isFolderAt
  obtain ⟨name, sub, rfl, hmessage, hget, hsub, -⟩ := exists_of_mem_messageFolders hd hq hes hc
  obtain ⟨sub', hget'⟩ := hextended.isFolderAt ⟨sub, hget⟩
  have he := hextended.orderly hd
  rw [Node.get?_append_singleton hes'] at hget'
  refine ⟨?_, isFolder_iff.2 ⟨_, hsub⟩⟩
  rw [messageFolders_eq he hq' hes']
  exact List.mem_map_of_mem ((mem_messageNames_iff (he.tree q es' hes').1).2 ⟨hmessage, sub', hget'⟩)

theorem left_of_quiet (hd : d.Orderly) (h : Step config output s t)
    (hextended : d.Extended s.disk) (hquiet : ∀ p, ¬ Builds config output p s t) {c : Path}
    (hc : c ∈ s.task.left d) : c ∈ t.task.left d := by
  induction h with
  | @start free disk p =>
    rw [Task.left] at hc
    split at hc
    · next hp =>
      obtain ⟨q, hq⟩ := isFolder_iff.1 hp
      obtain ⟨es, hes⟩ := hq.isFolderAt
      rw [visitedFolders_eq hd hq hes] at hc
      show c ∈ (if true && d.isFolder p then [p] else []) ++ Task.leftAmong d _
      rw [hp, Task.leftAmong_map_ready]
      -- the task looks for folders later, but finds those from the beginning
      rcases List.mem_cons.1 hc with rfl | hc
      · exact List.mem_cons_self
      · obtain ⟨c', hc', hmem⟩ := List.mem_flatMap.1 hc
        obtain ⟨hfound, hfolder⟩ := messageFolders_of_extended hd hextended hp hc'
        exact List.mem_append_right _
          (List.mem_flatMap.2 ⟨c', List.mem_filter.2 ⟨hfound, hfolder⟩, hmem⟩)
    · cases hc
  | acquire => exact hc
  | pass => exact hc
  | build => exact absurd .here (hquiet _)
  | release => exact hc
  | leave => exact hc
  | join =>
    rcases Task.mem_left_inner.1 hc with hc | hc
    · exact hc
    · cases hc
  | finish => exact hc
  | inner _ ih =>
    rcases Task.mem_left_inner.1 hc with hc | hc
    · exact Task.mem_left_inner.2 (.inl hc)
    · exact Task.mem_left_inner.2
        (.inr (ih hextended (fun p hp => hquiet p (.inner hp)) hc))

/-- **A folder that is to be visited in the beginning was built, or is left.** -/
theorem mem_order_or_left {disk : Disk} (hdisk : disk.Orderly)
    (h : Ran config output (.initial config root disk) s order) {c : Path}
    (hc : Visited disk root c) (hfolder : disk.isFolder c = true) :
    c ∈ order ∨ c ∈ s.task.left disk := by
  induction h with
  | refl =>
    have hroot : disk.isFolder root = true := by
      cases hroot : disk.isFolder root with
      | true => rfl
      | false =>
        rw [hc.eq_root hroot, hroot] at hfolder
        cases hfolder
    -- nothing is built yet, so all that is to be visited is left
    right
    show c ∈ if disk.isFolder root then visitedFolders disk root else []
    rw [if_pos hroot]
    exact (mem_visitedFolders_iff_visited hdisk).2 hc
  | build _ hbuilds ih =>
    rcases ih with hmem | hleft
    · exact .inl (List.mem_append_left _ hmem)
    · refine (List.mem_append.1 ((perm_left_of_builds hbuilds).mem_iff.1 hleft)).imp (fun hmem => ?_) id
      split at hmem
      · exact List.mem_append_right _ hmem
      · cases hmem
  | @quiet s t order hran hstep hquiet ih =>
    -- what was a folder to begin with is one still, after all that has been built on the way
    have hextended : disk.Extended s.disk := by
      obtain ⟨-, hend⟩ := Prod.mk.inj (result_of_ran hran)
      rw [hend]
      exact Keeps.inTurn (fun p _ => keeps_extended_buildFolder config output hdisk p) disk .refl
    exact ih.imp id (left_of_quiet hdisk hstep hextended hquiet)

/-- **A schedule that comes to its end has built every folder that is to be visited.** -/
theorem mem_order_of_finished {disk : Disk} (hdisk : disk.Orderly)
    (h : Ran config output (.initial config root disk) s order) {totals : Totals}
    (hfinished : s.task = .finished totals) {c : Path} (hc : Visited disk root c)
    (hfolder : disk.isFolder c = true) : c ∈ order := by
  rcases mem_order_or_left hdisk h hc hfolder with hmem | hleft
  · exact hmem
  · rw [hfinished] at hleft
    cases hleft

end Schedule

/-! ## Whole builds -/

/-- **Every definition is accounted for.** A definition file with a name for its message is compiled or
has failed, and any other leaves no trace. So a folder, a tree, and a schedule that comes to its end
count exactly the definition files with a name for their message, in each folder those that it has when
it is built. Every schedule has built some folders in some order, and in the end every folder that was
to be visited in the beginning. Without links the count is that of the definitions in these folders in
the beginning. -/
theorem definitions_accounted (config : Config) (output : Option Path) (root : Path) {disk : Disk}
    (hdisk : disk.Orderly) :
    (∀ d p, d.Orderly → (definitionNames d p).Nodup
        ∧ ∀ name, name ∈ definitionNames d p ↔ IsDefinition d p name)
      ∧ (∀ d p name, d.Orderly → IsDefinition d p name →
        let build := countFile config output (p.join name) d
        if Path.namesMessage name then build.totals.compiled + build.totals.failed = 1
        else build = ⟨{}, d, []⟩)
      ∧ (buildFolder config output root disk).totals.counted = messageCount disk root
      ∧ (buildTree config output root disk).totals.counted
        = ((turns (buildFolder config output) (visitedFolders disk root) disk).map fun turn =>
            messageCount turn.2 turn.1).sum
      ∧ (∀ s, Schedule.Reachable config output (.initial config root disk) s →
        ∃ order, Schedule.Ran config output (.initial config root disk) s order)
      ∧ (∀ s order totals, Schedule.Ran config output (.initial config root disk) s order →
        s.task = .finished totals →
          (∀ p, Visited disk root p → disk.isFolder p = true → p ∈ order)
            ∧ totals.counted = ((turns (buildFolder config output) order disk).map fun turn =>
                messageCount turn.2 turn.1).sum)
      ∧ (disk.WellFormed → ∀ s totals,
        Schedule.Reachable config output (.initial config root disk) s → s.task = .finished totals →
          totals.counted = ((visitedFolders disk root).map (messageCount disk)).sum) := by
  refine ⟨fun d p hd => ⟨nodup_definitionNames hd p, fun _ => mem_definitionNames_iff⟩,
    fun d p name hd hname => ?_, counted_buildFolder config output hdisk root,
    counted_inTurn config output hdisk (visitedFolders disk root),
    fun s => Schedule.exists_ran_of_reachable,
    fun s order totals hran hfinished => ⟨fun p => ?_, ?_⟩, fun hwf s totals hreach hfinished => ?_⟩
  · dsimp only
    split
    · next hmessage => exact counted_countFile config output hd hname hmessage
    · next hmessage =>
      exact countFile_of_not_namesMessage config output (hname.isName hd)
        (Bool.eq_false_iff.2 hmessage)
  · exact Schedule.mem_order_of_finished hdisk hran hfinished
  · -- what the tasks have gathered in the end is what the builds in this order come to
    have hresult := Schedule.result_of_ran hran
    rw [hfinished] at hresult
    obtain ⟨htotals, -⟩ := Prod.mk.inj hresult
    rw [← counted_inTurn config output hdisk order, ← htotals]
    rfl
  · obtain ⟨order, horder, hresult⟩ := Schedule.exists_order_of_reachable hwf hreach hfinished
    obtain ⟨htotals, -⟩ := Prod.mk.inj hresult
    rw [htotals]
    exact counted_inTurn_of_wellFormed config output hwf horder

/-- Four definition files: one is compiled and one is no text. The stem of the first is a space, and
that of the last one is no text. -/
def mixedDefinitions : Disk where
  root := .folder [(Path.ofText " .msg".toList, .file (Path.ofText "int x".toList)),
    (Path.ofText "A.msg".toList, .file (Path.ofText "int x".toList)),
    (Path.ofText "B.msg".toList, .file [0xFF]),
    (0xFF :: Path.ofText ".msg".toList, .file (Path.ofText "int x".toList))]
  folder := []

/-- One of the definitions is compiled, one fails, and two are passed over. -/
theorem definitions_accounted_mixed :
    (definitionNames mixedDefinitions Path.here).length = 4
      ∧ (buildFolder {} none Path.here mixedDefinitions).totals.counted = 2 := by
  have hdisk : mixedDefinitions.WellFormed := ⟨by decide, _, rfl⟩
  obtain ⟨-, -, hfolder, -⟩ := definitions_accounted {} none Path.here hdisk.orderly
  exact ⟨by decide +kernel, hfolder.trans (by decide +kernel)⟩

/-- **Not every definition is counted**: a file is passed over if its name gives the message none, be it
in a folder or in a tree. -/
theorem counted_ne_length_definitionNames :
    (buildFolder {} none Path.here mixedDefinitions).totals.counted
        ≠ (definitionNames mixedDefinitions Path.here).length
      ∧ (buildTree {} none Path.here mixedDefinitions).totals.counted
        ≠ (((visitedFolders mixedDefinitions Path.here).map fun p =>
            (definitionNames mixedDefinitions p).length).sum) := by
  constructor <;> decide +kernel

end MessageCompiler.Build
