import MessageCompiler.Proofs.Build.Folders
import MessageCompiler.Proofs.Build.Permits
import MessageCompiler.Proofs.Build.Turns

/-!
# All schedules come to the same end

What a state of a schedule will come to is known beforehand: the totals that have been gathered, and
those of the folders that are still to be built, on the disk as it is. No step changes that. A task
that starts finds the folders that a build of the whole tree would visit from there, besides some
that have nothing to be built; and a folder that is built out of turn changes places with the ones
that it overtakes.

* **`account_step`**: what a step does to the folders to be built, the disk and the totals.
* **`outcome_step`**: no step changes what a state will come to.
* **`end_of_reachable`**: a schedule that comes to its end leaves what the build of one folder
  after the other leaves.
* **`exists_order_of_reachable`**: whatever is in the way of what, it has built the folders in some
  order.
-/

namespace MessageCompiler.Build.Schedule

open Disk

variable {config : Config} {output : Option Path} {d₀ : Disk} {root : Path}

/-! ## What is gathered and what is left -/

namespace Stage

/-- Whether the own files are still to be built. -/
def isBefore : Stage → Bool
  | .queued => true
  | .compiling => true
  | _ => false

/-- What has been gathered so far. -/
def totals : Stage → Totals
  | .compiled totals => totals
  | .joining totals => totals
  | _ => {}

end Stage

namespace Task

mutual

/-- The folders that are still to be built, those below after the task's own. Only folders of the disk
at the beginning count: a folder that comes later has nothing to be built. -/
def left (d₀ : Disk) : Task → List Path
  | .ready p => if d₀.isFolder p then visitedFolders d₀ p else []
  | .active p stage _ below =>
    (if stage.isBefore && d₀.isFolder p then [p] else []) ++ leftAmong d₀ below
  | .finished _ => []

/-- The folders that tasks have still to build. -/
def leftAmong (d₀ : Disk) : List Task → List Path
  | [] => []
  | task :: rest => left d₀ task ++ leftAmong d₀ rest

end

mutual

/-- The totals that a task and the tasks below have come to so far. -/
def gathered : Task → Totals
  | .ready _ => {}
  | .active _ stage _ below => stage.totals + gatheredAmong below
  | .finished totals => totals

/-- The totals that tasks have come to so far. -/
def gatheredAmong : List Task → Totals
  | [] => {}
  | task :: rest => gathered task + gatheredAmong rest

end

/-- The folder of a task that has not come to its end. -/
def folder? : Task → Option Path
  | .ready p => some p
  | .active p _ _ _ => some p
  | .finished _ => none

theorem leftAmong_append (d₀ : Disk) (before after : List Task) :
    leftAmong d₀ (before ++ after) = leftAmong d₀ before ++ leftAmong d₀ after := by
  induction before with
  | nil => rfl
  | cons task rest ih => rw [List.cons_append, leftAmong, ih, leftAmong, List.append_assoc]

theorem leftAmong_map_ready (d₀ : Disk) (ps : List Path) : leftAmong d₀ (ps.map .ready)
    = (ps.filter d₀.isFolder).flatMap (visitedFolders d₀) := by
  induction ps with
  | nil => rfl
  | cons p rest ih =>
    rw [List.map_cons, leftAmong, ih, left, List.filter_cons]
    split
    · rw [List.flatMap_cons]
    · rfl

theorem gatheredAmong_append (before after : List Task) :
    gatheredAmong (before ++ after) = gatheredAmong before + gatheredAmong after := by
  induction before with
  | nil => rw [List.nil_append, gatheredAmong, Totals.zero_add]
  | cons task rest ih => rw [List.cons_append, gatheredAmong, ih, gatheredAmong, Totals.add_assoc]

theorem gatheredAmong_map_ready (ps : List Path) : gatheredAmong (ps.map .ready) = {} := by
  induction ps with
  | nil => rfl
  | cons p rest ih => rw [List.map_cons, gatheredAmong, ih]; rfl

theorem gathered_inner (p : Path) (stage : Stage) (permit : Bool) (before after : List Task)
    (task : Task) : (active p stage permit (before ++ task :: after)).gathered
      = (active p stage permit (before ++ after)).gathered + task.gathered := by
  simp only [gathered, gatheredAmong_append, gatheredAmong, Totals.add_assoc]
  rw [Totals.add_comm task.gathered]

theorem gathered_join (p : Path) (totals more : Totals) (permit : Bool) (before after : List Task) :
    (active p (.joining (totals + more)) permit (before ++ after)).gathered
      = (active p (.joining totals) permit (before ++ finished more :: after)).gathered := by
  rw [gathered_inner]
  show totals + more + gatheredAmong (before ++ after)
    = totals + gatheredAmong (before ++ after) + more
  rw [Totals.add_assoc, Totals.add_assoc, Totals.add_comm more]

theorem mem_left_of_mem {p : Path} {stage : Stage} {permit : Bool} {before after : List Task}
    {task : Task} {c : Path} (h : c ∈ task.left d₀) :
    c ∈ (active p stage permit (before ++ task :: after)).left d₀ := by
  rw [left, leftAmong_append, leftAmong]
  exact List.mem_append_right _ (List.mem_append_right _ (List.mem_append_left _ h))

end Task

/-! ## One step -/

/-- What a step did: it built a visited folder, which is no longer left, or it changed nothing that
counts. -/
inductive Account (config : Config) (output : Option Path) (d₀ : Disk) (root : Path) (s t : State) :
    Prop where
  | rest (disk : t.disk = s.disk) (left : t.task.left d₀ = s.task.left d₀)
    (gathered : t.task.gathered = s.task.gathered)
  | build (p : Path) (settled : Settled d₀ root p)
    (disk : t.disk = (buildFolder config output p s.disk).disk)
    (left : (s.task.left d₀).Perm (p :: t.task.left d₀))
    (gathered : t.task.gathered = s.task.gathered + (buildFolder config output p s.disk).totals)

/-- What is known of a state on the way: its disk, and the folders of its tasks. -/
structure OnTheWay (d₀ : Disk) (root : Path) (s : State) : Prop where
  during : During d₀ root s.disk
  settled : ∀ p ∈ s.task.left d₀, Settled d₀ root p
  late : ∀ u ∈ s.task.all, ∀ p, u.folder? = some p → d₀.isFolder p = false → Late d₀ root p

namespace OnTheWay

theorem late_self {s : State} (h : OnTheWay d₀ root s) :
    ∀ p, s.task.folder? = some p → d₀.isFolder p = false → Late d₀ root p :=
  h.late s.task (Task.mem_all_self _)

theorem inner {free : Option Nat} {disk : Disk} {p : Path} {stage : Stage} {permit : Bool}
    {before after : List Task} {task : Task}
    (h : OnTheWay d₀ root ⟨free, disk, .active p stage permit (before ++ task :: after)⟩) :
    OnTheWay d₀ root ⟨free, disk, task⟩ := by
  exact ⟨h.during, fun c hc => h.settled c (Task.mem_left_of_mem hc),
    fun u hu => h.late u (Task.mem_all_inner hu)⟩

/-- The folder of a task that is not done with its own files is visited or late. -/
theorem settled_of_isFolder {free : Option Nat} {disk : Disk} {p : Path} {stage : Stage}
    {permit : Bool} {below : List Task} (h : OnTheWay d₀ root ⟨free, disk, .active p stage permit below⟩)
    (hstage : stage.isBefore = true) (hp : d₀.isFolder p = true) : Settled d₀ root p := by
  refine h.settled p ?_
  show p ∈ (if stage.isBefore && d₀.isFolder p then [p] else []) ++ _
  rw [hstage, hp]
  exact List.mem_cons_self

end OnTheWay

section Account

variable {free free' : Option Nat} {disk disk' : Disk} {p : Path} {permit : Bool}

theorem left_start (hd₀ : d₀.WellFormed) (hs : OnTheWay d₀ root ⟨free, disk, .ready p⟩) :
    Task.left d₀ (.active p .queued false ((messageFolders disk p).map .ready))
      = Task.left d₀ (.ready p) := by
  show (if true && d₀.isFolder p then [p] else []) ++ Task.leftAmong d₀ _
    = if d₀.isFolder p then visitedFolders d₀ p else []
  rw [Bool.true_and, Task.leftAmong_map_ready]
  cases hp : d₀.isFolder p with
  | true =>
    obtain ⟨q, hq⟩ := (isFolder_eq_true_iff hd₀).1 hp
    obtain ⟨es, hes⟩ := hd₀.isFolderAt hq
    rw [if_pos rfl, if_pos rfl, filter_messageFolders hd₀ hq hs.during.grown,
      visitedFolders_eq hd₀.orderly (hd₀.leadsTo hq) hes]
    rfl
  | false =>
    -- nothing in a folder that comes late is there from the beginning
    have hlate := hs.late_self p rfl hp
    have hnone : (messageFolders disk p).filter d₀.isFolder = [] := by
      refine List.filter_eq_nil_iff.2 fun c hc hfolder => ?_
      have hnew := (hlate.of_mem_messageFolders hd₀ hs.during hc).isFolder hd₀
      exact Bool.false_ne_true (hnew.symm.trans hfolder)
    rw [hnone]
    rfl

theorem account_build (hd₀ : d₀.WellFormed) {below : List Task}
    (hs : OnTheWay d₀ root ⟨free, disk, .active p .compiling permit below⟩) :
    Account config output d₀ root ⟨free, disk, .active p .compiling permit below⟩
      ⟨free, (buildFolder config output p disk).disk,
        .active p (.compiled (buildFolder config output p disk).totals) permit below⟩ := by
  cases hp : d₀.isFolder p with
  | true =>
    refine .build p (hs.settled_of_isFolder rfl hp) rfl ?_ ?_
    · show ((if true && d₀.isFolder p then [p] else []) ++ Task.leftAmong d₀ below).Perm
        (p :: ((if false && d₀.isFolder p then [p] else []) ++ Task.leftAmong d₀ below))
      rw [hp]
      exact .refl _
    · show (buildFolder config output p disk).totals + Task.gatheredAmong below
        = {} + Task.gatheredAmong below + (buildFolder config output p disk).totals
      rw [Totals.zero_add, Totals.add_comm]
  | false =>
    -- a folder that comes late has nothing to be built
    have hlate := hs.late_self p rfl hp
    obtain ⟨htotals, hdisk⟩ := Prod.mk.inj
      (hlate.result_buildFolder config output hd₀ hs.during)
    refine .rest hdisk ?_ ?_
    · show (if false && d₀.isFolder p then [p] else []) ++ Task.leftAmong d₀ below
        = (if true && d₀.isFolder p then [p] else []) ++ Task.leftAmong d₀ below
      rw [hp]
      rfl
    · show (buildFolder config output p disk).totals + Task.gatheredAmong below
        = {} + Task.gatheredAmong below
      rw [htotals]

/-- What a task below does is done by the task above as well. -/
theorem Account.inner {task task' : Task} {stage : Stage} {before after : List Task}
    (h : Account config output d₀ root ⟨free, disk, task⟩ ⟨free', disk', task'⟩) :
    Account config output d₀ root ⟨free, disk, .active p stage permit (before ++ task :: after)⟩
      ⟨free', disk', .active p stage permit (before ++ task' :: after)⟩ := by
  rcases h with ⟨hdisk, hleft, hgathered⟩ | ⟨c, hc, hdisk, hleft, hgathered⟩
  · dsimp only at hdisk hleft hgathered
    refine .rest hdisk ?_ ?_
    · simp only [Task.left, Task.leftAmong_append, Task.leftAmong, hleft]
    · rw [Task.gathered_inner, Task.gathered_inner, hgathered]
  · dsimp only at hdisk hleft hgathered
    refine .build c hc hdisk ?_ ?_
    · -- the folder that was built stands in the middle, after those of the tasks before
      simp only [Task.left, Task.leftAmong_append, Task.leftAmong]
      refine (((hleft.append_right _).append_left _).append_left _).trans ?_
      rw [List.cons_append, ← List.append_assoc, ← List.append_assoc]
      exact List.perm_middle
    · rw [Task.gathered_inner, Task.gathered_inner, hgathered, Totals.add_assoc]

end Account

/-- **What a step does**: it builds one folder that was left, or leaves all that counts as it was. -/
theorem account_step (hd₀ : d₀.WellFormed) {s t : State} (h : Step config output s t)
    (hs : OnTheWay d₀ root s) : Account config output d₀ root s t := by
  induction h with
  | @start free disk p =>
    refine .rest rfl (left_start hd₀ hs) ?_
    show Stage.queued.totals + Task.gatheredAmong _ = {}
    rw [Task.gatheredAmong_map_ready]
    rfl
  | acquire => exact .rest rfl rfl rfl
  | pass => exact .rest rfl rfl rfl
  | build => exact account_build hd₀ hs
  | release => exact .rest rfl rfl rfl
  | leave => exact .rest rfl rfl rfl
  | @join free disk p totals more permit before after =>
    refine .rest rfl ?_ (Task.gathered_join p totals more permit before after)
    show [] ++ Task.leftAmong d₀ (before ++ after)
      = [] ++ Task.leftAmong d₀ (before ++ .finished more :: after)
    rw [Task.leftAmong_append, Task.leftAmong_append]
    rfl
  | finish => exact .rest rfl rfl rfl
  | inner _ ih => exact (ih hs.inner).inner

/-- The folders of the tasks after a step are those from before, or what a task has found. -/
theorem late_step (hd₀ : d₀.WellFormed) {s t : State} (h : Step config output s t)
    (hs : OnTheWay d₀ root s) : ∀ u ∈ t.task.all, ∀ p, u.folder? = some p → d₀.isFolder p = false →
      Late d₀ root p := by
  induction h with
  | @start free disk p =>
    have hself := hs.late_self p rfl
    intro u hu c hc hnew
    rcases List.mem_cons.1 hu with rfl | hu
    · obtain rfl := Option.some.inj hc
      exact hself hnew
    · -- what is new in a folder that was there is late, and so is all that is in a late one
      rw [Task.allAmong_map_ready] at hu
      obtain ⟨c', hc', rfl⟩ := List.mem_map.1 hu
      obtain rfl := Option.some.inj hc
      cases hq : d₀.folderAt? p with
      | some q => exact late_of_mem_messageFolders hd₀ hq hs.during hc' hnew
      | none =>
        exact (hself ((isFolder_eq_false_iff hd₀).2 hq)).of_mem_messageFolders hd₀ hs.during hc'
  -- whatever its stage is, a task is still the task of its folder
  | acquire => exact Task.forall_all_active hs.late hs.late_self
  | pass => exact Task.forall_all_active hs.late hs.late_self
  | build => exact Task.forall_all_active hs.late hs.late_self
  | release => exact Task.forall_all_active hs.late hs.late_self
  | leave => exact Task.forall_all_active hs.late hs.late_self
  | join => exact Task.forall_all_join hs.late hs.late_self
  | finish =>
    intro u hu c hc
    rw [List.mem_singleton.1 hu] at hc
    cases hc
  | @inner free free' disk disk' task task' p stage permit before after hstep ih =>
    exact Task.forall_all_inner hs.late hs.late_self (ih hs.inner)

/-- **A step leads to another state on the way.** -/
theorem onTheWay_step (hd₀ : d₀.WellFormed) {s t : State} (h : Step config output s t)
    (hs : OnTheWay d₀ root s) : OnTheWay d₀ root t := by
  have hlate := late_step hd₀ h hs
  rcases account_step hd₀ h hs with ⟨hdisk, hleft, -⟩ | ⟨p, hp, hdisk, hleft, -⟩
  · refine ⟨?_, ?_, hlate⟩
    · rw [hdisk]
      exact hs.during
    · rw [hleft]
      exact hs.settled
  · refine ⟨?_, fun c hc => hs.settled c ?_, hlate⟩
    · rw [hdisk]
      exact hp.during_buildFolder config output hd₀ hs.during
    · exact hleft.mem_iff.2 (List.mem_cons_of_mem _ hc)

/-! ## What a state will come to -/

/-- What a state will come to: the totals that have been gathered, and what building the folders that
are left adds to them. -/
def outcome (config : Config) (output : Option Path) (d₀ : Disk) (s : State) : Totals × Disk :=
  let rest := inTurn (buildFolder config output) (s.task.left d₀) s.disk
  (s.task.gathered + rest.totals, rest.disk)

/-- **No step changes what a state will come to.** -/
theorem outcome_step (hd₀ : d₀.WellFormed) (houtput : Unobstructed config output d₀ root)
    {s t : State}
    (h : Step config output s t) (hs : OnTheWay d₀ root s) :
    outcome config output d₀ t = outcome config output d₀ s := by
  rcases account_step hd₀ h hs with ⟨hdisk, hleft, hgathered⟩ | ⟨p, hp, hdisk, hleft, hgathered⟩
  · rw [outcome, outcome, hdisk, hleft, hgathered]
  · obtain ⟨place, -, hroot, -⟩ := hp.exists_names hd₀
    have hkeeps (c : Path) (hc : c ∈ s.task.left d₀) :
        Keeps d₀.Grown (buildFolder config output c) := (hs.settled c hc).keeps config output hd₀
    have hcommutes (c : Path) (hc : c ∈ s.task.left d₀) (c' : Path) (hc' : c' ∈ s.task.left d₀) :
        Commutes d₀.Grown (buildFolder config output c) (buildFolder config output c') :=
      commutes_buildFolder config output hd₀ hroot houtput (hs.settled c hc).mem (hs.settled c' hc').mem
    -- the folder that was built changes places with those that were to come before it
    have hperm := result_inTurn_perm hleft hkeeps hcommutes hs.during.grown
    rw [inTurn_cons, result_andThen, ← hdisk] at hperm
    obtain ⟨htotals, hdisk'⟩ := Prod.mk.inj hperm
    rw [outcome, outcome, htotals, hdisk', hgathered, Totals.add_assoc]

/-! ## Whole schedules -/

theorem left_initial (config : Config) (d₀ : Disk) (root : Path) :
    (State.initial config root d₀).task.left d₀
      = if d₀.isFolder root then visitedFolders d₀ root else [] := rfl

theorem onTheWay_initial (hd₀ : d₀.WellFormed) : OnTheWay d₀ root (.initial config root d₀) := by
  refine ⟨.start d₀ root, fun c hc => ?_, fun u hu p hp hnew => ?_⟩
  · rw [left_initial] at hc
    cases hroot : d₀.isFolder root with
    | true =>
      rw [hroot, if_pos rfl] at hc
      exact .of_isFolder hd₀ hroot hc
    | false =>
      rw [hroot, if_neg Bool.false_ne_true] at hc
      cases hc
  · rw [List.mem_singleton.1 hu] at hp
    obtain rfl := Option.some.inj hp
    exact .of_root hd₀ hnew

theorem outcome_initial (hd₀ : d₀.WellFormed) : outcome config output d₀ (.initial config root d₀)
    = ((buildTree config output root d₀).totals, (buildTree config output root d₀).disk) := by
  rw [outcome, left_initial, show (State.initial config root d₀).task.gathered = {} from rfl, Totals.zero_add]
  cases hroot : d₀.isFolder root with
  | true => rfl
  | false =>
    -- a tree build of what is no folder visits it all the same, and finds nothing
    have hlate : Late d₀ root root := .of_root hd₀ hroot
    have hvisited : visitedFolders d₀ root = [root] := visitedFolders_eq_singleton hroot
    have hresult := hlate.result_buildFolder config output hd₀ (.start d₀ root)
    obtain ⟨htotals, hdisk⟩ := Prod.mk.inj hresult
    rw [buildTree, hvisited]
    show ({}, d₀) = ((buildFolder config output root d₀).totals + {},
      (buildFolder config output root d₀).disk)
    rw [htotals, hdisk]
    rfl

theorem onTheWay_of_reachable (hd₀ : d₀.WellFormed) {s : State}
    (h : Reachable config output (.initial config root d₀) s) : OnTheWay d₀ root s := by
  induction h with
  | refl => exact onTheWay_initial hd₀
  | step _ hstep ih => exact onTheWay_step hd₀ hstep ih

theorem outcome_of_reachable (hd₀ : d₀.WellFormed) (houtput : Unobstructed config output d₀ root)
    {s : State} (h : Reachable config output (.initial config root d₀) s) : outcome config output d₀ s
      = ((buildTree config output root d₀).totals, (buildTree config output root d₀).disk) := by
  induction h with
  | refl => exact outcome_initial hd₀
  | step hreach hstep ih =>
    rw [outcome_step hd₀ houtput hstep (onTheWay_of_reachable hd₀ hreach), ih]

/-- **All schedules come to the same end**: one that comes to its end leaves the totals and the disk
that the build of one folder after the other leaves. -/
theorem end_of_reachable (hd₀ : d₀.WellFormed) (houtput : Unobstructed config output d₀ root)
    {s : State} (h : Reachable config output (.initial config root d₀) s) {totals : Totals}
    (hfinished : s.task = .finished totals) :
    totals = (buildTree config output root d₀).totals
      ∧ s.disk = (buildTree config output root d₀).disk := by
  have houtcome := outcome_of_reachable hd₀ houtput h
  rw [outcome, hfinished] at houtcome
  exact Prod.mk.inj houtcome

theorem result_of_reachable (hd₀ : d₀.WellFormed) (houtput : KeptApart output d₀ root) {s : State}
    (h : Reachable config output (.initial config root d₀) s) {totals : Totals}
    (hfinished : s.task = .finished totals) :
    totals = (buildTree config output root d₀).totals
      ∧ s.disk = (buildTree config output root d₀).disk :=
  end_of_reachable hd₀ (.inr houtput) h hfinished

/-! ## Schedules as runs -/

/-- **A schedule has built some of the folders**, one after the other, and the others are left. -/
theorem exists_run_of_reachable (hd₀ : d₀.WellFormed) {s : State}
    (h : Reachable config output (.initial config root d₀) s) :
    ∃ built, (built ++ s.task.left d₀).Perm ((State.initial config root d₀).task.left d₀)
      ∧ (s.task.gathered, s.disk) = (inTurn (buildFolder config output) built d₀).result := by
  induction h with
  | refl => exact ⟨[], .refl _, rfl⟩
  | @step s t hreach hstep ih =>
    obtain ⟨built, hperm, hrun⟩ := ih
    rcases account_step hd₀ hstep (onTheWay_of_reachable hd₀ hreach) with
      ⟨hdisk, hleft, hgathered⟩ | ⟨p, -, hdisk, hleft, hgathered⟩
    · exact ⟨built, by rwa [hleft], by rw [hgathered, hdisk, hrun]⟩
    · refine ⟨built ++ [p], ?_, ?_⟩
      · rw [List.append_assoc]
        exact (hleft.symm.append_left built).trans hperm
      · obtain ⟨htotals, hend⟩ := Prod.mk.inj hrun
        rw [result_inTurn_append, result_andThen, ← htotals, ← hend, hgathered, hdisk]
        show _ = (_ + ((buildFolder config output p s.disk).totals + {}), _)
        rw [Totals.add_comm _ {}, Totals.zero_add]
        rfl

/-- **A schedule that comes to its end has built the folders to be visited in some order.** -/
theorem exists_order_of_reachable (hd₀ : d₀.WellFormed) {s : State}
    (h : Reachable config output (.initial config root d₀) s) {totals : Totals}
    (hfinished : s.task = .finished totals) : ∃ order, order.Perm (visitedFolders d₀ root)
      ∧ (totals, s.disk) = (inTurn (buildFolder config output) order d₀).result := by
  obtain ⟨built, hperm, hrun⟩ := exists_run_of_reachable hd₀ h
  rw [hfinished, Task.left, List.append_nil, left_initial] at hperm
  rw [hfinished] at hrun
  cases hroot : d₀.isFolder root with
  | true =>
    rw [hroot, if_pos rfl] at hperm
    exact ⟨built, hperm, hrun⟩
  | false =>
    -- nothing is left to be built, and visiting what is no folder comes to nothing, too
    rw [hroot, if_neg Bool.false_ne_true] at hperm
    rw [hperm.eq_nil] at hrun
    have hinitial := @outcome_initial config output d₀ root hd₀
    rw [outcome, left_initial, hroot, if_neg Bool.false_ne_true] at hinitial
    exact ⟨visitedFolders d₀ root, .refl _, hrun.trans hinitial⟩

end MessageCompiler.Build.Schedule
