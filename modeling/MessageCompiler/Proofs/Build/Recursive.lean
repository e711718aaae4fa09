import MessageCompiler.Proofs.Build.Confluence

/-!
# Recursive builds

What is true of a recursive build under every schedule: it can go on until the whole tree is built,
it keeps to the bound on folders at work, nobody holds a permit while others are joined, and on a
disk without links it comes to one end. With links the last part fails: two folders may deliver to
one place, and then the later one wins.

* **`recursive_build`**: the four properties of every state that a schedule leads to.
* **`exists_finished_ne`**: a tree with a link to an output folder, and two schedules that end with
  different files.
-/

namespace MessageCompiler.Build.Schedule

variable {config : Config} {output : Option Path}

/-- **Recursive builds under any schedule.** Whatever the tree and the bound are, no schedule comes to
a halt before the task of the first folder has come to its end, no more folders compile than the bound
allows, and a task that joins others holds no permit. If the disk has no links, and the output is the
default or no two messages that are compiled have the same name, then every schedule that comes to its
end leaves the totals and the disk that the build of one folder after the other leaves. -/
theorem recursive_build (config : Config) (hcap : config.cap ≠ some 0) (output : Option Path)
    (folder : Path) (disk : Disk) (s : State)
    (h : Reachable config output (.initial config folder disk) s) :
    (s.task.isFinished = false → ∃ t, Step config output s t)
      ∧ (∀ n, config.cap = some n → s.task.all.countP Task.isCompiling ≤ n)
      ∧ (∀ t ∈ s.task.all, t.isJoining = true → t.holdsPermit = false)
      ∧ (disk.WellFormed → KeptApart output disk folder → ∀ totals, s.task = .finished totals →
        totals = (buildTree config output folder disk).totals
          ∧ s.disk = (buildTree config output folder disk).disk) :=
  ⟨exists_step_of_reachable hcap h, fun _ hn => countP_isCompiling_le h hn,
    fun _ ht hjoining => holdsPermit_eq_false_of_isJoining h ht hjoining,
    fun hdisk houtput _ hfinished => result_of_reachable hdisk houtput h hfinished⟩

/-! ## Schedules, step by step -/

namespace Reachable

theorem trans {s t u : State} (h : Reachable config output s t) (h' : Reachable config output t u) :
    Reachable config output s u := by
  induction h' with
  | refl => exact h
  | step _ hstep ih => exact ih.step hstep

theorem single {s t : State} (h : Step config output s t) : Reachable config output s t :=
  refl.step h

/-- What a task does on its own it does among other tasks below another one. -/
theorem among {s t : State} {p : Path} (h : Reachable config output s t) (stage : Stage)
    (permit : Bool) (before after : List Task) :
    Reachable config output ⟨s.free, s.disk, .active p stage permit (before ++ s.task :: after)⟩
      ⟨t.free, t.disk, .active p stage permit (before ++ t.task :: after)⟩ := by
  induction h with
  | refl => exact refl
  | step _ hstep ih => exact ih.step (.inner hstep)

variable {n : Nat} {disk : Disk} {p : Path}

/-- A task waits for a permit, builds its own files and gives the permit back. -/
theorem compile (below : List Task) : Reachable config output
    ⟨some (n + 1), disk, .active p .queued false below⟩
    ⟨some (n + 1), (buildFolder config output p disk).disk,
      .active p (.joining (buildFolder config output p disk).totals) false below⟩ :=
  (((single .acquire).step .build).step .release)

/-- While all permits are free, a task can build its own files. -/
theorem turn (hcap : config.cap ≠ some 0) (below : List Task) : Reachable config output
    ⟨config.cap, disk, .active p .queued false below⟩
    ⟨config.cap, (buildFolder config output p disk).disk,
      .active p (.joining (buildFolder config output p disk).totals) false below⟩ := by
  match hfree : config.cap with
  | none => exact ((single .pass).step .build).step .leave
  | some 0 => exact absurd hfree hcap
  | some (n + 1) => exact compile below

theorem alone (hp : messageFolders disk p = []) : Reachable config output
    ⟨some (n + 1), disk, .ready p⟩
    ⟨some (n + 1), (buildFolder config output p disk).disk,
      .finished (buildFolder config output p disk).totals⟩ := by
  have hstart : Step config output ⟨some (n + 1), disk, .ready p⟩
      ⟨some (n + 1), disk, .active p .queued false []⟩ := by
    have h := @Step.start config output (some (n + 1)) disk p
    rwa [hp] at h
  exact ((single hstart).trans (compile [])).step .finish

end Reachable

section OneFolderBelow

variable {n : Nat} {disk : Disk} {p c : Path}

theorem step_start (hp : messageFolders disk p = [c]) : Step config output
    ⟨some (n + 1), disk, .ready p⟩ ⟨some (n + 1), disk, .active p .queued false [.ready c]⟩ := by
  have h := @Step.start config output (some (n + 1)) disk p
  rwa [hp] at h

theorem reachable_outer_first (hp : messageFolders disk p = [c])
    (hc : messageFolders (buildFolder config output p disk).disk c = []) :
    let first := buildFolder config output p disk
    let last := buildFolder config output c first.disk
    Reachable config output ⟨some (n + 1), disk, .ready p⟩
      ⟨some (n + 1), last.disk, .finished (first.totals + last.totals)⟩ :=
  ((((Reachable.single (step_start hp)).trans (.compile [.ready c])).trans
    ((Reachable.alone hc).among _ _ [] [])).step
      (@Step.join _ _ _ _ _ _ _ _ [] [])).step .finish

theorem reachable_inner_first (hp : messageFolders disk p = [c]) (hc : messageFolders disk c = []) :
    let first := buildFolder config output c disk
    let last := buildFolder config output p first.disk
    Reachable config output ⟨some (n + 1), disk, .ready p⟩
      ⟨some (n + 1), last.disk, .finished (last.totals + first.totals)⟩ :=
  ((((Reachable.single (step_start hp)).trans ((Reachable.alone hc).among _ _ [] [])).trans
    (.compile [.finished _])).step (@Step.join _ _ _ _ _ _ _ _ [] [])).step .finish

end OneFolderBelow

/-! ## A tree without links, and one with a link -/

section Examples

/-- A configuration that lets one folder compile at a time. -/
def oneAtATime : Config := { cap := some 1 }

/-- The folder that relative paths start from. -/
def currentFolder : Path := Path.ofText ".".toList

/-- The message folder in it. -/
def messageFolder : Path := Path.ofText "./msg".toList

/-- A folder with a definition, and a message folder in it with a definition of the same name. -/
def twoFolders : Disk where
  root := .folder [(Path.ofText "A.msg".toList, .file []),
    (Path.ofText "msg".toList,
      .folder [(Path.ofText "A.msg".toList, .file (Path.ofText "int x".toList))])]
  folder := []

/-- The message folder may come first: this schedule comes to its end with what the build of one
folder after the other leaves. -/
theorem recursive_build_inner_first :
    let first := buildFolder oneAtATime none messageFolder twoFolders
    let last := buildFolder oneAtATime none currentFolder first.disk
    oneAtATime.cap ≠ some 0
      ∧ Reachable oneAtATime none (.initial oneAtATime currentFolder twoFolders)
        ⟨some 1, last.disk, .finished (last.totals + first.totals)⟩
      ∧ twoFolders.WellFormed ∧ KeptApart none twoFolders currentFolder
      ∧ last.totals + first.totals = (buildTree oneAtATime none currentFolder twoFolders).totals
      ∧ last.disk = (buildTree oneAtATime none currentFolder twoFolders).disk := by
  intro first last
  have hcap : oneAtATime.cap ≠ some 0 := by decide
  have hreachable : Reachable oneAtATime none (.initial oneAtATime currentFolder twoFolders)
      ⟨some 1, last.disk, .finished (last.totals + first.totals)⟩ :=
    reachable_inner_first (by decide) (by decide)
  have hdisk : twoFolders.WellFormed := ⟨by decide, _, rfl⟩
  have houtput : KeptApart none twoFolders currentFolder := .inl rfl
  exact ⟨hcap, hreachable, hdisk, houtput,
    (recursive_build oneAtATime hcap none currentFolder twoFolders _ hreachable).2.2.2 hdisk houtput
      _ rfl⟩

/-- The same two folders, but the output folder of the outer one is a link to that of the inner
one. -/
def linkedOutput : Disk where
  root := .folder [(Path.ofText "A.msg".toList, .file []),
    (Path.ofText "built".toList, .link (Path.ofText "msg/built".toList)),
    (Path.ofText "msg".toList,
      .folder [(Path.ofText "A.msg".toList, .file (Path.ofText "int x".toList)),
        (Path.ofText "built".toList, .folder [])])]
  folder := []

/-- The generated file that both folders deliver. -/
def sharedFile : Path := Path.ofText "msg/built/A.cs".toList

/-- **With links the end depends on the schedule**: two schedules of one build with the default output
that come to their ends and leave a generated file with different contents. -/
theorem exists_finished_ne : ∃ s t totals totals',
    Reachable oneAtATime none (.initial oneAtATime currentFolder linkedOutput) s
      ∧ Reachable oneAtATime none (.initial oneAtATime currentFolder linkedOutput) t
      ∧ s.task = .finished totals ∧ t.task = .finished totals'
      ∧ s.disk.readFile sharedFile ≠ t.disk.readFile sharedFile := by
  have hfolders : messageFolders linkedOutput currentFolder = [messageFolder] := by decide
  have hinner : messageFolders linkedOutput messageFolder = [] := by decide
  have hlater : messageFolders (buildFolder oneAtATime none currentFolder linkedOutput).disk
      messageFolder = [] := by decide +kernel
  refine ⟨_, _, _, _, reachable_outer_first hfolders hlater, reachable_inner_first hfolders hinner,
    rfl, rfl, fun heq => ?_⟩
  exact absurd (congrArg Except.toOption heq) (by decide +kernel)

end Examples

end MessageCompiler.Build.Schedule
