import MessageCompiler.Proofs.Command.Verbosity

/-!
# The command line overrides the settings

A build finds its settings, checks them as they stand, and then lets the command line have its say. What
the command line says takes the place of what the settings say, so a run does not depend on a value that
is overridden, with one exception: a bound of no folder at all is refused by the check of the settings,
before the command line is asked.

* **`agreeOnRest_iff`**: settings that agree on the rest come to the same configuration.
* **`check_congr`**: which of the checks a value that is overridden can fail.
* **`overridden_idle`**: an overridden value has no effect, unless it is a bound of no folder.
-/

namespace MessageCompiler.Command

open Log

variable {o : BuildOptions} {s s' : Settings}

/-- The settings agree on all that the command line leaves to them. -/
structure AgreeOnRest (o : BuildOptions) (s s' : Settings) : Prop where
  runtime : s'.runtime = s.runtime
  csharp : o.csharp = none → s'.compiler.targets.csharp = s.compiler.targets.csharp
  python : o.python = none → s'.compiler.targets.python = s.compiler.targets.python
  verbose : o.verbose = false → s'.compiler.verbose = s.compiler.verbose
  cap : o.cap = none → s'.compiler.cap = s.compiler.cap

/-! ## What the command line says -/

theorem getD_eq_getD_iff {choice : Option Bool} {b b' : Bool} :
    choice.getD b' = choice.getD b ↔ (choice = none → b' = b) := by
  cases choice <;> simp

theorem or_eq_or_iff {given cap cap' : Option Nat} :
    given.or cap' = given.or cap ↔ (given = none → cap' = cap) := by
  cases given <;> simp

/-- **Settings agree on the rest exactly if they come to the same configuration** with the command line,
and run the program in the same way. -/
theorem agreeOnRest_iff : AgreeOnRest o s s'
    ↔ s'.runtime = s.runtime ∧ o.apply s'.compiler = o.apply s.compiler := by
  have happly : o.apply s'.compiler = o.apply s.compiler
      ↔ o.csharp.getD s'.compiler.targets.csharp = o.csharp.getD s.compiler.targets.csharp
        ∧ o.python.getD s'.compiler.targets.python = o.python.getD s.compiler.targets.python
        ∧ (o.verbose || s'.compiler.verbose) = (o.verbose || s.compiler.verbose)
        ∧ o.cap.or s'.compiler.cap = o.cap.or s.compiler.cap := by
    simp only [BuildOptions.apply, Config.mk.injEq, Targets.mk.injEq, and_assoc]
  have hverbose : (o.verbose || s'.compiler.verbose) = (o.verbose || s.compiler.verbose)
      ↔ (o.verbose = false → s'.compiler.verbose = s.compiler.verbose) := by
    cases o.verbose <;> simp
  rw [happly, getD_eq_getD_iff, getD_eq_getD_iff, hverbose, or_eq_or_iff]
  exact ⟨fun h => ⟨h.runtime, h.csharp, h.python, h.verbose, h.cap⟩,
    fun ⟨hruntime, hcsharp, hpython, hverbose, hcap⟩ => ⟨hruntime, hcsharp, hpython, hverbose, hcap⟩⟩

theorem AgreeOnRest.symm (h : AgreeOnRest o s s') : AgreeOnRest o s' s := by
  obtain ⟨hruntime, happly⟩ := agreeOnRest_iff.1 h
  exact agreeOnRest_iff.2 ⟨hruntime.symm, happly.symm⟩

/-! ## What is checked -/

/-- **The settings are checked as they stand**: of all that the command line may override only a bound of
no folder is refused. -/
theorem check_congr (hruntime : s'.runtime = s.runtime)
    (hcap : s.compiler.cap = some 0 ↔ s'.compiler.cap = some 0) : s'.check = s.check := by
  have hlevel : s'.logLevel = s.logLevel := by rw [Settings.logLevel, Settings.logLevel, hruntime]
  have hcheck : s'.compiler.check = s.compiler.check := by
    rw [Config.check, Config.check]
    by_cases hzero : s.compiler.cap = some 0
    · rw [if_pos hzero, if_pos (hcap.1 hzero)]
    · rw [if_neg hzero, if_neg fun h => hzero (hcap.2 h)]
  rw [Settings.check, Settings.check, hcheck, hlevel, hruntime]

/-- Why settings with a bound of no folder are refused. -/
def noFolders : Settings.Problem :=
  .compiler (.invalidConfig "max_concurrent_subtrees must be greater than zero".toList)

theorem check_eq_noFolders (hzero : s.compiler.cap = some 0) : s.check = .error noFolders := by
  have hcheck : s.compiler.check
      = .error (.invalidConfig "max_concurrent_subtrees must be greater than zero".toList) :=
    if_pos hzero
  rw [Settings.check, hcheck]
  rfl

/-! ## Runs -/

/-- Carries out a build whose settings are found. -/
def runFound (s : Settings) (o : BuildOptions) (disk : Disk) : Run :=
  match s.check, s.logLevel, Build.admission (o.apply s.compiler) with
  | .error problem, _, _ => .without disk (.refused problem.chain)
  | .ok (), .error problem, _ => .without disk (.refused problem.chain)
  | .ok (), .ok _, .refused failure =>
    .without disk (.refused ("Invalid build configuration".toList :: failure.chain))
  | .ok (), .ok _, .uncountable => .without disk .aborted
  | .ok (), .ok level, .granted =>
    runBuildWith (o.apply s.compiler) (buildFilter (o.apply s.compiler) level) o disk

/-- **A build finds its settings, and then goes by what they say.** -/
theorem runBuild_eq_runFound {disk : Disk}
    (hfind : Settings.find o.settings disk.folderPath disk = .ok s) :
    runBuild o disk = runFound s o disk := by
  rw [runBuild, Settings.load, hfind, runFound]
  dsimp only
  cases s.check with
  | error problem => rfl
  | ok _ =>
    dsimp only
    cases s.logLevel with
    | error problem => rfl
    | ok level =>
      dsimp only
      cases Build.admission (o.apply s.compiler) <;> rfl

/-- **A run goes by the settings only through what the command line leaves to them**, if their check
does not tell them apart. -/
theorem runFound_congr (h : AgreeOnRest o s s')
    (hcap : s.compiler.cap = some 0 ↔ s'.compiler.cap = some 0) (disk : Disk) :
    runFound s' o disk = runFound s o disk := by
  obtain ⟨hruntime, happly⟩ := agreeOnRest_iff.1 h
  have hlevel : s'.logLevel = s.logLevel := by rw [Settings.logLevel, Settings.logLevel, hruntime]
  rw [runFound, runFound, check_congr hruntime hcap, hlevel, happly]

theorem runFound_eq_refused (hzero : s.compiler.cap = some 0) (o : BuildOptions) (disk : Disk) :
    runFound s o disk = .without disk (.refused noFolders.chain) := by
  rw [runFound, check_eq_noFolders hzero]

/-! ## Schedules -/

/-- What a run may come to, by some schedule of the tasks of its folders. -/
def MayEnd (o : BuildOptions) (disk : Disk) (run : Run) : Prop :=
  ∃ config filter build, Admitted o disk config filter ∧ MayBuild config o disk build
    ∧ run = ended filter o build

section Schedules

variable {file file' : Option Path} {disk : Disk} {config : Config} {filter : Level}

theorem admitted_of_agreeOnRest (hfind : Settings.find file disk.folderPath disk = .ok s)
    (hfind' : Settings.find file' disk.folderPath disk = .ok s') (h : AgreeOnRest o s s')
    (hcap : s.compiler.cap = some 0 ↔ s'.compiler.cap = some 0)
    (hadmitted : Admitted { o with settings := file } disk config filter) :
    Admitted { o with settings := file' } disk config filter := by
  obtain ⟨hruntime, happly⟩ := agreeOnRest_iff.1 h
  have hcheck := check_congr hruntime hcap
  have hlogLevel : s'.logLevel = s.logLevel := by rw [Settings.logLevel, Settings.logLevel, hruntime]
  obtain ⟨⟨settings, level, hload, hlevel, hconfig, hfilter⟩, hpermits⟩ := hadmitted
  -- the settings that were loaded are those that were found and checked
  change Settings.load file disk.folderPath disk = .ok settings at hload
  rw [Settings.load, hfind] at hload
  dsimp only at hload
  split at hload
  · cases hload
  · next hok =>
    obtain rfl := Except.ok.inj hload
    have hload' : Settings.load file' disk.folderPath disk = .ok s' := by
      rw [Settings.load, hfind']
      dsimp only
      rw [hcheck, hok]
    exact ⟨⟨s', level, hload', hlogLevel.trans hlevel, hconfig.trans happly.symm, hfilter⟩, hpermits⟩

theorem MayEnd.of_agreeOnRest (hfind : Settings.find file disk.folderPath disk = .ok s)
    (hfind' : Settings.find file' disk.folderPath disk = .ok s') (h : AgreeOnRest o s s')
    (hcap : s.compiler.cap = some 0 ↔ s'.compiler.cap = some 0) {run : Run}
    (hend : MayEnd { o with settings := file } disk run) :
    MayEnd { o with settings := file' } disk run := by
  obtain ⟨config, filter, build, hadmitted, hbuild, rfl⟩ := hend
  refine ⟨config, filter, build, admitted_of_agreeOnRest hfind hfind' h hcap hadmitted, ?_, rfl⟩
  cases hbuild with
  | direct hdirect => exact .direct hdirect
  | tree hfile hrecursive hlogged hfinished => exact .tree hfile hrecursive hlogged hfinished

end Schedules

/-- **An overridden value has no effect**, unless it is a bound of no folder. Two runs that differ in
their settings file only, whose settings agree on all that the command line leaves to them, print the
same, end in the same way, with the same error or exit code, and leave the same disk; and the ends that
schedules come to are the same. If just one of the files asks for a bound of no folder, its run is
refused, whatever the command line says. -/
theorem overridden_idle (o : BuildOptions) (file file' : Option Path) (disk : Disk) {s s' : Settings}
    (hfind : Settings.find file disk.folderPath disk = .ok s)
    (hfind' : Settings.find file' disk.folderPath disk = .ok s') (h : AgreeOnRest o s s') :
    ((s.compiler.cap = some 0 ↔ s'.compiler.cap = some 0) →
        runBuild { o with settings := file' } disk = runBuild { o with settings := file } disk
          ∧ ∀ run, MayEnd { o with settings := file' } disk run
            ↔ MayEnd { o with settings := file } disk run)
      ∧ (s.compiler.cap = some 0 → runBuild { o with settings := file } disk
        = .without disk (.refused ["Invalid [compiler] section".toList,
            "invalid configuration: max_concurrent_subtrees must be greater than zero".toList])) := by
  have hrun {f : Option Path} {settings : Settings}
      (hfound : Settings.find f disk.folderPath disk = .ok settings) :
      runBuild { o with settings := f } disk = runFound settings o disk :=
    runBuild_eq_runFound hfound
  refine ⟨fun hcap => ⟨?_, fun run => ?_⟩, fun hzero => ?_⟩
  · rw [hrun hfind, hrun hfind', runFound_congr h hcap]
  · exact ⟨MayEnd.of_agreeOnRest hfind' hfind h.symm hcap.symm,
      MayEnd.of_agreeOnRest hfind hfind' h hcap⟩
  · rw [hrun hfind, runFound_eq_refused hzero]
    rfl

/-! ## Two settings files -/

section Examples

/-- A folder with a definition and three settings files. One asks for C# only and for one folder at a
time, one for Python only and for any number of folders, and one for no folder. -/
def threeSettings : Disk where
  root := .folder [(Path.ofText "A.msg".toList, .file (Path.ofText "int x".toList)),
    (Path.ofText "all.toml".toList, .file (Path.ofText "compiler.targets = [false, true]".toList)),
    (Path.ofText "none.toml".toList,
      .file (Path.ofText "compiler.max_concurrent_subtrees = 0".toList)),
    (Path.ofText "one.toml".toList,
      .file (Path.ofText "compiler.max_concurrent_subtrees = 1".toList))]
  folder := []

/-- The words of a build with a settings file, which says itself which targets are generated and how
many folders may be at work. -/
def overridingWords (file : String) : List Text :=
  ["msg", "build", "--csharp", "--python", "--max-concurrent", "2", "--config", file].map String.toList

/-- What these words ask for. -/
def overridingBuild (file : String) : BuildOptions :=
  ⟨Path.here, none, some (Path.ofText file.toList), none, some true, some true, false, some 2⟩

/-- The targets and the bound in the settings have no effect. -/
theorem overridden_idle_targets :
    ofWords (overridingWords "one.toml") = .ok (.build (overridingBuild "one.toml"))
      ∧ ofWords (overridingWords "all.toml") = .ok (.build (overridingBuild "all.toml"))
      ∧ runBuild (overridingBuild "all.toml") threeSettings
        = runBuild (overridingBuild "one.toml") threeSettings := by
  have hone : Settings.find (some (Path.ofText "one.toml".toList)) threeSettings.folderPath threeSettings
      = .ok { compiler := { cap := some 1 } } := by decide +kernel
  have hall : Settings.find (some (Path.ofText "all.toml".toList)) threeSettings.folderPath threeSettings
      = .ok { compiler := { targets := { csharp := false, python := true } } } := by decide +kernel
  have hagree : AgreeOnRest (overridingBuild "one.toml") { compiler := { cap := some 1 } }
      { compiler := { targets := { csharp := false, python := true } } } :=
    agreeOnRest_iff.2 ⟨rfl, rfl⟩
  refine ⟨by decide +kernel, by decide +kernel, ?_⟩
  exact ((overridden_idle (overridingBuild "one.toml") _ _ threeSettings hone hall hagree).1
    (by decide)).1

/-- **A bound of no folder is refused although it is overridden**: of two runs whose settings differ in
nothing else one is refused, and the other builds. -/
theorem refuses_overridden :
    Settings.find (overridingBuild "one.toml").settings threeSettings.folderPath threeSettings
        = .ok { compiler := { cap := some 1 } }
      ∧ Settings.find (overridingBuild "none.toml").settings threeSettings.folderPath threeSettings
        = .ok { compiler := { cap := some 0 } }
      ∧ AgreeOnRest (overridingBuild "one.toml") { compiler := { cap := some 1 } }
        { compiler := { cap := some 0 } }
      ∧ (runBuild (overridingBuild "one.toml") threeSettings).result = .done true
      ∧ (runBuild (overridingBuild "none.toml") threeSettings).result
        = .refused ["Invalid [compiler] section".toList,
            "invalid configuration: max_concurrent_subtrees must be greater than zero".toList] := by
  refine ⟨by decide +kernel, by decide +kernel, agreeOnRest_iff.2 ⟨rfl, rfl⟩, by decide +kernel,
    by decide +kernel⟩

end Examples

end MessageCompiler.Command
