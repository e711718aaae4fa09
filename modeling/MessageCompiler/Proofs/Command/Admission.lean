import MessageCompiler.Command.Run
import Mathlib.Data.List.Basic

/-!
# Which bounds a build can be run with

The bound on the folders at work comes from the settings or from the command line, and is checked more
than once: the settings are checked as they stand, and what they and the command line come to is checked
before the build begins. All of these checks refuse a bound of no folder, and none of them asks whether
the permits can be counted.

* **`Settings.lt_limit_of_find`**, **`Command.lt_limit_of_ofWords`**: a bound has 64 bits, wherever it
  comes from.
* **`Settings.check_eq_ok_iff`**: which settings are accepted.
* **`Build.admission_eq`**: what a configuration is admitted or refused for.
* **`Command.accepted_admission`**: what accepted settings and a command line that is read come to.
-/

namespace MessageCompiler

theorem Count.lt_limit_of_ofText? {word : Text} {n : Nat} (h : ofText? word = some n) : n < limit := by
  unfold ofText? at h
  simp only [Option.ite_none_right_eq_some, Bool.and_eq_true, decide_eq_true_eq,
    Option.some.injEq] at h
  exact h.2 ▸ h.1.2

namespace Settings

/-! ## Counts in settings -/

theorem lt_limit_of_count? {v : Option Toml.Value} {n : Nat} (h : count? v = some (some n)) :
    n < Count.limit := by
  unfold count? at h
  split at h
  · cases h
  · split at h
    · next k hfits =>
      obtain rfl := Option.some.inj (Option.some.inj h)
      simp only [Bool.and_eq_true, decide_eq_true_eq] at hfits
      omega
    · cases h
  · cases h

theorem lt_limit_of_compiler? {v : Option Toml.Value} {config : Config}
    (h : compiler? v = some config) {n : Nat} (hcap : config.cap = some n) : n < Count.limit := by
  unfold compiler? at h
  split at h
  · obtain rfl := Option.some.inj h
    cases hcap
  · obtain ⟨fields, -, h⟩ := Option.bind_eq_some_iff.1 h
    split at h
    · obtain ⟨targets, -, h⟩ := Option.bind_eq_some_iff.1 h
      obtain ⟨verbose, -, h⟩ := Option.bind_eq_some_iff.1 h
      obtain ⟨cap, hcount, h⟩ := Option.bind_eq_some_iff.1 h
      obtain rfl := Option.some.inj h
      exact lt_limit_of_count? (hcount.trans (congrArg some hcap))
    · cases h

theorem lt_limit_of_ofText {t : Text} {s : Settings} (h : ofText t = .ok s) {n : Nat}
    (hcap : s.compiler.cap = some n) : n < Count.limit := by
  unfold ofText at h
  dsimp only at h
  split at h
  · next settings hread =>
    obtain rfl := Except.ok.inj h
    obtain ⟨document, -, hread⟩ := Option.bind_eq_some_iff.1 hread
    obtain ⟨fields, -, hread⟩ := Option.bind_eq_some_iff.1 hread
    split at hread
    · obtain ⟨config, hconfig, hread⟩ := Option.bind_eq_some_iff.1 hread
      obtain ⟨runtime, -, hread⟩ := Option.bind_eq_some_iff.1 hread
      obtain rfl := Option.some.inj hread
      exact lt_limit_of_compiler? hconfig hcap
    · cases hread
  · cases h

theorem lt_limit_of_find {explicit : Option Path} {folder : Path} {disk : Disk} {s : Settings}
    (h : find explicit folder disk = .ok s) {n : Nat} (hcap : s.compiler.cap = some n) :
    n < Count.limit := by
  have hfile {path : Path} (h : ofFile path disk = .ok s) : n < Count.limit := by
    unfold ofFile at h
    split at h
    · exact lt_limit_of_ofText h hcap
    · cases h
  unfold find at h
  split at h
  · exact hfile h
  · dsimp only at h
    split at h
    · exact hfile h
    · obtain rfl := Except.ok.inj h
      cases hcap

/-! ## Accepted settings -/

/-- **Settings that pass their check** bound the folders at work by no folder in no case, and name a log
level if they name one. -/
theorem check_eq_ok_iff {s : Settings} : s.check = .ok ()
    ↔ s.compiler.cap ≠ some 0 ∧ s.runtime.workerThreads ≠ some 0 ∧ ∃ level, s.logLevel = .ok level := by
  have hcompiler : s.compiler.check = if s.compiler.cap = some 0 then
      .error (.invalidConfig "max_concurrent_subtrees must be greater than zero".toList)
    else .ok () := rfl
  unfold check
  rw [hcompiler]
  by_cases hcap : s.compiler.cap = some 0
  · simp [hcap]
  by_cases hthreads : s.runtime.workerThreads = some 0
  · simp [hcap, hthreads]
  cases hlevel : s.logLevel <;> simp [hcap, hthreads]

theorem load_eq_ok_iff {explicit : Option Path} {folder : Path} {disk : Disk} {s : Settings} :
    load explicit folder disk = .ok s ↔ find explicit folder disk = .ok s ∧ s.check = .ok () := by
  unfold load
  cases find explicit folder disk with
  | error problem => simp
  | ok found =>
    dsimp only
    constructor
    · intro h
      split at h
      · cases h
      · next hcheck =>
        obtain rfl := Except.ok.inj h
        exact ⟨rfl, hcheck⟩
    · rintro ⟨hfound, hcheck⟩
      obtain rfl := Except.ok.inj hfound
      rw [hcheck]

end Settings

namespace Build

/-! ## Admission -/

/-- Why a configuration with a bound of no folder is refused. -/
def refusedBound : Failure :=
  .config (.invalidConfig "max_concurrent_subtrees must be greater than zero".toList)

theorem admission_eq (config : Config) : admission config =
    if config.cap = some 0 then .refused refusedBound
    else if maxPermits < config.cap.getD 0 then .uncountable else .granted := by
  unfold admission Config.check
  by_cases hcap : config.cap = some 0
  · rw [if_pos hcap, if_pos hcap]
    rfl
  · rw [if_neg hcap, if_neg hcap]

variable {config : Config}

theorem admission_eq_refused_iff : admission config = .refused refusedBound ↔ config.cap = some 0 := by
  rw [admission_eq]
  split
  · next hcap => exact iff_of_true rfl hcap
  · next hcap => split <;> exact iff_of_false (fun h => by cases h) hcap

theorem admission_eq_uncountable_iff :
    admission config = .uncountable ↔ ∃ n, config.cap = some n ∧ maxPermits < n := by
  rw [admission_eq]
  cases config.cap with
  | none => simp
  | some n =>
    by_cases hzero : n = 0
    · simp [hzero]
    · simp [hzero]

theorem admission_eq_granted_iff :
    admission config = .granted ↔ ∀ n, config.cap = some n → 1 ≤ n ∧ n ≤ maxPermits := by
  rw [admission_eq]
  cases config.cap with
  | none => simp
  | some n =>
    by_cases hzero : n = 0
    · simp [hzero]
    · simp [hzero, Nat.one_le_iff_ne_zero]

end Build

namespace Command

/-! ## Command lines -/

theorem BuildOptions.lt_limit_of_ofGiven {given : List Given} {n : Nat}
    (h : (ofGiven given).cap = some n) : n < Count.limit := by
  obtain ⟨word, -, hword⟩ := Option.bind_eq_some_iff.1 h
  exact Count.lt_limit_of_ofText? hword

theorem lt_limit_of_ofWords {words : List Text} {o : BuildOptions}
    (h : Command.ofWords words = .ok (.build o)) {n : Nat} (hcap : o.cap = some n) :
    n < Count.limit := by
  unfold Command.ofWords at h
  split at h
  · cases h
  split at h
  · cases h
  split at h
  · -- only a build has such options, and its words are read by its own grammar
    next rest _ _ =>
    rw [BuildOptions.ofWords] at h
    cases hread : buildGrammar.read rest with
    | error usage =>
      rw [hread] at h
      cases h
    | ok given =>
      rw [hread] at h
      cases h
      exact BuildOptions.lt_limit_of_ofGiven hcap
  · next rest _ _ =>
    cases hread : CheckOptions.ofWords rest <;> (rw [hread] at h; cases h)

/-! ## Builds with accepted settings -/

/-- **How a build ends whose settings are accepted** is for its admission to say. -/
theorem runBuild_of_load {o : BuildOptions} {disk : Disk} {s : Settings}
    (hload : Settings.load o.settings disk.folderPath disk = .ok s) :
    match Build.admission (o.apply s.compiler) with
    | .granted => ∃ good, (runBuild o disk).result = .done good
    | .refused failure => runBuild o disk
      = .without disk (.refused ("Invalid build configuration".toList :: failure.chain))
    | .uncountable => runBuild o disk = .without disk .aborted := by
  obtain ⟨-, -, -, level, hlevel⟩ :=
    (Settings.load_eq_ok_iff.1 hload).imp_right Settings.check_eq_ok_iff.1
  unfold runBuild
  rw [hload]
  dsimp only
  rw [hlevel]
  dsimp only
  cases Build.admission (o.apply s.compiler) with
  | granted => exact ⟨_, rfl⟩
  | refused failure => rfl
  | uncountable => rfl

theorem result_runBuild_eq_aborted_iff {o : BuildOptions} {disk : Disk} {s : Settings}
    (hload : Settings.load o.settings disk.folderPath disk = .ok s) :
    (runBuild o disk).result = .aborted ↔ Build.admission (o.apply s.compiler) = .uncountable := by
  have hrun := runBuild_of_load hload
  cases hadmission : Build.admission (o.apply s.compiler) with
  | granted =>
    rw [hadmission] at hrun
    obtain ⟨good, hgood⟩ := hrun
    simp [hgood]
  | refused failure =>
    rw [hadmission] at hrun
    simp [hrun, Run.without]
  | uncountable =>
    rw [hadmission] at hrun
    simp [hrun, Run.without]

/-- **Accepted settings and a command line that is read** come to a log level and to a bound of 64 bits,
if to any. The configuration is refused exactly if that is a bound of no folder, which only the command
line can have asked for, and the build may begin exactly if the bound is one that permits can be counted
for. Any other bound ends the program, wherever the build finds these settings. -/
theorem accepted_admission {explicit : Option Path} {folder : Path} {disk : Disk} {s : Settings}
    (hload : Settings.load explicit folder disk = .ok s) {words : List Text} {o : BuildOptions}
    (hwords : Command.ofWords words = .ok (.build o)) :
    let config := o.apply s.compiler
    (∃ level, s.logLevel = .ok level)
      ∧ (∀ n, config.cap = some n → n < Count.limit)
      ∧ (Build.admission config = .refused Build.refusedBound ↔ config.cap = some 0)
      ∧ (config.cap = some 0 ↔ o.cap = some 0)
      ∧ (Build.admission config = .granted
        ↔ ∀ n, config.cap = some n → 1 ≤ n ∧ n ≤ Build.maxPermits)
      ∧ (Build.admission config = .uncountable
        ↔ ∃ n, config.cap = some n ∧ Build.maxPermits < n)
      ∧ ∀ d, Settings.load o.settings d.folderPath d = .ok s →
        ((runBuild o d).result = .aborted ↔ ∃ n, config.cap = some n ∧ Build.maxPermits < n) := by
  intro config
  obtain ⟨hfind, hcheck⟩ := Settings.load_eq_ok_iff.1 hload
  obtain ⟨hzero, -, hlevel⟩ := Settings.check_eq_ok_iff.1 hcheck
  have hcap : config.cap = o.cap.or s.compiler.cap := rfl
  refine ⟨hlevel, fun n hn => ?_, Build.admission_eq_refused_iff, ?_, Build.admission_eq_granted_iff,
    Build.admission_eq_uncountable_iff, fun d hd =>
      (result_runBuild_eq_aborted_iff hd).trans Build.admission_eq_uncountable_iff⟩
  · rw [hcap, Option.or_eq_some_iff] at hn
    rcases hn with hgiven | ⟨-, hsettings⟩
    · exact lt_limit_of_ofWords hwords hgiven
    · exact Settings.lt_limit_of_find hfind hsettings
  · rw [hcap, Option.or_eq_some_iff]
    exact ⟨fun h => h.resolve_right fun hsettings => hzero hsettings.2, .inl⟩

/-- A definition, and settings with a bound. -/
def settingsWithBound (bound : String) : Disk where
  root := .folder [
    (Path.ofText "A.msg".toList, .file (Path.ofText "int x".toList)),
    (Path.ofText "rant.toml".toList,
      .file (Path.ofText ("compiler.max_concurrent_subtrees = " ++ bound).toList))]
  folder := []

/-- What a build is asked for by no more words than a bound, if even that is given. -/
def buildWithBound (bound : Option Nat) : BuildOptions :=
  ⟨Path.here, none, none, none, none, none, false, bound⟩

/-- A build may begin with the largest bound that there are permits for, unless the command line asks for
one more folder, or for none. -/
theorem accepted_admission_largest :
    let disk := settingsWithBound "2305843009213693951"
    let config : Config := { cap := some 2305843009213693951 }
    Settings.load none disk.folderPath disk = .ok { compiler := config }
      ∧ Build.admission ((buildWithBound none).apply config) = .granted
      ∧ Build.admission ((buildWithBound (some 2305843009213693952)).apply config) = .uncountable
      ∧ Build.admission ((buildWithBound (some 0)).apply config) = .refused Build.refusedBound := by
  intro disk config
  have hload : Settings.load none disk.folderPath disk = .ok { compiler := config } := by
    decide +kernel
  have hwords (bound : Option Nat) (words : List String)
      (h : Command.ofWords (words.map String.toList) = .ok (.build (buildWithBound bound))) :=
    accepted_admission hload h
  obtain ⟨-, -, -, -, hgranted, -⟩ := hwords none ["msg", "build"] (by decide +kernel)
  obtain ⟨-, -, -, -, -, huncountable, -⟩ := hwords (some 2305843009213693952)
    ["msg", "build", "--max-concurrent", "2305843009213693952"] (by decide +kernel)
  obtain ⟨-, -, hrefused, hzero, -⟩ := hwords (some 0)
    ["msg", "build", "--max-concurrent=0"] (by decide +kernel)
  refine ⟨hload, hgranted.2 ?_, huncountable.2 ⟨_, rfl, by decide⟩, hrefused.2 (hzero.2 rfl)⟩
  rintro n ⟨⟩
  exact ⟨by decide, Nat.le_refl _⟩

/-- **A bound that all checks accept can end the program**, before anything is printed or built. -/
theorem exists_uncountable :
    let disk := settingsWithBound "2305843009213693952"
    let settings : Settings := { compiler := { cap := some 2305843009213693952 } }
    Settings.load none disk.folderPath disk = .ok settings
      ∧ Command.ofWords (["msg", "build"].map String.toList) = .ok (.build (buildWithBound none))
      ∧ ((buildWithBound none).apply settings.compiler).check = .ok ()
      ∧ Build.admission ((buildWithBound none).apply settings.compiler) = .uncountable
      ∧ (runBuild (buildWithBound none) disk).result = .aborted := by
  decide +kernel

end Command

end MessageCompiler
