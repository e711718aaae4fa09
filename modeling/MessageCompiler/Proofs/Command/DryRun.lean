import MessageCompiler.Proofs.Command.Verbosity

/-!
# A check is a dry run of a build

A check has a configuration of its own, made of the names of targets, and it reads the definition in
its own way. A build of the same file for the same targets compiles the same text with the same result;
what a check shows is what the build then writes, and they end alike, if nothing is in the way of
writing. What settings and command line say besides, and what the log lets through, does not matter.

* **`Target.ofName_eq`**: which names a target has.
* **`CheckOptions.config?_eq_ok`**, **`CheckOptions.config?_eq_error`**: what languages come to.
* **`Build.buildFile_of_deliver`**: building a file is delivering its source files.
* **`check_build`**: a check and a build of the same file.
-/

namespace MessageCompiler

/-! ## Names of targets -/

namespace Target

/-- The names of a target in lower case. -/
def aliases : Target → List Text
  | .csharp => ["csharp".toList, "cs".toList, "c#".toList]
  | .python => ["python".toList, "py".toList]

/-- Whether a word names the target, in upper case or lower case. -/
def isCalled (t : Target) (word : Text) : Bool := t.aliases.contains (Text.lowerAscii word)

theorem eq_of_isCalled {word : Text} {t t' : Target} (h : t.isCalled word = true)
    (h' : t'.isCalled word = true) : t = t' := by
  have hapart : ∀ name ∈ csharp.aliases, name ∉ python.aliases := by decide
  have hmem : Text.lowerAscii word ∈ t.aliases := List.contains_iff_mem.1 h
  have hmem' : Text.lowerAscii word ∈ t'.aliases := List.contains_iff_mem.1 h'
  cases t <;> cases t'
  · rfl
  · exact absurd hmem' (hapart _ hmem)
  · exact absurd hmem (hapart _ hmem')
  · rfl

theorem ofName_eq (word : Text) : ofName word = if csharp.isCalled word then .ok .csharp
    else if python.isCalled word then .ok .python else .error (.unknownTarget word) := by
  simp only [ofName, isCalled, aliases, List.contains_cons, List.contains_nil, Bool.or_false,
    Bool.or_eq_true, beq_iff_eq, decide_eq_true_eq, or_assoc]

theorem ofName_eq_ok {word : Text} {t : Target} (h : t.isCalled word = true) :
    ofName word = .ok t := by
  rw [ofName_eq]
  split
  · next hcsharp => rw [eq_of_isCalled hcsharp h]
  · next hcsharp =>
    split
    · next hpython => rw [eq_of_isCalled hpython h]
    · next hpython => cases t <;> contradiction

theorem ofName_eq_error {word : Text} (h : ∀ t : Target, t.isCalled word = false) :
    ofName word = .error (.unknownTarget word) := by
  rw [ofName_eq, h, h]
  rfl

end Target

theorem Targets.ext_isEnabled {ts ts' : Targets} (h : ∀ t, ts.isEnabled t = ts'.isEnabled t) :
    ts = ts' := by
  obtain ⟨csharp, python⟩ := ts
  exact congrArg₂ Targets.mk (h .csharp) (h .python)

namespace Command

/-! ## The languages of a check -/

namespace CheckOptions

open Target

/-- Whether a check is for a target: it is named, or no language is and it is a default. -/
def selects (o : CheckOptions) (t : Target) : Bool :=
  if o.languages.isEmpty then ({} : Targets).isEnabled t else o.languages.any t.isCalled

/-- The configuration with the targets that a check is for. -/
def selection (o : CheckOptions) : Config where
  targets := ⟨o.selects .csharp, o.selects .python⟩

theorem isEnabled_selection (o : CheckOptions) (t : Target) :
    o.selection.targets.isEnabled t = o.selects t := by
  cases t <;> rfl

theorem addTargets_eq_ok {words : List Text}
    (h : ∀ word ∈ words, ∃ t : Target, t.isCalled word = true) (base : Targets) :
    ∃ ts, addTargets base words = .ok ts
      ∧ ∀ t, ts.isEnabled t = (base.isEnabled t || words.any t.isCalled) := by
  induction words generalizing base with
  | nil => exact ⟨base, rfl, fun t => by simp⟩
  | cons word rest ih =>
    obtain ⟨named, hnamed⟩ := h word List.mem_cons_self
    obtain ⟨ts, hts, henabled⟩ :=
      ih (fun w hw => h w (List.mem_cons_of_mem _ hw)) (base.set named true)
    refine ⟨ts, ?_, fun t => ?_⟩
    · rw [addTargets, Target.ofName_eq_ok hnamed]
      exact hts
    · -- the first word enables the target that it names, and no other is called like that
      rw [henabled, Targets.isEnabled_set, List.any_cons]
      by_cases ht : t = named
      · rw [ht, hnamed]
        simp
      · have hother : t.isCalled word = false := by
          by_contra hcalled
          exact ht (Target.eq_of_isCalled (by simpa using hcalled) hnamed)
        rw [if_neg ht, hother]
        simp

/-- The first name that no target has ends it. -/
theorem addTargets_eq_error {before after : List Text} {bad : Text}
    (hbefore : ∀ word ∈ before, ∃ t : Target, t.isCalled word = true)
    (hbad : ∀ t : Target, t.isCalled bad = false) (base : Targets) :
    addTargets base (before ++ bad :: after) = .error (.unknownTarget bad) := by
  induction before generalizing base with
  | nil =>
    rw [List.nil_append, addTargets, Target.ofName_eq_error hbad]
  | cons word rest ih =>
    obtain ⟨named, hnamed⟩ := hbefore word List.mem_cons_self
    rw [List.cons_append, addTargets, Target.ofName_eq_ok hnamed]
    exact ih (fun w hw => hbefore w (List.mem_cons_of_mem _ hw)) _

/-- **Languages that all name targets come to a configuration for these**, and no languages to the
default one. -/
theorem config?_eq_ok {o : CheckOptions}
    (h : ∀ word ∈ o.languages, ∃ t : Target, t.isCalled word = true) :
    o.config? = .ok o.selection := by
  unfold config? selection selects
  cases hlanguages : o.languages with
  | nil => rfl
  | cons word rest =>
    rw [hlanguages] at h
    obtain ⟨ts, hts, henabled⟩ := addTargets_eq_ok h { csharp := false }
    rw [List.isEmpty_cons, if_neg Bool.false_ne_true, hts]
    have hsame : ts
        = ⟨(word :: rest).any (isCalled .csharp), (word :: rest).any (isCalled .python)⟩ :=
      Targets.ext_isEnabled fun t => by
        rw [henabled]
        cases t <;> rfl
    rw [hsame]
    rfl

/-- **The first language that names no target is what a check is refused for.** -/
theorem config?_eq_error {o : CheckOptions} {before after : List Text} {bad : Text}
    (hlanguages : o.languages = before ++ bad :: after)
    (hbefore : ∀ word ∈ before, ∃ t : Target, t.isCalled word = true)
    (hbad : ∀ t : Target, t.isCalled bad = false) : o.config? = .error (.unknownTarget bad) := by
  have hempty : o.languages.isEmpty = false := by
    rw [hlanguages]
    cases before <;> rfl
  rw [config?, hempty, if_neg Bool.false_ne_true, hlanguages, addTargets_eq_error hbefore hbad]
  rfl

end CheckOptions

end Command

/-! ## What a build writes -/

/-- The names and the contents of the source files. -/
def Compiled.sources (c : Compiled) : List (Text × Text) :=
  c.files.map fun f => (f.name, f.contents)

theorem Compiled.map_fst_sources (config : Config) (name text : Text) :
    (compile config name text).sources.map Prod.fst
      = config.targets.enabled.map (SourceFile.nameFor name) := by
  show ((config.targets.enabled.map _).map _).map _ = _
  rw [List.map_map, List.map_map]
  rfl

theorem Compiled.isSuccess_ofOutcome (c : Compiled) :
    (Build.Totals.ofOutcome (.ok (some c))).isSuccess = !c.hasErrors := by
  have herrors : c.errors = 0 ↔ c.hasErrors = false := by
    unfold errors count hasErrors
    rw [List.countP_eq_zero, List.any_eq_false]
    rfl
  show (0 == 0 && c.errors == 0) = _
  rw [Bool.eq_iff_iff]
  simp [herrors]

namespace Disk

/-- Writes files of the given names and contents in a folder, one after the other. -/
def writeAll (folder : Path) (files : List (Text × Text)) (d : Disk) : Except Cause Disk :=
  files.foldlM
    (fun d (name, contents) => d.write (folder.join (Path.ofText name)) (Utf8.encode contents)) d

/-- Makes a folder, unless it is there, and writes files in it. -/
def deliver (folder : Path) (files : List (Text × Text)) (d : Disk) : Except Cause Disk :=
  match d.makeFolders folder with
  | (_, some cause) => .error cause
  | (d, none) => d.writeAll folder files

end Disk

namespace Build

variable (config : Config) (output : Option Path)

/-- **Saving source files is writing them**, up to the first that cannot be written. -/
theorem save_of_writeAll (folder : Path) (files : List SourceFile) (d : Disk) :
    match d.writeAll folder (files.map fun f => (f.name, f.contents)) with
    | .ok after => (save config folder files d).failure = none
      ∧ (save config folder files d).disk = after
    | .error _ => (save config folder files d).failure.isSome = true := by
  induction files generalizing d with
  | nil => exact ⟨rfl, rfl⟩
  | cons file rest ih =>
    unfold Disk.writeAll save
    rw [List.map_cons, List.foldlM_cons]
    dsimp only
    cases d.write (folder.join (Path.ofText file.name)) (Utf8.encode file.contents) with
    | error cause => rfl
    | ok e => exact ih e

variable {file : Path} {name text : Text} {d : Disk}

/-- **Building a definition file is delivering its source files**, if it can be read and its name gives
a message name. -/
theorem buildFile_of_deliver (hread : d.readText file = .ok text)
    (hname : file.messageName? = some name) :
    let compiled := compile config name text
    let build := buildFile config output file d
    match d.deliver (outputFolder output file) compiled.sources with
    | .ok after => build.outcome = .ok (some compiled) ∧ build.disk = after
    | .error _ => ∃ failure, build.outcome = .error failure := by
  intro compiled build
  have hbuild : build = buildMessage config output file name d :=
    buildFile_eq_buildMessage config output (isFile_of_readText hread) hname
  rw [hbuild]
  unfold buildMessage Disk.deliver
  rw [hread]
  dsimp only
  rcases d.makeFolders (outputFolder output file) with ⟨e, _ | cause⟩
  · have hsave := save_of_writeAll config (outputFolder output file) compiled.files e
    dsimp only
    show match e.writeAll (outputFolder output file) (compiled.files.map _) with
      | .ok after => _
      | .error _ => _
    cases hwritten : e.writeAll (outputFolder output file)
        (compiled.files.map fun f => (f.name, f.contents)) with
    | error cause =>
      rw [hwritten] at hsave
      obtain ⟨failure, hfailure⟩ := Option.isSome_iff_exists.1 hsave
      rw [hfailure]
      exact ⟨failure, rfl⟩
    | ok after =>
      rw [hwritten] at hsave
      rw [hsave.1]
      exact ⟨rfl, hsave.2⟩
  · -- the folder cannot be made, whatever the sources are
    exact ⟨_, rfl⟩

/-- **What is delivered is read back**, if no link is in the way. -/
theorem readText_of_deliver (hd : d.Orderly) (hread : d.readText file = .ok text)
    (hname : file.messageName? = some name) {after : Disk}
    (hdeliver : d.deliver (outputFolder output file) (compile config name text).sources = .ok after)
    (hlinks : ∀ source ∈ (compile config name text).sources,
      after.hasLink (outputFolder output file) (Path.ofText source.1) = false) :
    ∀ source ∈ (compile config name text).sources,
      after.readText ((outputFolder output file).join (Path.ofText source.1)) = .ok source.2 := by
  have hbuild := buildFile_of_deliver config output hread hname
  dsimp only at hbuild
  rw [hdeliver] at hbuild
  obtain ⟨houtcome, rfl⟩ := hbuild
  have hslash := Path.slash_not_mem_messageName? hname
  obtain ⟨o, -, -, -, ho, hdelivered⟩ := delivered_of_compiled hd
    (fun message hmessage => Path.slash_not_mem_messageName? hmessage) houtcome
  -- the names that are asked about are those of all enabled targets
  have hunlinked : Unlinked config o name (buildFile config output file d).disk := by
    intro t ht
    have hmem : Path.fileName name t
        ∈ (compile config name text).files.map (Path.ofText ·.name) := by
      rw [map_name_files]
      exact List.mem_map_of_mem (Targets.mem_enabled.2 ht)
    obtain ⟨f, hf, heq⟩ := List.mem_map.1 hmem
    exact ho.ne_link (heq ▸ hlinks (f.name, f.contents) (List.mem_map_of_mem hf))
  intro source hsource
  obtain ⟨f, hf, rfl⟩ := List.mem_map.1 hsource
  have hafter := (extended_buildFile config output hd file).orderly hd
  have hbytes := (hdelivered hunlinked).readFile hafter ho hslash f hf
  rw [Disk.readText, hbytes]
  simp only [Utf8.decode?_encode]

end Build

namespace Command

/-! ## A check and a build -/

/-- What a check shows of source files: the name of each, and its contents. -/
def shownSources (files : List (Text × Text)) : Text := files.flatMap fun (name, contents) =>
  "\n==> ".toList ++ name ++ " <==\n".toList ++ contents

theorem checkReport_print (file : Path) (c : Compiled) :
    checkReport file true c = checkReport file false c ++ shownSources c.sources := by
  have hshown : shownSources c.sources = c.files.flatMap fun f =>
      "\n==> ".toList ++ f.name ++ " <==\n".toList ++ f.contents := List.flatMap_map ..
  rw [hshown]
  unfold checkReport
  rw [if_pos rfl, if_neg Bool.false_ne_true, List.append_nil]

/-- **A check changes nothing**, however it ends. -/
theorem disk_runCheck (o : CheckOptions) (disk : Disk) : (runCheck o disk).disk = disk := by
  unfold runCheck
  split
  · rfl
  split
  · rfl
  split
  · rfl
  · rfl

theorem runCheck_eq {o : CheckOptions}
    (hlanguages : ∀ word ∈ o.languages, ∃ t : Target, t.isCalled word = true) {disk : Disk}
    {name text : Text} (hread : disk.readText o.file = .ok text)
    (hname : o.file.messageName? = some name) :
    let compiled := compile o.selection name text
    runCheck o disk = ⟨checkReport o.file o.print compiled, .done (!compiled.hasErrors), disk⟩ := by
  unfold runCheck
  rw [CheckOptions.config?_eq_ok hlanguages, hread, hname]

/-- **A build of a definition file** ends well if its source files can be written and the definition has
no error. -/
theorem runBuild_of_deliver {b : BuildOptions} {disk : Disk} {config : Config} {filter : Log.Level}
    (hadmitted : Admitted b disk config filter) {name text : Text}
    (hread : disk.readText b.path = .ok text) (hname : b.path.messageName? = some name) :
    let compiled := compile config name text
    match disk.deliver (Build.outputFolder b.output b.path) compiled.sources with
    | .ok after => (runBuild b disk).disk = after
      ∧ (runBuild b disk).result = .done (!compiled.hasErrors)
    | .error _ => (runBuild b disk).result = .done false := by
  intro compiled
  -- a path that can be read leads to a file, so there is one definition to build
  have hpath : buildPath config b disk = Build.countFile config b.output b.path disk :=
    if_pos (Build.isFile_of_readText hread)
  have hresult := result_ended (errorsCounted_buildPath config b disk) filter b
  have hbuild := Build.buildFile_of_deliver config b.output hread hname
  dsimp only at hbuild
  rw [hadmitted.runBuild_eq, hresult, hpath]
  cases hdeliver : disk.deliver (Build.outputFolder b.output b.path) compiled.sources with
  | error cause =>
    rw [hdeliver] at hbuild
    obtain ⟨failure, hfailure⟩ := hbuild
    show Result.done (Build.Totals.ofOutcome (Build.buildFile config b.output b.path disk).outcome
      ).isSuccess = _
    rw [hfailure]
    rfl
  | ok after =>
    rw [hdeliver] at hbuild
    refine ⟨hbuild.2, ?_⟩
    show Result.done (Build.Totals.ofOutcome (Build.buildFile config b.output b.path disk).outcome
      ).isSuccess = _
    rw [hbuild.1, compiled.isSuccess_ofOutcome]

/-- **A check is a dry run of a build.** Take a file with a text whose name gives a message name, and
languages that all name targets. A check shows one source file for each of these targets, C# before
Python, changes nothing, and ends well if the definition has no error. A build of the file with valid
settings and the same targets makes its output folder and writes these files there. If it can, it
leaves them to be read back, unless a link is in the way, and ends as the check does; otherwise it
fails. If a language names no target, the first such one is what the check is refused for, whatever is
on the disk. -/
theorem check_build (o : CheckOptions) (disk : Disk) :
    ((∀ word ∈ o.languages, ∃ t : Target, t.isCalled word = true) →
      ∀ name text, disk.readText o.file = .ok text → o.file.messageName? = some name →
        let compiled := compile o.selection name text
        let shown := compiled.sources
        shown.map Prod.fst = (Target.all.filter o.selects).map (SourceFile.nameFor name)
          ∧ (runCheck { o with print := true } disk).printed
            = (runCheck { o with print := false } disk).printed ++ shownSources shown
          ∧ (runCheck o disk).result = .done (!compiled.hasErrors)
          ∧ (runCheck o disk).disk = disk
          ∧ ∀ b config filter, Admitted b disk config filter → b.path = o.file →
            (∀ t, config.targets.isEnabled t = o.selects t) →
            let folder := Build.outputFolder b.output o.file
            (∀ after, disk.deliver folder shown = .ok after →
              (runBuild b disk).disk = after
                ∧ (runBuild b disk).result = (runCheck o disk).result
                ∧ (disk.Orderly →
                  (∀ source ∈ shown, after.hasLink folder (Path.ofText source.1) = false) →
                  ∀ source ∈ shown,
                    after.readText (folder.join (Path.ofText source.1)) = .ok source.2))
              ∧ ∀ cause, disk.deliver folder shown = .error cause →
                (runBuild b disk).result = .done false)
      ∧ ∀ before bad after, o.languages = before ++ bad :: after →
        (∀ word ∈ before, ∃ t : Target, t.isCalled word = true) →
        (∀ t : Target, t.isCalled bad = false) →
        runCheck o disk = .without disk (.refused ["unknown target: ".toList ++ bad]) := by
  refine ⟨fun hlanguages name text hread hname => ?_,
    fun before bad after hlanguages hbefore hbad => ?_⟩
  · have hcheck (print : Bool) := @runCheck_eq { o with print } hlanguages disk name text hread hname
    dsimp only at hcheck
    have hresult : (runCheck o disk).result = .done (!(compile o.selection name text).hasErrors) :=
      congrArg Run.result (hcheck o.print)
    -- the names; what is printed; a build
    refine ⟨?_, ?_, hresult, disk_runCheck o disk,
      fun b config filter hadmitted hpath htargets => ?_⟩
    · rw [Compiled.map_fst_sources, Targets.enabled,
        funext (CheckOptions.isEnabled_selection o)]
    · rw [hcheck, hcheck]
      exact checkReport_print o.file _
    · have hsame : compile config name text = compile o.selection name text :=
        Build.compile_congr (Targets.ext_isEnabled fun t => by
          rw [htargets, CheckOptions.isEnabled_selection]) name text
      rw [← hpath] at hread hname
      have hbuild := runBuild_of_deliver hadmitted hread hname
      dsimp only at hbuild
      rw [hsame, hpath] at hbuild
      refine ⟨fun after hdeliver => ?_, fun cause hdeliver => ?_⟩
      · rw [hdeliver] at hbuild
        refine ⟨hbuild.1, hbuild.2.trans hresult.symm, fun hdisk hlinks => ?_⟩
        rw [← hpath] at hdeliver hlinks ⊢
        exact Build.readText_of_deliver o.selection b.output hdisk hread hname hdeliver hlinks
      · rw [hdeliver] at hbuild
        exact hbuild
  · unfold runCheck
    rw [CheckOptions.config?_eq_error hlanguages hbefore hbad]
    rfl

/-- A definition that asks for a kind that there is not, and settings that silence the log and
enable nothing. -/
def unknownKind : Disk where
  root := .folder [
    (Path.ofText "pose.msg".toList, .file (Path.ofText "type enum\nint class".toList)),
    (Path.ofText "quiet.toml".toList, .file
      (Path.ofText "compiler.targets.csharp = false\nruntime.log_level = 'off'".toList))]
  folder := []

/-- A check with languages in another order, one of them twice, and a silent build to which the command
line gives both targets: both end badly, and what is shown is written. -/
theorem check_build_unknownKind :
    let o : CheckOptions :=
      ⟨Path.ofText "pose.msg".toList, ["PY".toList, "c#".toList, "Python".toList], true⟩
    let b : BuildOptions := ⟨o.file, none, some (Path.ofText "quiet.toml".toList), none, some true,
      some true, false, none⟩
    let shown := (compile o.selection "Pose".toList "type enum\nint class".toList).sources
    (runBuild b unknownKind).result = .done false ∧ (runCheck o unknownKind).result = .done false
      ∧ (∀ source ∈ shown, (runBuild b unknownKind).disk.readText
        ((Path.ofText "./built".toList).join (Path.ofText source.1)) = .ok source.2)
      ∧ (runCheck { o with languages := ["cs".toList, "rust".toList, "java".toList] }
        unknownKind).result = .refused ["unknown target: rust".toList] := by
  intro o b shown
  have hload : Settings.load b.settings unknownKind.folderPath unknownKind
      = .ok ⟨{ targets := { csharp := false } }, { logLevel := some "off".toList }⟩ := by
    decide +kernel
  have hadmitted : Admitted b unknownKind { targets := { python := true } } .off :=
    ⟨⟨_, .off, hload, rfl, rfl, rfl⟩, fun n hn => by cases hn⟩
  have hfolder : Build.outputFolder b.output o.file = Path.ofText "./built".toList := by
    decide +kernel
  have hread : unknownKind.readText o.file = .ok "type enum\nint class".toList := by decide +kernel
  have hlanguages : ∀ word ∈ o.languages, ∃ t : Target, t.isCalled word = true :=
    List.forall_mem_cons.2 ⟨⟨.python, by decide⟩, List.forall_mem_cons.2 ⟨⟨.csharp, by decide⟩,
      List.forall_mem_singleton.2 ⟨.python, by decide⟩⟩⟩
  obtain ⟨-, -, -, -, hbuild⟩ := (check_build o unknownKind).1 hlanguages "Pose".toList
    "type enum\nint class".toList hread (by decide +kernel)
  obtain ⟨hdelivered, -⟩ := hbuild b _ _ hadmitted rfl fun t => by cases t <;> decide
  rw [hfolder] at hdelivered
  have hchecked : (runCheck o unknownKind).result = .done false := by decide +kernel
  have hwritten :
      (unknownKind.deliver (Path.ofText "./built".toList) shown).toOption.isSome = true := by
    decide +kernel
  have hlinks : ∀ source ∈ shown,
      ((unknownKind.deliver (Path.ofText "./built".toList) shown).toOption.getD unknownKind).hasLink
        (Path.ofText "./built".toList) (Path.ofText source.1) = false := by
    decide +kernel
  cases hdeliver : unknownKind.deliver (Path.ofText "./built".toList) shown with
  | error cause =>
    rw [hdeliver] at hwritten
    cases hwritten
  | ok after =>
    rw [hdeliver] at hlinks
    obtain ⟨hdisk, hresult, hread⟩ := hdelivered after hdeliver
    have horderly : unknownKind.Orderly := Disk.WellFormed.orderly ⟨by decide, _, rfl⟩
    refine ⟨hresult.trans hchecked, hchecked, ?_, ?_⟩
    · rw [hdisk]
      exact hread horderly hlinks
    · have hrefused := (check_build
        { o with languages := ["cs".toList, "rust".toList, "java".toList] } unknownKind).2
        ["cs".toList] "rust".toList ["java".toList] rfl
        (List.forall_mem_singleton.2 ⟨.csharp, by decide⟩) (fun t => by cases t <;> decide)
      exact congrArg Run.result hrefused

end Command

end MessageCompiler
