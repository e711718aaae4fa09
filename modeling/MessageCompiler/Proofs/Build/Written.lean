import Mathlib.Algebra.GroupWithZero.Nat
import MessageCompiler.Proofs.Build.Turns

/-!
# What is written and what is counted

The source files of a definition are saved one after the other, up to the first that is refused, and
they are counted together, once all of them have been saved. So a definition that fails on the way
leaves source files that are not counted. The number of source files in the totals of a folder is what
its builds have written, less what was written by those that failed.

* **`save_saved`**: what saving comes to is told by the source files before the first that is refused.
* **`disk_buildFile_eq_save`**: the files that a build writes are what it leaves on the disk.
* **`written_inTurn`**: what is counted, and what is written and not counted.
* **`written_buildFolder`**: when the count of a folder is right.
-/

namespace MessageCompiler.Build

open Disk

variable (config : Config) (output : Option Path) {d e : Disk} {file folder : Path} {name text : Text}

/-! ## Saving -/

/-- The source files that can be saved in a folder, one after the other: those before the first that
is refused. -/
def saved (folder : Path) : List SourceFile → Disk → List SourceFile
  | [], _ => []
  | file :: rest, disk =>
    match disk.write (folder.join (Path.ofText file.name)) (Utf8.encode file.contents) with
    | .error _ => []
    | .ok after => file :: saved folder rest after

/-- **Saving comes to saving the files before the first that is refused**, which by themselves are not.
It fails exactly if others are left. -/
theorem save_saved (folder : Path) (files : List SourceFile) (d : Disk) :
    let saving := save config folder files d
    let reduced := save config folder (saved folder files d) d
    reduced.failure = none ∧ reduced.disk = saving.disk
      ∧ ∃ rest, files = saved folder files d ++ rest ∧ (saving.failure = none ↔ rest = []) := by
  induction files generalizing d with
  | nil => exact ⟨rfl, rfl, [], rfl, iff_of_true rfl rfl⟩
  | cons file rest ih =>
    rw [saved]
    cases hwrite : d.write (folder.join (Path.ofText file.name)) (Utf8.encode file.contents) with
    | error cause =>
      have hsave : save config folder (file :: rest) d
          = ⟨some (.io (folder.join (Path.ofText file.name)) cause), d, []⟩ := by
        rw [save]
        dsimp only
        rw [hwrite]
      rw [hsave]
      exact ⟨rfl, rfl, _, rfl, by simp⟩
    | ok after =>
      -- the first file is written whatever comes after it
      have hsave (files : List SourceFile) :
          (save config folder (file :: files) d).failure = (save config folder files after).failure
            ∧ (save config folder (file :: files) d).disk = (save config folder files after).disk := by
        rw [save]
        dsimp only
        rw [hwrite]
        exact ⟨rfl, rfl⟩
      obtain ⟨hfailure, hdisk, left, hleft, hiff⟩ := ih after
      dsimp only
      rw [(hsave _).1, (hsave _).2, (hsave _).1, (hsave _).2]
      exact ⟨hfailure, hdisk, left, congrArg (file :: ·) hleft, hiff⟩

/-! ## Building a file -/

/-- The source files that the build of a file writes. -/
def writtenFiles (config : Config) (output : Option Path) (file : Path) (disk : Disk) :
    List SourceFile :=
  match file.messageName?, disk.readText file with
  | some name, .ok text =>
    match disk.makeFolders (outputFolder output file) with
    | (_, some _) => []
    | (after, none) => saved (outputFolder output file) (compile config name text).files after
  | _, _ => []

theorem writtenFiles_of_not_readable (h : ¬ IsReadable d file) :
    writtenFiles config output file d = [] := by
  unfold writtenFiles
  split
  · next name text hname hread => exact (h ⟨name, text, hname, hread⟩).elim
  · rfl

theorem writtenFiles_of_refused (hname : file.messageName? = some name)
    (hread : d.readText file = .ok text) {cause : Cause}
    (hmake : d.makeFolders (outputFolder output file) = (e, some cause)) :
    writtenFiles config output file d = [] := by
  rw [writtenFiles, hname, hread]
  dsimp only
  rw [hmake]

theorem writtenFiles_of_made (hname : file.messageName? = some name)
    (hread : d.readText file = .ok text)
    (hmake : d.makeFolders (outputFolder output file) = (e, none)) :
    writtenFiles config output file d
      = saved (outputFolder output file) (compile config name text).files e := by
  rw [writtenFiles, hname, hread]
  dsimp only
  rw [hmake]

/-- **The files that a build writes are what it leaves on the disk**: it changes nothing, or makes what it
can of its output folder and saves these files there, which all can be saved. -/
theorem disk_buildFile_eq_save (file : Path) (d : Disk) :
    let folder := outputFolder output file
    let written := writtenFiles config output file d
    let saving := save config folder written (d.makeFolders folder).1
    let after := (buildFile config output file d).disk
    written = [] ∧ after = d ∨ saving.failure = none ∧ after = saving.disk := by
  intro folder written saving after
  by_cases hreadable : IsReadable d file
  · obtain ⟨name, text, hname, hread⟩ := hreadable
    refine .inr ?_
    have hsaving : saving = save config folder written (d.makeFolders folder).1 := rfl
    rcases hmake : d.makeFolders folder with ⟨e, _ | cause⟩
    · have hwritten : written = _ := writtenFiles_of_made config output hname hread hmake
      obtain ⟨hfailure, hdisk, -⟩ := save_saved config folder (compile config name text).files e
      rw [hsaving, hmake, hwritten]
      exact ⟨hfailure, (buildFile_of_made config output hread hname hmake).1.trans hdisk.symm⟩
    · have hwritten : written = [] := writtenFiles_of_refused config output hname hread hmake
      rw [hsaving, hmake, hwritten]
      exact ⟨rfl, (buildFile_of_refused config output hread hname hmake).2⟩
  · exact .inl ⟨writtenFiles_of_not_readable config output hreadable,
      (buildFile_of_not_readable config output hreadable).1⟩

/-- **What a build has written, by its outcome**: all source files, or nothing if there was nothing to
be compiled; or else it has failed before it came to the last target. -/
theorem writtenFiles_of_outcome (file : Path) (d : Disk) :
    let written := writtenFiles config output file d
    match (buildFile config output file d).outcome with
    | .ok none => written = []
    | .ok (some compiled) => written = compiled.files
    | .error _ => written = [] ∨ written.length < config.targets.enabled.length := by
  intro written
  by_cases hreadable : IsReadable d file
  · obtain ⟨name, text, hname, hread⟩ := hreadable
    rcases hmake : d.makeFolders (outputFolder output file) with ⟨e, _ | cause⟩
    · have hwritten : written = _ := writtenFiles_of_made config output hname hread hmake
      obtain ⟨-, -, rest, hrest, hiff⟩ :=
        save_saved config (outputFolder output file) (compile config name text).files e
      rw [(buildFile_of_made config output hread hname hmake).2, hwritten]
      cases hfailure :
        (save config (outputFolder output file) (compile config name text).files e).failure with
      | none =>
        rw [hiff.1 hfailure, List.append_nil] at hrest
        exact hrest.symm
      | some failure =>
        -- what is left makes the written files fewer than the targets
        have hleft : rest ≠ [] := fun hnil => by cases hfailure.symm.trans (hiff.2 hnil)
        have hlength : (compile config name text).files.length = config.targets.enabled.length :=
          List.length_map _
        rw [hrest, List.length_append] at hlength
        have hpos := List.length_pos_iff.2 hleft
        exact .inr (by omega)
    · rw [(buildFile_of_refused config output hread hname hmake).1]
      exact .inl (writtenFiles_of_refused config output hname hread hmake)
  · have hwritten : written = [] := writtenFiles_of_not_readable config output hreadable
    obtain ⟨-, hnone, -⟩ := buildFile_of_not_readable config output hreadable
    split
    · exact hwritten
    · next c houtcome => exact absurd houtcome (hnone c)
    · exact .inl hwritten

/-- A build counts what it writes, unless it fails, and then it counts nothing. -/
theorem written_ofOutcome_buildFile (file : Path) (d : Disk) :
    let outcome := (buildFile config output file d).outcome
    (Totals.ofOutcome outcome).written
      = if outcome.isOk then (writtenFiles config output file d).length else 0 := by
  intro outcome
  have hwritten : match outcome with
    | .ok none => _
    | .ok (some compiled) => _
    | .error _ => _ := writtenFiles_of_outcome config output file d
  match outcome, hwritten with
  | .ok none, hwritten =>
    rw [hwritten]
    rfl
  | .ok (some compiled), hwritten =>
    rw [hwritten]
    rfl
  | .error failure, _ => rfl

/-! ## Building a folder -/

/-- The builds of files, each with the disk that it finds, that fail. -/
def failedTurns (config : Config) (output : Option Path) (files : List Path) (disk : Disk) :
    List (Path × Disk) :=
  (turns (countFile config output) files disk).filter fun turn =>
    !(buildFile config output turn.1 turn.2).outcome.isOk

/-- **What is counted, and what is written by builds that fail**, is what is written. -/
theorem written_inTurn (files : List Path) (d : Disk) :
    let writes := fun turn : Path × Disk => (writtenFiles config output turn.1 turn.2).length
    (inTurn (countFile config output) files d).totals.written
        + ((failedTurns config output files d).map writes).sum
      = ((turns (countFile config output) files d).map writes).sum := by
  intro writes
  unfold failedTurns
  induction files generalizing d with
  | nil => rfl
  | cons file rest ih =>
    have hrest := ih (countFile config output file d).disk
    have hbuild := written_ofOutcome_buildFile config output file d
    show (Totals.ofOutcome (buildFile config output file d).outcome).written
        + (inTurn (countFile config output) rest (countFile config output file d).disk).totals.written
        + _ = (writtenFiles config output file d).length + List.sum _
    rw [hbuild, ← hrest, turns]
    -- a build that fails is one of the failed turns, and any other has counted what it wrote
    cases houtcome : (buildFile config output file d).outcome.isOk with
    | true =>
      rw [List.filter_cons_of_neg (by simp [houtcome]), if_pos rfl]
      exact Nat.add_assoc _ _ _
    | false =>
      rw [List.filter_cons_of_pos (by simp [houtcome]), if_neg Bool.false_ne_true, Nat.zero_add]
      exact Nat.add_left_comm _ _ _

/-- **What the count of a folder comes to**: together with what the builds that fail have written, it is
what all builds have written, and that is what they leave on the disk. So it is right exactly if no build
that fails has written anything. It may have written the files of all targets but one, so the count is
right if there are not several targets. -/
theorem written_buildFolder (config : Config) (output : Option Path) (folder : Path) (disk : Disk) :
    let builds := turns (countFile config output) (definitionsIn disk folder) disk
    let failed := failedTurns config output (definitionsIn disk folder) disk
    let writes := fun turn : Path × Disk => (writtenFiles config output turn.1 turn.2).length
    let counted := (buildFolder config output folder disk).totals.written
    let written := (builds.map writes).sum
    (∀ turn ∈ builds,
        let folder := outputFolder output turn.1
        let files := writtenFiles config output turn.1 turn.2
        let saving := save config folder files (turn.2.makeFolders folder).1
        let after := (buildFile config output turn.1 turn.2).disk
        files = [] ∧ after = turn.2 ∨ saving.failure = none ∧ after = saving.disk)
      ∧ counted + (failed.map writes).sum = written
      ∧ (counted = written ↔ ∀ turn ∈ failed, writtenFiles config output turn.1 turn.2 = [])
      ∧ (∀ turn ∈ failed, writes turn = 0 ∨ writes turn < config.targets.enabled.length)
      ∧ (config.targets.enabled.length ≤ 1 → counted = written) := by
  intro builds failed writes counted written
  have hcounted : counted
      = (inTurn (countFile config output) (definitionsIn disk folder) disk).totals.written :=
    congrArg (Totals.written ·.1) (buildFolder_result config output folder disk)
  have hsum : counted + (failed.map writes).sum = written := by
    rw [hcounted]
    exact written_inTurn config output (definitionsIn disk folder) disk
  have hiff : counted = written ↔ ∀ turn ∈ failed, writtenFiles config output turn.1 turn.2 = [] := by
    have hzero : (failed.map writes).sum = 0 ↔ ∀ turn ∈ failed, writes turn = 0 := by
      rw [List.sum_eq_zero_iff_forall_eq_nat, List.forall_mem_map]
    rw [← hsum, eq_comm, Nat.add_eq_left, hzero]
    exact forall₂_congr fun _ _ => List.length_eq_zero_iff
  have hfew : ∀ turn ∈ failed, writes turn = 0 ∨ writes turn < config.targets.enabled.length := by
    intro turn hturn
    -- only an error ends a build without source, and then files of a target are left
    have hfails := (List.mem_filter.1 hturn).2
    have hwritten := writtenFiles_of_outcome config output turn.1 turn.2
    dsimp only at hwritten
    match houtcome : (buildFile config output turn.1 turn.2).outcome with
    | .ok none => simp [houtcome, Except.isOk, Except.toBool] at hfails
    | .ok (some c) => simp [houtcome, Except.isOk, Except.toBool] at hfails
    | .error failure =>
      rw [houtcome] at hwritten
      exact hwritten.imp_left List.length_eq_zero_iff.2
  refine ⟨fun turn _ => disk_buildFile_eq_save config output turn.1 turn.2, hsum, hiff, hfew,
    fun htargets => hiff.2 fun turn hturn => ?_⟩
  rcases hfew turn hturn with hnone | hless
  · exact List.length_eq_zero_iff.1 hnone
  · exact List.length_eq_zero_iff.1 (Nat.lt_one_iff.1 (hless.trans_le htargets))

/-- A definition, and a folder where its Python source is to be written. -/
def obstructedPython : Disk where
  root := .folder [
    (Path.ofText "A.msg".toList, .file (Path.ofText "int x".toList)),
    (Path.ofText "built".toList, .folder [(Path.ofText "A.py".toList, .folder [])])]
  folder := []

/-- With one target the count is right. -/
theorem written_buildFolder_csharp :
    let folder := Path.ofText ".".toList
    let builds := turns (countFile {} none) (definitionsIn obstructedPython folder) obstructedPython
    let counted := (buildFolder {} none folder obstructedPython).totals.written
    counted = (builds.map fun turn => (writtenFiles {} none turn.1 turn.2).length).sum
      ∧ counted = 1 := by
  intro folder builds counted
  obtain ⟨-, -, -, -, hright⟩ := written_buildFolder {} none folder obstructedPython
  exact ⟨hright (by decide), by decide +kernel⟩

/-- With both targets the C# source is written and not counted. -/
theorem counted_ne_written :
    let both : Config := { targets := { python := true } }
    let build := buildFolder both none (Path.ofText ".".toList) obstructedPython
    let source := Path.ofText "./built/A.cs".toList
    build.totals.written = 0 ∧ build.totals.failed = 1
      ∧ obstructedPython.readFile source = .error .notFound
      ∧ build.disk.readText source
        = .ok ((compile both "A".toList "int x".toList).files.head?.elim [] (·.contents)) := by
  decide +kernel

end MessageCompiler.Build
