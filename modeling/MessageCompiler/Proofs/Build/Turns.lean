import MessageCompiler.Proofs.Build.Commuting
import MessageCompiler.Proofs.Disk.Extension

/-!
# Builds in turn

Each of some builds that are run one after the other finds the disk that the ones before have left.
`turns` lists the builds with what they find, so that what a run does can be told build by build. On
any disk that is in order, with links or not, a build extends the disk that it finds.

* **`totals_inTurn`**: a run comes to the sum of its builds.
* **`result_inTurn_flatMap`**: a run of runs is one long run.
* **`turns_eq_append_cons`**: one turn, and the runs before and after it.
* **`buildFile_of_idle`, `buildFile_of_refused`, `buildFile_of_made`**: what building a file comes to.
* **`buildFile_cases`**: building a file comes to nothing, or fails for its output folder, or saves.
* **`extended_buildFile`, `extended_buildFolder`**: a build extends the disk.
-/

namespace MessageCompiler.Build

open Disk

/-! ## Turns -/

section Turns

variable {α : Type} {build : α → Disk → FolderBuild}

/-- Some builds that are run one after the other, each with the disk that it finds. -/
def turns (build : α → Disk → FolderBuild) : List α → Disk → List (α × Disk)
  | [], _ => []
  | a :: rest, disk => (a, disk) :: turns build rest (build a disk).disk

theorem map_fst_turns (build : α → Disk → FolderBuild) (l : List α) (d : Disk) :
    (turns build l d).map Prod.fst = l := by
  induction l generalizing d with
  | nil => rfl
  | cons a rest ih => rw [turns, List.map_cons, ih]

/-- **A run comes to the sum of its builds.** -/
theorem totals_inTurn (l : List α) (d : Disk) : (inTurn build l d).totals
    = ((turns build l d).map fun turn => (build turn.1 turn.2).totals).foldr (· + ·) {} := by
  induction l generalizing d with
  | nil => rfl
  | cons a rest ih =>
    rw [turns, List.map_cons, List.foldr_cons, ← ih]
    rfl

theorem result_inTurn_append (l l' : List α) (d : Disk) : (inTurn build (l ++ l') d).result
    = ((inTurn build l d).andThen (inTurn build l')).result := by
  induction l generalizing d with
  | nil =>
    rw [result_andThen]
    show _ = ({} + (inTurn build l' d).totals, _)
    rw [Totals.zero_add]
    rfl
  | cons a rest ih =>
    obtain ⟨htotals, hdisk⟩ := Prod.mk.inj (ih (build a d).disk)
    rw [List.cons_append, inTurn_cons, inTurn_cons, result_andThen, result_andThen, htotals, hdisk]
    exact congrArg (·, _) (Totals.add_assoc _ _ _).symm

theorem turns_append (l l' : List α) (d : Disk) :
    turns build (l ++ l') d = turns build l d ++ turns build l' (inTurn build l d).disk := by
  induction l generalizing d with
  | nil => rfl
  | cons a rest ih => exact congrArg ((a, d) :: ·) (ih (build a d).disk)

/-- **A run of builds that are runs themselves** is one long run. -/
theorem result_inTurn_flatMap {β : Type} {build' : β → Disk → FolderBuild}
    {parts : α × Disk → List β}
    (h : ∀ a d, (build a d).result = (inTurn build' (parts (a, d)) d).result) (l : List α) (d : Disk) :
    (inTurn build l d).result = (inTurn build' ((turns build l d).flatMap parts) d).result := by
  induction l generalizing d with
  | nil => rfl
  | cons a rest ih =>
    obtain ⟨htotals, hdisk⟩ := Prod.mk.inj (h a d)
    obtain ⟨htotals', hdisk'⟩ := Prod.mk.inj (ih (build a d).disk)
    rw [turns, List.flatMap_cons, result_inTurn_append, inTurn_cons, result_andThen, result_andThen,
      htotals', hdisk', htotals, hdisk]

/-- **One turn of a run**: what is built before it leaves the disk that it finds, and the turns after
it are those of the rest of the run. -/
theorem turns_eq_append_cons {l : List α} {d e : Disk} {before after : List (α × Disk)} {a : α}
    (h : turns build l d = before ++ (a, e) :: after) :
    ∃ l₁ l₂, l = l₁ ++ a :: l₂ ∧ e = (inTurn build l₁ d).disk
      ∧ after = turns build l₂ (build a e).disk
      ∧ (inTurn build l d).disk = (inTurn build l₂ (build a e).disk).disk := by
  -- the turn is the first one, or one of the rest of the run
  induction before generalizing l d with
  | nil =>
    cases l with
    | nil => cases h
    | cons b rest =>
      obtain ⟨hfirst, hafter⟩ := List.cons.inj h
      obtain ⟨rfl, rfl⟩ := Prod.mk.inj hfirst
      exact ⟨[], rest, rfl, rfl, hafter.symm, rfl⟩
  | cons turn others ih =>
    cases l with
    | nil => cases h
    | cons b rest =>
      obtain ⟨-, hrest⟩ := List.cons.inj h
      obtain ⟨l₁, l₂, rfl, he, hafter, hdisk⟩ := ih hrest
      exact ⟨b :: l₁, l₂, rfl, he, hafter, hdisk⟩

theorem mem_of_mem_turns {l : List α} {d : Disk} {turn : α × Disk} (h : turn ∈ turns build l d) :
    turn.1 ∈ l := by
  rw [← map_fst_turns build l d]
  exact List.mem_map_of_mem h

theorem exists_turn_of_mem {l : List α} {a : α} (h : a ∈ l) (d : Disk) :
    ∃ e, (a, e) ∈ turns build l d := by
  rw [← map_fst_turns build l d] at h
  obtain ⟨⟨_, e⟩, hturn, rfl⟩ := List.mem_map.1 h
  exact ⟨e, hturn⟩

/-- What the builds keep is true of the disk that each of them finds. -/
theorem of_mem_turns {kind : Disk → Prop} {l : List α} (hkeeps : ∀ a ∈ l, Keeps kind (build a))
    {d : Disk} (hd : kind d) {turn : α × Disk} (h : turn ∈ turns build l d) : kind turn.2 := by
  induction l generalizing d with
  | nil => exact absurd h List.not_mem_nil
  | cons a rest ih =>
    rcases List.mem_cons.1 h with rfl | h
    · exact hd
    · exact ih (fun b hb => hkeeps b (List.mem_cons_of_mem _ hb)) (hkeeps a List.mem_cons_self d hd) h

end Turns

/-! ## The definitions in a folder -/

variable {d : Disk} {folder : Path}

/-- The definition files directly in a folder, in the order in which they are built. -/
def definitionsIn (disk : Disk) (folder : Path) : List Path :=
  definitionFiles disk folder ((disk.list folder).toOption.getD [])

theorem buildFolder_result (config : Config) (output : Option Path) (folder : Path) (disk : Disk) :
    (buildFolder config output folder disk).result
      = (inTurn (countFile config output) (definitionsIn disk folder) disk).result := by
  rw [buildFolder, definitionsIn]
  cases disk.list folder <;> rfl

theorem exists_name_of_mem_definitionsIn (hd : d.Orderly) {file : Path}
    (h : file ∈ definitionsIn d folder) :
    folder ≠ [] ∧ ∃ name, Path.IsName name ∧ file = folder.join name := by
  rw [definitionsIn, definitionFiles] at h
  obtain ⟨e, he, rfl⟩ := List.mem_map.1 (List.mem_filter.1 h).1
  cases hlist : d.list folder with
  | error cause =>
    rw [hlist] at he
    cases he
  | ok es =>
    rw [hlist] at he
    obtain ⟨q, hq, hes⟩ := list_eq_ok_iff.1 hlist
    exact ⟨hq.ne_nil, e.1, (hd.tree q es hes).2 e he, rfl⟩

/-! ## What building a file comes to -/

variable (config : Config) (output : Option Path)

section OneFile

variable {file : Path} {name text : Text}

/-- A file can be read, and its name gives a name to the message. -/
def IsReadable (d : Disk) (file : Path) : Prop :=
  ∃ name text, file.messageName? = some name ∧ d.readText file = .ok text

theorem isFile_of_readText (h : d.readText file = .ok text) : d.isFile file = true := by
  obtain ⟨contents, hfind, -⟩ := exists_of_readText h
  exact isFile_of_find hfind

theorem buildFile_of_idle (h : d.isFile file = false ∨ file.messageName? = none) :
    buildFile config output file d = ⟨.ok none, d, []⟩ := by
  rw [buildFile]
  split
  · rfl
  · next hfile =>
    have hisFile : d.isFile file = true := by
      rw [Bool.or_eq_true, not_or] at hfile
      simpa using hfile.2
    have hname := h.resolve_left (by simp [hisFile])
    rw [hname]

theorem buildFile_eq_buildMessage (hfile : d.isFile file = true)
    (hname : file.messageName? = some name) :
    buildFile config output file d = buildMessage config output file name d := by
  have hne : file.isEmpty = false := by
    cases file with
    | nil => cases hname
    | cons b rest => rfl
  rw [buildFile, hne, hfile, hname]
  rfl

theorem outcome_buildMessage_ne (file : Path) (message : Text) (d : Disk) :
    (buildMessage config output file message d).outcome ≠ .ok none := by
  unfold buildMessage
  cases d.readText file with
  | error cause => exact fun h => by cases h
  | ok text =>
    dsimp only
    rcases d.makeFolders (outputFolder output file) with ⟨e, _ | cause⟩
    · dsimp only
      cases (save config (outputFolder output file) (compile config message text).files e).failure
        <;> exact fun h => by cases h
    · exact fun h => by cases h

theorem buildFile_of_readText_eq_error (hfile : d.isFile file = true)
    (hname : file.messageName? = some name) {cause : Cause} (hread : d.readText file = .error cause) :
    let build := buildFile config output file d
    build.outcome = .error (.io file cause) ∧ build.disk = d := by
  intro build
  have hbuild : build = buildMessage config output file name d :=
    buildFile_eq_buildMessage config output hfile hname
  rw [hbuild, buildMessage, hread]
  exact ⟨rfl, rfl⟩

/-- **What cannot be read, or has no name for its message, changes nothing**, and comes to the same on
all disks on which it is read alike. -/
theorem buildFile_of_not_readable (h : ¬ IsReadable d file) :
    (buildFile config output file d).disk = d
      ∧ (∀ c, (buildFile config output file d).outcome ≠ .ok (some c))
      ∧ ∀ e : Disk, e.isFile file = d.isFile file → e.readText file = d.readText file →
        (buildFile config output file e).outcome = (buildFile config output file d).outcome := by
  by_cases hidle : d.isFile file = false ∨ file.messageName? = none
  · rw [buildFile_of_idle config output hidle]
    refine ⟨rfl, fun c hc => (by cases hc), fun e hfile _ => ?_⟩
    rw [buildFile_of_idle config output (hidle.imp_left hfile.trans)]
  obtain ⟨hfile, hname⟩ := not_or.1 hidle
  obtain ⟨name, hname⟩ := Option.ne_none_iff_exists'.1 hname
  rw [Bool.not_eq_false] at hfile
  cases hread : d.readText file with
  | ok text => exact (h ⟨name, text, hname, hread⟩).elim
  | error cause =>
    obtain ⟨houtcome, hdisk⟩ := buildFile_of_readText_eq_error config output hfile hname hread
    refine ⟨hdisk, fun c hc => (by cases houtcome.symm.trans hc), fun e hfile' hread' => ?_⟩
    rw [houtcome]
    exact (buildFile_of_readText_eq_error config output (hfile'.trans hfile) hname hread').1

theorem buildFile_of_refused (hread : d.readText file = .ok text)
    (hname : file.messageName? = some name) {e : Disk} {cause : Cause}
    (hmake : d.makeFolders (outputFolder output file) = (e, some cause)) :
    let build := buildFile config output file d
    build.outcome = .error (.io (outputFolder output file) cause) ∧ build.disk = e := by
  intro build
  have hbuild : build = buildMessage config output file name d :=
    buildFile_eq_buildMessage config output (isFile_of_readText hread) hname
  rw [hbuild, buildMessage, hread]
  dsimp only
  rw [hmake]
  exact ⟨rfl, rfl⟩

/-- **A definition is compiled**, and its source files are saved in the output folder. -/
theorem buildFile_of_made (hread : d.readText file = .ok text)
    (hname : file.messageName? = some name) {e : Disk}
    (hmake : d.makeFolders (outputFolder output file) = (e, none)) :
    let build := buildFile config output file d
    let compiled := compile config name text
    let saving := save config (outputFolder output file) compiled.files e
    build.disk = saving.disk
      ∧ build.outcome = match saving.failure with
        | none => .ok (some compiled)
        | some failure => .error failure := by
  intro build
  have hbuild : build = buildMessage config output file name d :=
    buildFile_eq_buildMessage config output (isFile_of_readText hread) hname
  rw [hbuild, buildMessage, hread]
  dsimp only
  rw [hmake]
  dsimp only
  cases (save config (outputFolder output file) (compile config name text).files e).failure
    <;> exact ⟨rfl, rfl⟩

/-- **Building a file** comes to nothing, or its output folder cannot be made, or it is made and the
source files are saved there. -/
theorem buildFile_cases (file : Path) (d : Disk) :
    let build := buildFile config output file d
    let folder := outputFolder output file
    (build.disk = d ∧ ∀ c, build.outcome ≠ .ok (some c))
      ∨ (∃ e cause, d.makeFolders folder = (e, some cause) ∧ build.disk = e
        ∧ ∀ c, build.outcome ≠ .ok (some c))
      ∨ ∃ name text e, file.messageName? = some name ∧ d.makeFolders folder = (e, none)
        ∧ let compiled := compile config name text
          let saving := save config folder compiled.files e
          build.disk = saving.disk
            ∧ build.outcome = match saving.failure with
              | none => .ok (some compiled)
              | some failure => .error failure := by
  intro build folder
  by_cases hreadable : IsReadable d file
  · obtain ⟨name, text, hname, hread⟩ := hreadable
    rcases hmake : d.makeFolders folder with ⟨e, _ | cause⟩
    · exact .inr (.inr ⟨name, text, e, hname, rfl,
        buildFile_of_made config output hread hname hmake⟩)
    · obtain ⟨houtcome, hdisk⟩ := buildFile_of_refused config output hread hname hmake
      exact .inr (.inl ⟨e, cause, rfl, hdisk, fun c h => by cases houtcome.symm.trans h⟩)
  · obtain ⟨hdisk, hnone, -⟩ := buildFile_of_not_readable config output hreadable
    exact .inl ⟨hdisk, hnone⟩

end OneFile

/-! ## Builds extend the disk -/

theorem extended_save (hd : d.Orderly) (folder : Path) (files : List SourceFile) :
    d.Extended (save config folder files d).disk := by
  induction files generalizing d with
  | nil => exact .refl
  | cons file rest ih =>
    rw [save]
    dsimp only
    split
    · exact .refl
    · next e hwrite =>
      have hextended := extended_write hd hwrite
      exact hextended.trans (ih (hextended.orderly hd))

/-- **Building a file extends the disk.** -/
theorem extended_buildFile (hd : d.Orderly) (file : Path) :
    d.Extended (buildFile config output file d).disk := by
  rcases buildFile_cases config output file d with ⟨hdisk, -⟩ | ⟨e, cause, hmake, hdisk, -⟩
    | ⟨name, text, e, -, hmake, hdisk, -⟩
  · rw [hdisk]
    exact .refl
  · rw [hdisk]
    exact extended_makeFolders hd hmake
  · have hextended := extended_makeFolders hd hmake
    rw [hdisk]
    exact hextended.trans (extended_save config (hextended.orderly hd) _ _)

theorem keeps_extended_countFile (hd : d.Orderly) (file : Path) :
    Keeps d.Extended (countFile config output file) := fun _ he =>
  he.trans (extended_buildFile config output (he.orderly hd) file)

/-- **Building a folder extends the disk.** -/
theorem extended_buildFolder (hd : d.Orderly) (folder : Path) :
    d.Extended (buildFolder config output folder d).disk := by
  rw [buildFolder]
  split
  · exact .refl
  · exact Keeps.inTurn (fun file _ => keeps_extended_countFile config output hd file) d .refl

theorem keeps_extended_buildFolder (hd : d.Orderly) (folder : Path) :
    Keeps d.Extended (buildFolder config output folder) := fun _ he =>
  he.trans (extended_buildFolder config output (he.orderly hd) folder)

end MessageCompiler.Build
