import MessageCompiler.Proofs.Build.Overwriting
import MessageCompiler.Proofs.Disk.Footprint
import MessageCompiler.Proofs.Source.Declared

/-!
# The effect of building a file

On a disk without links the build of a file, whatever comes of it, touches nothing but its output
folder: that and the folders above it are made where they are missing, and in it the source files of
the message are written. A path that is passed over and a definition that is no text change nothing.

* **`footprint_save`**: what saving source files may have written.
* **`footprint_buildFile`**: what building a file may have made and written.
* **`buildFile_effect`**: what building a file comes to, and what it leaves.
-/

namespace MessageCompiler.Build

open Disk

variable {config : Config} {output : Option Path} {d e : Disk} {folder file : Path} {o : Place}
  {name text : Text}

/-! ## Source files -/

/-- The source files of a message, in the folder at a place: where they are and what they hold. -/
def IsSource (config : Config) (name text : Text) (o q : Place) (contents : Utf8.Bytes) : Prop :=
  ∃ t f, (compile config name text).file? t = some f ∧ q = o ++ [Path.fileName name t]
    ∧ contents = Utf8.encode f.contents

theorem isSource_of_mem_files {f : SourceFile} (h : f ∈ (compile config name text).files) :
    IsSource config name text o (o ++ [Path.ofText f.name]) (Utf8.encode f.contents) := by
  obtain ⟨t, ht, rfl⟩ := List.mem_map.1 h
  exact ⟨t, _, Compiled.file?_compile (Targets.mem_enabled.1 ht) name text, rfl, rfl⟩

theorem IsSource.isDefinitionName {q : Place} {n contents : Utf8.Bytes}
    (h : IsSource config name text o (q ++ [n]) contents) : Path.isDefinitionName n = false := by
  obtain ⟨t, f, -, hq, -⟩ := h
  obtain ⟨-, hn⟩ := List.append_inj' hq rfl
  rw [List.singleton_inj.1 hn]
  exact Path.isDefinitionName_fileName name t

theorem footprint_attempt_writings (ho : d.root.IsFolderAt o) {files : List SourceFile}
    {made : Place → Prop} {written : Place → Utf8.Bytes → Prop}
    (hwritten : ∀ f ∈ files, written (o ++ [Path.ofText f.name]) (Utf8.encode f.contents)) :
    Footprint made written d (attempt (files.map (writing o)) d).2 := by
  induction files generalizing d with
  | nil => exact .refl d
  | cons f rest ih =>
    by_cases hfolder : d.root.IsFolderAt (o ++ [Path.ofText f.name])
    · rw [attempt_writings_of_isFolderAt hfolder]
      exact .refl d
    · rw [attempt_writings_of_not_isFolderAt hfolder]
      have hput : Footprint made written d
          (d.put (o ++ [Path.ofText f.name]) (.file (Utf8.encode f.contents))) :=
        footprint_put_file ho hfolder _ (hwritten f List.mem_cons_self)
      have ho' : (d.put (o ++ [Path.ofText f.name])
          (.file (Utf8.encode f.contents))).root.IsFolderAt o :=
        (Node.isFolderAt_put_file_iff ho hfolder _).2 ho
      exact hput.trans (ih ho' fun g hg => hwritten g (List.mem_cons_of_mem _ hg))

/-- **Saving the source files of a message** writes these in the folder that takes them, all of them
or only some. -/
theorem footprint_save (hd : d.WellFormed) (ho : d.folderAt? folder = some o) (hslash : '/' ∉ name)
    {made : Place → Prop} : Footprint made (IsSource config name text o) d
      (save config folder (compile config name text).files d).disk := by
  obtain ⟨hsave, -⟩ := save_eq_attempt config hd ho hslash (isGenerated_of_mem_files config name text)
  rw [(Prod.mk.inj hsave).2]
  exact footprint_attempt_writings (hd.isFolderAt ho) fun f => isSource_of_mem_files

/-! ## One file -/

/-- The folder at a place is an output folder or one that it lies in. -/
def IsOnTheWay (folder : Path) (d : Disk) (q : Place) : Prop :=
  ∃ p ∈ folder :: folder.ancestors, d.LeadsTo p q

/-- What the build of a file may write: the source files of its message, directly in its output
folder. -/
def IsOutput (config : Config) (output : Option Path) (file : Path) (before after : Disk) (q : Place)
    (contents : Utf8.Bytes) : Prop :=
  ∃ name text o, file.messageName? = some name ∧ before.readText file = .ok text
    ∧ after.LeadsTo (outputFolder output file) o ∧ IsSource config name text o q contents

theorem footprint_isOnTheWay (hd : d.WellFormed) {refused : Option Cause}
    (h : d.makeFolders folder = (e, refused)) {f : Disk} (hgrown : e.Grown f)
    {written : Place → Utf8.Bytes → Prop} : Footprint (IsOnTheWay folder f) written d e := by
  refine (footprint_makeFolders hd h).mono ?_ fun _ _ h => h
  rintro q ⟨p, hp, hq⟩
  have hf := hgrown.wellFormed ((grown_makeFolders hd h).wellFormed hd)
  exact ⟨p, hp, hf.leadsTo (hgrown.folderAt? hq)⟩

/-- **A definition that can be read and has a name for its message**: either its output folder cannot be
made, or that is there in the end, and all source files are if the build has not failed. -/
theorem build_of_readText (config : Config) (output : Option Path) (hd : d.WellFormed)
    (hread : d.readText file = .ok text) (hname : file.messageName? = some name) :
    let build := buildFile config output file d
    let folder := outputFolder output file
    Footprint (IsOnTheWay folder build.disk) (IsOutput config output file d build.disk) d build.disk
      ∧ ((∃ failure, build.outcome = .error failure)
        ∨ build.outcome = .ok (some (compile config name text))
          ∧ ∃ o, build.disk.folderAt? folder = some o
            ∧ Delivered o (compile config name text) build.disk) := by
  intro build folder
  have hslash := Path.slash_not_mem_messageName? hname
  rcases hmake : d.makeFolders folder with ⟨e, _ | cause⟩
  · have hgrown := grown_makeFolders hd hmake
    have he := hgrown.wellFormed hd
    obtain ⟨o, ho⟩ := folderAt?_makeFolders hd (outputFolder_ne_nil output file) hmake
    obtain ⟨hsave, hsaved⟩ :=
      save_eq_attempt config he ho hslash (isGenerated_of_mem_files config name text)
    obtain ⟨hdisk, houtcome⟩ := buildFile_of_made config output hread hname hmake
    -- saving adds files in the output folder, so the way there is still open
    have hafter : build.disk.LeadsTo folder o :=
      hdisk ▸ (hsaved.wellFormed he).leadsTo (hsaved.folderAt? ho)
    have hwritten : Footprint (IsOnTheWay folder build.disk)
        (IsOutput config output file d build.disk) e build.disk := by
      rw [hdisk]
      refine (footprint_save he ho hslash).mono (fun _ h => h) fun q contents hsource => ?_
      exact ⟨name, text, o, hname, hread, hdisk ▸ hafter, hsource⟩
    refine ⟨(footprint_isOnTheWay hd hmake (hdisk ▸ hsaved)).trans hwritten, ?_⟩
    obtain ⟨hdone, hend⟩ := Prod.mk.inj hsave
    cases hfailure : (save config folder (compile config name text).files e).failure with
    | some failure =>
      rw [hfailure] at houtcome
      exact .inl ⟨failure, houtcome⟩
    | none =>
      rw [hfailure] at houtcome hdone
      refine .inr ⟨houtcome, o, hdisk ▸ hsaved.folderAt? ho, fun f hf => ?_⟩
      rw [hdisk, hend]
      exact get?_attempt_writings (nodup_name_files config name text) hdone.symm hf
  · -- nothing is written then, but folders may have been made before one could not be
    obtain ⟨houtcome, hdisk⟩ := buildFile_of_refused config output hread hname hmake
    exact ⟨hdisk ▸ footprint_isOnTheWay hd hmake .refl, .inl ⟨_, houtcome⟩⟩

/-- **What building a file may have made and written**, whatever comes of it. -/
theorem footprint_buildFile (hd : d.WellFormed) :
    let after := (buildFile config output file d).disk
    Footprint (IsOnTheWay (outputFolder output file) after) (IsOutput config output file d after)
      d after := by
  intro after
  by_cases hreadable : IsReadable d file
  · obtain ⟨name, text, hname, hread⟩ := hreadable
    exact (build_of_readText config output hd hread hname).1
  · have hafter : after = d := (buildFile_of_not_readable config output hreadable).1
    rw [hafter]
    exact .refl d

/-- **Where the output goes**: where it is asked for, if that says anything, and else into the folder
`built` beside the file. -/
theorem outputFolder_eq (output : Option Path) (file : Path) : outputFolder output file =
    match output with
    | some (b :: given) => b :: given
    | _ =>
      match file.parent? with
      | some (b :: parent) => Path.join (b :: parent) (Path.ofText "built".toList)
      | _ => Path.ofText "./built".toList := by
  have hdefault : file.defaultOutput = match file.parent? with
      | some (b :: parent) => Path.join (b :: parent) (Path.ofText "built".toList)
      | _ => Path.ofText "./built".toList := by
    unfold Path.defaultOutput
    rcases file.parent? with _ | _ | ⟨b, parent⟩ <;> rfl
  rcases output with _ | _ | ⟨b, given⟩
  · exact hdefault
  · exact hdefault
  · rfl

theorem outcome_buildFile_eq_ok_none_iff : (buildFile config output file d).outcome = .ok none
    ↔ file = [] ∨ d.isFile file = false ∨ file.messageName? = none := by
  constructor
  · intro houtcome
    by_contra hbuilt
    obtain ⟨-, hbuilt⟩ := not_or.1 hbuilt
    obtain ⟨hfile, hname⟩ := not_or.1 hbuilt
    rw [Bool.not_eq_false] at hfile
    obtain ⟨name, hname⟩ := Option.ne_none_iff_exists'.1 hname
    rw [buildFile_eq_buildMessage config output hfile hname] at houtcome
    exact outcome_buildMessage_ne config output file name d houtcome
  · rintro (rfl | hidle)
    · rfl
    · rw [buildFile_of_idle config output hidle]

theorem exists_of_compiled (hd : d.WellFormed) {c : Compiled}
    (h : (buildFile config output file d).outcome = .ok (some c)) : ∃ name text o,
      file.messageName? = some name ∧ d.readText file = .ok text ∧ c = compile config name text
        ∧ (buildFile config output file d).disk.folderAt? (outputFolder output file) = some o
        ∧ Delivered o c (buildFile config output file d).disk := by
  by_cases hreadable : IsReadable d file
  · obtain ⟨name, text, hname, hread⟩ := hreadable
    rcases (build_of_readText config output hd hread hname).2 with
      ⟨failure, hfailure⟩ | ⟨hcompiled, o, ho, hdelivered⟩
    · cases hfailure.symm.trans h
    · obtain rfl := Option.some.inj (Except.ok.inj (h.symm.trans hcompiled))
      exact ⟨name, text, o, hname, hread, rfl, ho, hdelivered⟩
  · obtain ⟨-, hnone, -⟩ := buildFile_of_not_readable config output hreadable
    exact absurd h (hnone c)

/-- **The effect of building a file** on a disk without links. It comes to nothing exactly if the path
is empty, leads to no file or gives the message no name, and then changes nothing; nor does a
definition change anything that is no text, and that is what it fails for. If it comes to a compiled
message, that is the compiled text of the file; the output folder and all folders above it are there,
each target that is enabled has its file in the output folder, and all other places show what they
did, but for folders on the way that were missing. Whatever comes of it, no definition file is made,
changed or removed, folders are made on the way to the output folder only, and only source files of the
message are written, directly in the output folder. That is the folder that is asked for, or `built`
beside the file where none is or the path of it is empty. -/
theorem buildFile_effect (config : Config) (output : Option Path) (file : Path) {disk : Disk}
    (hdisk : disk.WellFormed) :
    let build := buildFile config output file disk
    let after := build.disk
    let folder := outputFolder output file
    (folder = match output with
        | some (b :: given) => b :: given
        | _ =>
          match file.parent? with
          | some (b :: parent) => Path.join (b :: parent) (Path.ofText "built".toList)
          | _ => Path.ofText "./built".toList)
      ∧ (build.outcome = .ok none
        ↔ file = [] ∨ disk.isFile file = false ∨ file.messageName? = none)
      ∧ (build.outcome = .ok none → after = disk)
      ∧ (∀ name contents, file.messageName? = some name → disk.readFile file = .ok contents →
        Utf8.decode? contents = none →
        build.outcome = .error (.io file .invalidUtf8) ∧ after = disk)
      ∧ (∀ c, build.outcome = .ok (some c) → ∃ name text o,
        file.messageName? = some name ∧ disk.readText file = .ok text ∧ c = compile config name text
          ∧ (∀ p ∈ folder :: folder.ancestors, p ≠ [] → after.isFolder p = true)
          ∧ after.LeadsTo folder o
          ∧ (∀ t, config.targets.isEnabled t = true → ∃ f, c.file? t = some f
            ∧ after.root.get? (o ++ [Path.fileName name t]) = some (.file (Utf8.encode f.contents)))
          ∧ Footprint (IsOnTheWay folder after) (IsSource config name text o) disk after)
      ∧ (∀ q n contents, Path.isDefinitionName n = true →
        (after.root.get? (q ++ [n]) = some (.file contents)
          ↔ disk.root.get? (q ++ [n]) = some (.file contents)))
      ∧ Footprint (IsOnTheWay folder after) (IsOutput config output file disk after) disk after := by
  intro build after folder
  have hfootprint : Footprint (IsOnTheWay folder after) (IsOutput config output file disk after)
      disk after := footprint_buildFile hdisk
  refine ⟨outputFolder_eq output file, outcome_buildFile_eq_ok_none_iff, fun hnone => ?_,
    fun name contents hname hread hdecode => ?_, fun c hcompiled => ?_, fun q n contents hn => ?_,
    hfootprint⟩
  · rcases outcome_buildFile_eq_ok_none_iff.1 hnone with rfl | hidle
    · rfl
    · exact congrArg FileBuild.disk (buildFile_of_idle config output hidle)
  · have hfind := readFile_eq_ok_iff.1 hread
    have htext : disk.readText file = .error .invalidUtf8 := by
      rw [readText_of_find hfind, hdecode]
    exact buildFile_of_readText_eq_error config output (isFile_of_find hfind) hname htext
  · obtain ⟨name, text, o, hname, hread, rfl, ho, hdelivered⟩ := exists_of_compiled hdisk hcompiled
    have hafter : after.WellFormed := (grown_buildFile config output hdisk file).wellFormed hdisk
    refine ⟨name, text, o, hname, hread, rfl, fun p hp hne => ?_, hafter.leadsTo ho, fun t ht => ?_, ?_⟩
    · rw [isFolder_eq_true_iff hafter]
      rcases List.mem_cons.1 hp with rfl | hp
      · exact ⟨o, ho⟩
      · exact exists_folderAt?_of_mem_ancestors hafter ho hp hne
    · have hfile := Compiled.file?_compile ht name text
      exact ⟨_, hfile, hdelivered _ (List.mem_of_find?_eq_some hfile)⟩
    · refine hfootprint.mono (fun _ h => h) ?_
      rintro q contents ⟨name', text', o', hname', hread', ho', hsource⟩
      -- what may be written is the output of this one definition, since its name and text are known
      obtain rfl := Option.some.inj (hname.symm.trans hname')
      obtain rfl := Except.ok.inj (hread.symm.trans hread')
      rwa [(hafter.leadsTo ho).unique ho']
  · -- source files have other extensions
    refine hfootprint.get?_eq_file_iff ?_
    rintro c ⟨name, text, o, -, -, -, hsource⟩
    exact Bool.false_ne_true (hsource.isDefinitionName.symm.trans hn)

/-- Two definitions in a folder, of which one is no text. -/
def halfReadable : Disk where
  root := .folder [(Path.ofText "in".toList, .folder [
    (Path.ofText "A.msg".toList, .file (Path.ofText "int x".toList)),
    (Path.ofText "B.msg".toList, .file [0xFF])])]
  folder := []

/-- For two targets and into a folder of which nothing is there yet, the one definition is compiled,
which leaves the other; that one changes nothing, nor does a folder. Without an output folder, and with
an empty path of one, the source goes into the folder `built` beside the definition, wherever one is. -/
theorem buildFile_effect_halfReadable :
    let both : Config := { targets := { python := true } }
    let folder := Path.ofText "out/deep".toList
    let text := Path.ofText "in/A.msg".toList
    let noText := Path.ofText "in/B.msg".toList
    let built := buildFile both (some folder) text halfReadable
    let inside : Disk := { halfReadable with folder := [Path.ofText "in".toList] }
    built.outcome = .ok (some (compile both "A".toList "int x".toList))
      ∧ built.disk.isFolder (Path.ofText "out".toList) = true
      ∧ (∃ o contents, built.disk.LeadsTo folder o
        ∧ built.disk.root.get? (o ++ [Path.ofText "A.py".toList]) = some (.file contents))
      ∧ built.disk.root.get? [Path.ofText "in".toList, Path.ofText "B.msg".toList]
        = some (.file [0xFF])
      ∧ (buildFile both (some folder) noText halfReadable).outcome = .error (.io noText .invalidUtf8)
      ∧ (buildFile both (some folder) (Path.ofText "in".toList) halfReadable).disk = halfReadable
      ∧ (∃ o contents, (buildFile both none text halfReadable).disk.LeadsTo
          (Path.ofText "in/built".toList) o
        ∧ (buildFile both none text halfReadable).disk.root.get? (o ++ [Path.ofText "A.py".toList])
          = some (.file contents))
      ∧ ∃ o contents, (buildFile both (some []) (Path.ofText "A.msg".toList) inside).disk.LeadsTo
          (Path.ofText "./built".toList) o
        ∧ (buildFile both (some []) (Path.ofText "A.msg".toList) inside).disk.root.get?
          (o ++ [Path.ofText "A.py".toList]) = some (.file contents) := by
  intro both folder text noText built inside
  have hdisk : halfReadable.WellFormed := ⟨by decide, _, rfl⟩
  have hinside : inside.WellFormed := ⟨by decide, _, rfl⟩
  obtain ⟨-, -, -, hnoText, -⟩ := buildFile_effect both (some folder) noText hdisk
  obtain ⟨-, hidle, hsame, -⟩ := buildFile_effect both (some folder) (Path.ofText "in".toList) hdisk
  obtain ⟨-, -, -, -, hcompiled, hdefinitions, -⟩ := buildFile_effect both (some folder) text hdisk
  obtain ⟨hbeside, -, -, -, hdefault, -⟩ := buildFile_effect both none text hdisk
  obtain ⟨hhere, -, -, -, hempty, -⟩ :=
    buildFile_effect both (some []) (Path.ofText "A.msg".toList) hinside
  replace hbeside : outputFolder none text = Path.ofText "in/built".toList := hbeside.trans rfl
  replace hhere : outputFolder (some []) (Path.ofText "A.msg".toList)
      = Path.ofText "./built".toList := hhere.trans rfl
  obtain ⟨name, _, o, hname, -, -, houter, ho, hfiles, -⟩ := hcompiled _ rfl
  obtain rfl : name = "A".toList := Option.some.inj (hname.symm.trans rfl)
  obtain ⟨f, -, hf⟩ := hfiles .python rfl
  refine ⟨rfl, houter _ (by decide) (by decide), ⟨o, _, ho, hf⟩, ?_, ?_, ?_, ?_, ?_⟩
  · exact (hdefinitions [Path.ofText "in".toList] _ _ (by decide)).2 rfl
  · exact (hnoText "B".toList [0xFF] (by decide +kernel) rfl (by decide)).1
  · exact hsame (hidle.2 (.inr (.inl (by decide))))
  · obtain ⟨name, _, o, hname, -, -, -, ho, hfiles, -⟩ := hdefault _ rfl
    obtain rfl : name = "A".toList := Option.some.inj (hname.symm.trans rfl)
    obtain ⟨f, -, hf⟩ := hfiles .python rfl
    exact ⟨o, _, hbeside ▸ ho, hf⟩
  · obtain ⟨name, _, o, hname, -, -, -, ho, hfiles, -⟩ := hempty _ rfl
    obtain rfl : name = "A".toList := Option.some.inj (hname.symm.trans rfl)
    obtain ⟨f, -, hf⟩ := hfiles .python rfl
    exact ⟨o, _, hhere ▸ ho, hf⟩

end MessageCompiler.Build
