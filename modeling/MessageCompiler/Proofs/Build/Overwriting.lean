import Mathlib.Data.List.Nodup
import MessageCompiler.Proofs.Build.Deliveries
import MessageCompiler.Proofs.Build.Turns

/-!
# Which generated files last

All definitions of a folder are delivered to one output folder, and a generated file is told by the
name of its message and its target. So two definitions get in the way of each other exactly if their
messages have the same name, and then the one that is compiled last is found on disk in the end.

* **`outputPath_eq_iff`**: when two definitions of a folder are compiled to the same path.
* **`save_eq_attempt_of_ne_link`**: where no link is in the way, source files are saved by alterations.
* **`Delivered.buildFile`**: what is delivered lasts, until a message of the same name is compiled.
* **`last_generated`**: after a folder is built each name of a message stands for what was compiled
  last under it.
-/

namespace MessageCompiler.Build

open Disk

variable {config : Config} {output : Option Path} {d e : Disk} {folder : Path} {o : Place}

/-! ## Output paths -/

/-- The path that a source file of a definition is saved under. -/
def outputPath (output : Option Path) (file : Path) (message : Text) (t : Target) : Path :=
  (outputFolder output file).join (Path.fileName message t)

/-- **The definitions of a folder share one output folder.** -/
theorem outputFolder_join (output : Option Path) (hfolder : folder ≠ []) {name name' : Utf8.Bytes}
    (hname : Path.IsName name) (hname' : Path.IsName name') :
    outputFolder output (folder.join name) = outputFolder output (folder.join name') := by
  by_cases h : output.getD [] = []
  · obtain ⟨parent, -, -, -, hdefault⟩ := Path.defaultOutput_join hfolder
    rw [outputFolder_of_default h, outputFolder_of_default h, hdefault hname, hdefault hname']
  · rw [outputFolder_of_given h, outputFolder_of_given h]

/-- **Two definitions of a folder are compiled to the same path** exactly if they are of one message,
and for one target. -/
theorem outputPath_eq_iff (hfolder : folder ≠ []) {name name' : Utf8.Bytes}
    (hname : Path.IsName name) (hname' : Path.IsName name') {message message' : Text}
    (hmessage : '/' ∉ message) (hmessage' : '/' ∉ message') (t t' : Target) :
    outputPath output (folder.join name) message t = outputPath output (folder.join name') message' t'
      ↔ message = message' ∧ t = t' := by
  rw [outputPath, outputPath, outputFolder_join output hfolder hname hname']
  constructor
  · intro h
    exact Path.fileName_injective
      (Path.join_injective (Path.isName_fileName hmessage t) (Path.isName_fileName hmessage' t') h)
  · rintro ⟨rfl, rfl⟩
    rfl

/-! ## Saving where no link is in the way -/

/-- Where no link is in the way, source files are saved by alterations in the folder that takes
them. -/
theorem save_eq_attempt_of_ne_link (hd : d.Orderly) (ho : d.LeadsTo folder o)
    {files : List SourceFile} (hnames : ∀ file ∈ files, Path.IsName (Path.ofText file.name))
    (hlinks : ∀ file ∈ files, ∀ target,
      d.root.get? (o ++ [Path.ofText file.name]) ≠ some (.link target)) :
    ((save config folder files d).failure.isNone, (save config folder files d).disk)
      = attempt (files.map (writing o)) d := by
  induction files generalizing d with
  | nil => rfl
  | cons file rest ih =>
    have hname := hnames file List.mem_cons_self
    have hwrite := ho.write_join hd hname (hlinks file List.mem_cons_self) (Utf8.encode file.contents)
    rw [save]
    dsimp only
    by_cases hfolder : d.root.IsFolderAt (o ++ [Path.ofText file.name])
    · rw [attempt_writings_of_isFolderAt hfolder]
      obtain ⟨es, hes⟩ := hfolder
      rw [hes] at hwrite
      rw [hwrite]
      rfl
    · have hput : d.write (folder.join (Path.ofText file.name)) (Utf8.encode file.contents)
          = .ok (d.put (o ++ [Path.ofText file.name]) (.file (Utf8.encode file.contents))) := by
        rw [hwrite]
        split
        · next es hes => exact absurd ⟨es, hes⟩ hfolder
        · rfl
      -- no link comes in by writing, so the files that are left have none in their way either
      have hextended := extended_write hd hput
      rw [hput, attempt_writings_of_not_isFolderAt hfolder]
      exact ih (hextended.orderly hd) (hextended.leadsTo ho)
        (fun f hf => hnames f (List.mem_cons_of_mem _ hf)) fun f hf target hlink =>
          hlinks f (List.mem_cons_of_mem _ hf) target (hextended.get?_eq_link_iff.1 hlink)

/-! ## What writing leaves -/

section Writings

variable {files : List SourceFile}

theorem apart_writing {file file' : SourceFile} (h : Path.ofText file.name ≠ Path.ofText file'.name) :
    (writing o file).place.Apart (writing o file').place := Place.Apart.of_ne o h

/-- **Files that are all written are there in the end**, if they have different names. -/
theorem get?_attempt_writings (hnodup : (files.map (Path.ofText ·.name)).Nodup)
    (h : (attempt (files.map (writing o)) d).1 = true) {file : SourceFile} (hfile : file ∈ files) :
    (attempt (files.map (writing o)) d).2.root.get? (o ++ [Path.ofText file.name])
      = some (.file (Utf8.encode file.contents)) := by
  induction files generalizing d with
  | nil => exact absurd hfile List.not_mem_nil
  | cons first rest ih =>
    obtain ⟨hfirst, hrest⟩ := List.nodup_cons.1 hnodup
    by_cases hfolder : d.root.IsFolderAt (o ++ [Path.ofText first.name])
    · rw [attempt_writings_of_isFolderAt hfolder] at h
      cases h
    rw [attempt_writings_of_not_isFolderAt hfolder] at h ⊢
    rcases List.mem_cons.1 hfile with rfl | hfile
    · -- the files after the first are written elsewhere
      rw [get?_attempt]
      · exact Node.get?_put_self _ _ _
      · intro a ha
        obtain ⟨f, hf, rfl⟩ := List.mem_map.1 ha
        exact apart_writing fun heq => hfirst (List.mem_map.2 ⟨f, hf, heq⟩)
    · exact ih hrest h hfile

theorem attempt_writings_of_files (hnodup : (files.map (Path.ofText ·.name)).Nodup)
    (hthere : ∀ file ∈ files, ∃ c, d.root.get? (o ++ [Path.ofText file.name]) = some (.file c)) :
    (attempt (files.map (writing o)) d).1 = true := by
  induction files generalizing d with
  | nil => rfl
  | cons first rest ih =>
    obtain ⟨hfirst, hrest⟩ := List.nodup_cons.1 hnodup
    obtain ⟨c, hc⟩ := hthere first List.mem_cons_self
    have hfree : ¬ d.root.IsFolderAt (o ++ [Path.ofText first.name]) := fun ⟨es, hes⟩ => by
      cases hc.symm.trans hes
    rw [attempt_writings_of_not_isFolderAt hfree]
    refine ih hrest fun file hfile => ?_
    have hapart : (writing o first).place.Apart (o ++ [Path.ofText file.name]) :=
      Place.Apart.of_ne o fun heq => hfirst (List.mem_map.2 ⟨file, hfile, heq.symm⟩)
    obtain ⟨c', hc'⟩ := hthere file (List.mem_cons_of_mem _ hfile)
    exact ⟨c', (Node.get?_put_apart _ hapart d.root).trans hc'⟩

end Writings

/-! ## What is delivered lasts -/

theorem map_name_files (config : Config) (message text : Text) :
    (compile config message text).files.map (Path.ofText ·.name)
      = config.targets.enabled.map (Path.fileName message) := by
  show (config.targets.enabled.map _).map _ = _
  rw [List.map_map]
  rfl

theorem nodup_name_files (config : Config) (message text : Text) :
    ((compile config message text).files.map (Path.ofText ·.name)).Nodup := by
  have hall : Target.all.Nodup := by decide
  rw [map_name_files]
  exact (hall.filter _).map fun t t' h => (Path.fileName_injective h).2

theorem exists_target_of_mem_files {message text : Text} {file : SourceFile}
    (h : file ∈ (compile config message text).files) :
    ∃ t, config.targets.isEnabled t = true ∧ Path.ofText file.name = Path.fileName message t := by
  have hmem : Path.ofText file.name ∈ (compile config message text).files.map (Path.ofText ·.name) :=
    List.mem_map_of_mem (f := fun f : SourceFile => Path.ofText f.name) h
  rw [map_name_files] at hmem
  obtain ⟨t, ht, hname⟩ := List.mem_map.1 hmem
  exact ⟨t, Targets.mem_enabled.1 ht, hname.symm⟩

/-- The source files of a compiled definition are in the folder at a place. -/
def Delivered (o : Place) (c : Compiled) (d : Disk) : Prop :=
  ∀ file ∈ c.files,
    d.root.get? (o ++ [Path.ofText file.name]) = some (.file (Utf8.encode file.contents))

/-- No link in the folder at a place has the name of a source file of the message. -/
def Unlinked (config : Config) (o : Place) (message : Text) (d : Disk) : Prop :=
  ∀ t, config.targets.isEnabled t = true → ∀ target,
    d.root.get? (o ++ [Path.fileName message t]) ≠ some (.link target)

theorem Unlinked.of_extended {message : Text} (h : Unlinked config o message e)
    (hextended : d.Extended e) : Unlinked config o message d := fun t ht target hlink =>
  h t ht target (hextended.get?_eq_link_iff.2 hlink)

theorem save_eq_attempt_of_unlinked (hd : d.Orderly) (ho : d.LeadsTo folder o) {message : Text}
    (hslash : '/' ∉ message) (hlinks : Unlinked config o message d) (text : Text) :
    let files := (compile config message text).files
    ((save config folder files d).failure.isNone, (save config folder files d).disk)
      = attempt (files.map (writing o)) d := by
  refine save_eq_attempt_of_ne_link hd ho (fun file hfile => ?_) fun file hfile => ?_
  · obtain ⟨t, -, hname⟩ := exists_target_of_mem_files hfile
    rw [hname]
    exact Path.isName_fileName hslash t
  · obtain ⟨t, ht, hname⟩ := exists_target_of_mem_files hfile
    rw [hname]
    exact hlinks t ht

/-- **A definition that is compiled is delivered**, unless a link is in the way. -/
theorem delivered_of_compiled (hd : d.Orderly) {file : Path} {c : Compiled}
    (hslash : ∀ message, file.messageName? = some message → '/' ∉ message)
    (hcompiled : (buildFile config output file d).outcome = .ok (some c)) :
    ∃ o text, file.messageName? = some c.name ∧ c = compile config c.name text
      ∧ (buildFile config output file d).disk.LeadsTo (outputFolder output file) o
      ∧ (Unlinked config o c.name (buildFile config output file d).disk →
        Delivered o c (buildFile config output file d).disk) := by
  rcases buildFile_cases config output file d with ⟨-, hnone⟩ | ⟨_, _, -, -, hnone⟩
    | ⟨message, text, e, hmessage, hmake, hdisk, houtcome⟩
  · exact absurd hcompiled (hnone c)
  · exact absurd hcompiled (hnone c)
  · -- the output folder is there now, and saving has not failed
    have he := (extended_makeFolders hd hmake).orderly hd
    obtain ⟨o, ho⟩ := isFolder_iff.1
      (isFolder_of_makeFolders hd (outputFolder_ne_nil output file) hmake)
    have hsaved := extended_save config he (outputFolder output file)
      (compile config message text).files
    rw [hcompiled] at houtcome
    cases hfailure : (save config (outputFolder output file) (compile config message text).files
      e).failure with
    | some failure =>
      rw [hfailure] at houtcome
      cases houtcome
    | none =>
      rw [hfailure] at houtcome
      -- the build has come to its source, so nothing was refused and all files are there
      obtain rfl : c = compile config message text := Option.some.inj (Except.ok.inj houtcome)
      rw [hdisk]
      refine ⟨o, text, hmessage, rfl, hsaved.leadsTo ho, fun hlinks => ?_⟩
      have hsave := save_eq_attempt_of_unlinked he ho (hslash message hmessage)
        (hlinks.of_extended hsaved) text
      obtain ⟨hdone, hend⟩ := Prod.mk.inj hsave
      rw [hfailure] at hdone
      intro f hf
      rw [hend]
      exact get?_attempt_writings (nodup_name_files config message text) hdone.symm hf

section Later

variable {message text : Text}

/-- **What is delivered lasts** while another file of the folder is built, unless that is compiled as
the same message. -/
theorem Delivered.buildFile (h : Delivered o (compile config message text) d) (hd : d.Orderly)
    {file : Path} (ho : d.LeadsTo (outputFolder output file) o)
    (hslash : ∀ m, file.messageName? = some m → '/' ∉ m)
    (hlinks : ∀ m, file.messageName? = some m → Unlinked config o m d)
    (hother : ∀ c, (buildFile config output file d).outcome = .ok (some c) → c.name ≠ message) :
    Delivered o (compile config message text) (buildFile config output file d).disk := by
  -- the output folder is there, so a build can only save its files in it
  have hmade := makeFolders_of_isFolder hd (isFolder_iff.2 ⟨o, ho⟩)
  rcases buildFile_cases config output file d with ⟨hdisk, -⟩ | ⟨_, _, hmake, -⟩
    | ⟨m, t, e, hm, hmake, hdisk, houtcome⟩
  · rwa [hdisk]
  · cases (Prod.mk.inj (hmade.symm.trans hmake)).2
  · obtain rfl := (Prod.mk.inj (hmade.symm.trans hmake)).1
    obtain ⟨hdone, hend⟩ := Prod.mk.inj
      (save_eq_attempt_of_unlinked hd ho (hslash m hm) (hlinks m hm) t)
    rw [hdisk, hend]
    by_cases hname : m = message
    · -- the same message again could not fail any more
      subst hname
      have hnodup := nodup_name_files config m t
      have hthere : ∀ f ∈ (compile config m t).files,
          ∃ c, d.root.get? (o ++ [Path.ofText f.name]) = some (.file c) := fun f hf => by
        have hmem := List.mem_map_of_mem (f := fun f : SourceFile => Path.ofText f.name) hf
        rw [map_name_files, ← map_name_files config m text] at hmem
        obtain ⟨g, hg, hname⟩ := List.mem_map.1 hmem
        have hget := h g hg
        rw [hname] at hget
        exact ⟨_, hget⟩
      rw [attempt_writings_of_files hnodup hthere, Option.isNone_iff_eq_none] at hdone
      rw [hdone] at houtcome
      exact absurd rfl (hother _ houtcome)
    · intro f hf
      have hapart : ∀ a ∈ (compile config m t).files.map (writing o),
          a.place.Apart (o ++ [Path.ofText f.name]) := fun a ha =>
        apart_of_mem_writings (.inr hname) ha (List.mem_map_of_mem (f := writing o) hf)
      rw [get?_attempt hapart]
      exact h f hf

/-- **What is delivered lasts while the other files of the folder are built**, as long as none of them
is compiled as the same message. -/
theorem Delivered.inTurn (h : Delivered o (compile config message text) d) (hd : d.Orderly)
    {files : List Path} (ho : ∀ file ∈ files, d.LeadsTo (outputFolder output file) o)
    (hslash : ∀ file ∈ files, ∀ m, file.messageName? = some m → '/' ∉ m)
    (hlinks : ∀ file ∈ files, ∀ m, file.messageName? = some m → Unlinked config o m
      (Build.inTurn (countFile config output) files d).disk)
    (hother : ∀ turn ∈ turns (countFile config output) files d, ∀ c,
      (Build.buildFile config output turn.1 turn.2).outcome = .ok (some c) → c.name ≠ message) :
    Delivered o (compile config message text)
      (Build.inTurn (countFile config output) files d).disk := by
  induction files generalizing d with
  | nil => exact h
  | cons file rest ih =>
    have hextended := extended_buildFile config output hd file
    have hrest : (Build.buildFile config output file d).disk.Extended
        (Build.inTurn (countFile config output) rest (Build.buildFile config output file d).disk).disk :=
      Keeps.inTurn (fun file _ => keeps_extended_countFile config output (hextended.orderly hd) file)
        _ .refl
    -- no link goes, so one that is not there in the end is in nobody's way
    have hfirst := h.buildFile hd (ho file List.mem_cons_self) (hslash file List.mem_cons_self)
      (fun m hm => (hlinks file List.mem_cons_self m hm).of_extended (hextended.trans hrest))
      (hother (file, d) List.mem_cons_self)
    exact ih hfirst (hextended.orderly hd)
      (fun f hf => hextended.leadsTo (ho f (List.mem_cons_of_mem _ hf)))
      (fun f hf => hslash f (List.mem_cons_of_mem _ hf))
      (fun f hf => hlinks f (List.mem_cons_of_mem _ hf))
      fun turn hturn => hother turn (List.mem_cons_of_mem _ hturn)

end Later

/-! ## After a folder is built -/

/-- The definition files of a folder, each with what becomes of it when the folder is built. -/
def outcomes (config : Config) (output : Option Path) (folder : Path) (disk : Disk) :
    List (Path × Outcome) :=
  (turns (countFile config output) (definitionsIn disk folder) disk).map fun turn =>
    (turn.1, (buildFile config output turn.1 turn.2).outcome)

theorem slash_not_mem_of_mem_definitionsIn (hd : d.Orderly) {file : Path}
    (h : file ∈ definitionsIn d folder) {message : Text} (hmessage : file.messageName? = some message) :
    '/' ∉ message := by
  obtain ⟨-, name, hname, rfl⟩ := exists_name_of_mem_definitionsIn hd h
  rw [Path.messageName?_join folder hname] at hmessage
  exact (Path.messageOf?_eq_some hname hmessage).2

theorem Delivered.readFile {message text : Text} (h : Delivered o (compile config message text) d)
    (hd : d.Orderly) (ho : d.LeadsTo folder o) (hslash : '/' ∉ message) :
    ∀ generated ∈ (compile config message text).files,
      d.readFile (folder.join (Path.ofText generated.name)) = .ok (Utf8.encode generated.contents) := by
  intro generated hgenerated
  have hget := h generated hgenerated
  obtain ⟨t, -, hname⟩ := exists_target_of_mem_files hgenerated
  have hlocate := ho.locate_join hd (hname ▸ Path.isName_fileName hslash t) fun target hlink => by
    cases hget.symm.trans hlink
  rw [hget, Option.isSome_some, if_pos rfl] at hlocate
  exact readFile_eq_ok_iff.2 (find_eq_ok_iff.2 ⟨_, hlocate, hget⟩)

/-- **A definition that is compiled is delivered for good**, if no definition after it is compiled
under the same name and no link is in the way. -/
theorem delivered_buildFolder (hd : d.Orderly) {before later : List (Path × Outcome)} {file : Path}
    {c : Compiled}
    (houtcomes : outcomes config output folder d = before ++ (file, .ok (some c)) :: later)
    (hother : ∀ file' c', (file', .ok (some c')) ∈ later → c'.name ≠ c.name)
    (hnolink : ∀ file' ∈ definitionsIn d folder, ∀ message, file'.messageName? = some message →
      ∀ t, config.targets.isEnabled t = true → (buildFolder config output folder d).disk.hasLink
        (outputFolder output file) (Path.fileName message t) = false) :
    ∃ o text, c = compile config c.name text ∧ '/' ∉ c.name
      ∧ (buildFolder config output folder d).disk.LeadsTo (outputFolder output file) o
      ∧ Delivered o c (buildFolder config output folder d).disk := by
  -- the disk that the file finds, the one that it leaves, and the one in the end
  obtain ⟨turnsBefore, turnsAfter, hturns, -, hlater⟩ := List.map_eq_append_iff.1 houtcomes
  obtain ⟨⟨f, found⟩, turnsLater, rfl, hfile, rfl⟩ := List.map_eq_cons_iff.1 hlater
  obtain ⟨rfl, hcompiled⟩ := Prod.mk.inj hfile
  obtain ⟨l₁, l₂, hfiles, rfl, rfl, hend⟩ := turns_eq_append_cons hturns
  have hafter : (buildFolder config output folder d).disk = (inTurn (countFile config output) l₂
      (buildFile config output f (inTurn (countFile config output) l₁ d).disk).disk).disk :=
    (congrArg Prod.snd (buildFolder_result config output folder d)).trans hend
  have hrun {e : Disk} (he : e.Orderly) (l : List Path) :
      e.Extended (inTurn (countFile config output) l e).disk :=
    Keeps.inTurn (fun file _ => keeps_extended_countFile config output he file) _ .refl
  have hfound := (hrun hd l₁).orderly hd
  have hbuilt := (extended_buildFile config output hfound f).orderly hfound
  have hlast := hrun hbuilt l₂
  have hmem : f ∈ definitionsIn d folder := by simp [hfiles]
  have hrest : ∀ file' ∈ l₂, file' ∈ definitionsIn d folder := fun file' hfile' => by
    simp [hfiles, hfile']
  have hslash : ∀ file' ∈ definitionsIn d folder, ∀ m, file'.messageName? = some m → '/' ∉ m :=
    fun file' hfile' m => slash_not_mem_of_mem_definitionsIn hd hfile'
  obtain ⟨o, text, hmessage, hc, ho, hdelivered⟩ :=
    delivered_of_compiled hfound (hslash f hmem) hcompiled
  rw [hafter] at hnolink ⊢
  have hunlinked : ∀ file' ∈ definitionsIn d folder, ∀ m, file'.messageName? = some m →
      Unlinked config o m _ := fun file' hfile' m hm t ht =>
    (hlast.leadsTo ho).ne_link (hnolink file' hfile' m hm t ht)
  have hfirst := hdelivered ((hunlinked f hmem c.name hmessage).of_extended hlast)
  refine ⟨o, text, hc, hslash f hmem c.name hmessage, hlast.leadsTo ho, ?_⟩
  rw [hc] at hfirst ⊢
  refine hfirst.inTurn hbuilt (fun file' hfile' => ?_)
    (fun file' hfile' => hslash file' (hrest _ hfile'))
    (fun file' hfile' => hunlinked file' (hrest _ hfile')) fun turn hturn c' hc' => ?_
  · obtain ⟨hfolder, name, hname, rfl⟩ := exists_name_of_mem_definitionsIn hd hmem
    obtain ⟨-, name', hname', rfl⟩ := exists_name_of_mem_definitionsIn hd (hrest _ hfile')
    rwa [outputFolder_join output hfolder hname' hname]
  · exact hother turn.1 c' (List.mem_map.2 ⟨turn, hturn, by rw [hc']⟩)

/-- **After a folder is built each message name stands for what was compiled last under it.** Two
definitions of the folder are compiled to the same path exactly if their messages have the same name;
and the source files of a compiled definition are on disk as they were generated, if no definition
after it is compiled under the same name and no link of such a name is in the output folder. -/
theorem last_generated (config : Config) (output : Option Path) (folder : Path) {disk : Disk}
    (hdisk : disk.Orderly) :
    let after := (buildFolder config output folder disk).disk
    (∀ file ∈ definitionsIn disk folder, ∀ file' ∈ definitionsIn disk folder, ∀ message message',
      file.messageName? = some message → file'.messageName? = some message' → ∀ t t',
        (outputPath output file message t = outputPath output file' message' t'
          ↔ message = message' ∧ t = t'))
    ∧ ∀ before file c later,
      outcomes config output folder disk = before ++ (file, .ok (some c)) :: later →
      (∀ file' c', (file', .ok (some c')) ∈ later → c'.name ≠ c.name) →
      (∀ file' ∈ definitionsIn disk folder, ∀ message, file'.messageName? = some message →
        ∀ t, config.targets.isEnabled t = true →
          after.hasLink (outputFolder output file) (Path.fileName message t) = false) →
      ∀ generated ∈ c.files,
        after.readFile ((outputFolder output file).join (Path.ofText generated.name))
          = .ok (Utf8.encode generated.contents) := by
  intro after
  refine ⟨fun file hfile file' hfile' message message' hmessage hmessage' t t' => ?_, ?_⟩
  · have hslash := slash_not_mem_of_mem_definitionsIn hdisk hfile hmessage
    have hslash' := slash_not_mem_of_mem_definitionsIn hdisk hfile' hmessage'
    obtain ⟨hfolder, name, hname, rfl⟩ := exists_name_of_mem_definitionsIn hdisk hfile
    obtain ⟨-, name', hname', rfl⟩ := exists_name_of_mem_definitionsIn hdisk hfile'
    exact outputPath_eq_iff hfolder hname hname' hslash hslash' t t'
  · intro before file c later houtcomes hother hnolink
    obtain ⟨o, text, hc, hslash, ho, hdelivered⟩ := delivered_buildFolder hdisk houtcomes hother hnolink
    have hafter := (extended_buildFolder config output hdisk folder).orderly hdisk
    rw [hc] at hdelivered ⊢
    exact hdelivered.readFile hafter ho hslash

/-! ## Files that are lost -/

section Examples

/-- Two definitions whose names differ in the case of their first letter, and an output folder with a
link in it. -/
def sameName : Disk where
  root := .folder [(Path.ofText "A.msg".toList, .file (Path.ofText "int x".toList)),
    (Path.ofText "a.msg".toList, .file (Path.ofText "int y".toList)),
    (Path.ofText "built".toList,
      .folder [(Path.ofText "B.cs".toList, .link (Path.ofText "A.cs".toList))])]
  folder := []

theorem orderly_sameName : sameName.Orderly := by
  refine ⟨.folder (by decide) fun e he => ?_, _, rfl⟩
  rcases List.mem_cons.1 he with rfl | he
  · exact ⟨by decide, .file _⟩
  rcases List.mem_cons.1 he with rfl | he
  · exact ⟨by decide, .file _⟩
  rw [List.mem_singleton.1 he]
  refine ⟨by decide, .folder (by decide) fun e he => ?_⟩
  rw [List.mem_singleton.1 he]
  exact ⟨by decide, .link _⟩

/-- Of the two definitions whose messages have one name the second lasts. -/
theorem last_generated_sameName :
    let c := compile {} "A".toList "int x".toList
    let c' := compile {} "A".toList "int y".toList
    let file := Path.ofText "./A.msg".toList
    let file' := Path.ofText "./a.msg".toList
    outcomes {} none Path.here sameName = [(file, .ok (some c)), (file', .ok (some c'))]
      ∧ outputPath none file "A".toList .csharp = outputPath none file' "A".toList .csharp
      ∧ ∀ generated ∈ c'.files, (buildFolder {} none Path.here sameName).disk.readFile
        ((outputFolder none file').join (Path.ofText generated.name))
          = .ok (Utf8.encode generated.contents) := by
  intro c c' file file'
  have houtcomes : outcomes {} none Path.here sameName
      = [(file, .ok (some c)), (file', .ok (some c'))] := rfl
  have hnames : ∀ f ∈ definitionsIn sameName Path.here, f.messageName? = some "A".toList := by
    decide +kernel
  have hlinks : (buildFolder {} none Path.here sameName).disk.hasLink (outputFolder none file')
      (Path.fileName "A".toList .csharp) = false := by decide +kernel
  obtain ⟨hpaths, hlast⟩ := last_generated {} none Path.here orderly_sameName
  refine ⟨houtcomes, ?_, ?_⟩
  · exact (hpaths file (by decide +kernel) file' (by decide +kernel) _ _ (hnames _ (by decide +kernel))
      (hnames _ (by decide +kernel)) .csharp .csharp).2 ⟨rfl, rfl⟩
  · refine hlast [(file, .ok (some c))] file' c' [] houtcomes
      (fun _ _ h => absurd h List.not_mem_nil) fun f hf message hmessage t ht => ?_
    obtain rfl := Option.some.inj ((hnames f hf).symm.trans hmessage)
    cases t with
    | csharp => exact hlinks
    | python => cases ht

/-- Two definitions, and an output folder in which the source file of the one is a link to that of the
other. -/
def linkedFile : Disk where
  root := .folder [(Path.ofText "A.msg".toList, .file (Path.ofText "int x".toList)),
    (Path.ofText "B.msg".toList, .file (Path.ofText "int y".toList)),
    (Path.ofText "built".toList,
      .folder [(Path.ofText "A.cs".toList, .link (Path.ofText "B.cs".toList))])]
  folder := []

/-- A file of a folder is compiled, and in the end one of its source files is not as it was
generated. -/
def Loses (config : Config) (output : Option Path) (folder : Path) (disk : Disk) : Prop :=
  ∃ file c, (file, .ok (some c)) ∈ outcomes config output folder disk ∧ ∃ generated ∈ c.files,
    (buildFolder config output folder disk).disk.readFile
      ((outputFolder output file).join (Path.ofText generated.name))
        ≠ .ok (Utf8.encode generated.contents)

/-- **A generated file may be lost**: two files of a folder are compiled to one path and the first
source is gone, or a link leads from the path of one source file to that of another. -/
theorem exists_loses :
    (∃ file ∈ definitionsIn sameName Path.here, ∃ file' ∈ definitionsIn sameName Path.here,
      file ≠ file' ∧ ∃ message message', file.messageName? = some message
        ∧ file'.messageName? = some message'
        ∧ outputPath none file message .csharp = outputPath none file' message' .csharp)
    ∧ Loses {} none Path.here sameName ∧ Loses {} none Path.here linkedFile := by
  refine ⟨⟨Path.ofText "./A.msg".toList, by decide +kernel, Path.ofText "./a.msg".toList,
    by decide +kernel, by decide, "A".toList, "A".toList, by decide +kernel, by decide +kernel,
    by decide +kernel⟩, ?_, ?_⟩
  · exact ⟨Path.ofText "./A.msg".toList, compile {} "A".toList "int x".toList, List.mem_cons_self, _,
      List.mem_cons_self, by decide +kernel⟩
  · exact ⟨Path.ofText "./A.msg".toList, compile {} "A".toList "int x".toList, List.mem_cons_self, _,
      List.mem_cons_self, by decide +kernel⟩

end Examples

end MessageCompiler.Build
