import MessageCompiler.Proofs.Build.Effect
import MessageCompiler.Proofs.Build.Rebuilding
import MessageCompiler.Proofs.Disk.Remaking

/-!
# The files of a folder do not disturb each other

The definitions of a folder share an output folder, and each finds there what the others have left.
If their messages have different names, that makes no difference to it: the output folder is made by
the first one or by none, and a definition looks at no files there but its own.

* **`SameFiles.save`, `SameFiles.save_other`**: saving the files of one message, and those of another.
* **`isolated_of_made`, `isolated_of_refused`**: one definition among the others of its folder, if the
  output folder can be made and if not.
* **`commutes_countFile`**: two definitions of a folder in either order.
* **`definitions_isolated`**: each definition comes to what it comes to alone, in any order.
-/

namespace MessageCompiler.Build

open Disk

variable (config : Config) (output : Option Path) {d e x : Disk} {folder file : Path} {o : Place}
  {name other text : Text} {cause cause' : Cause}

/-! ## The files of one message in the output folder -/

/-- On both disks a path leads to the folder at a place, and both have the same there under the names
of the source files of a message. -/
structure SameFiles (folder : Path) (o : Place) (name : Text) (ref d : Disk) : Prop where
  folderAt?_ref : ref.folderAt? folder = some o
  folderAt? : d.folderAt? folder = some o
  get? : ∀ t, d.root.get? (o ++ [Path.fileName name t]) = ref.root.get? (o ++ [Path.fileName name t])

namespace SameFiles

variable {ref : Disk}

theorem refl (ho : d.folderAt? folder = some o) : SameFiles folder o name d d :=
  ⟨ho, ho, fun _ => rfl⟩

/-- **Saving the files of the message** comes to the same on both disks, and leaves the same there. -/
theorem save (h : SameFiles folder o name e d) (hd : d.WellFormed) (he : e.WellFormed)
    (hslash : '/' ∉ name) (text : Text) :
    let files := (compile config name text).files
    (save config folder files d).failure = (save config folder files e).failure
      ∧ SameFiles folder o name (save config folder files e).disk (save config folder files d).disk := by
  intro files
  have hgenerated : ∀ f ∈ files, IsGenerated name f := isGenerated_of_mem_files config name text
  obtain ⟨hsave, hgrown⟩ := save_eq_attempt config hd h.folderAt? hslash hgenerated
  obtain ⟨hsave', hgrown'⟩ := save_eq_attempt config he h.folderAt?_ref hslash hgenerated
  constructor
  · have hsame : ∀ f ∈ files, isObstructed o d f = isObstructed o e f := fun f hf => by
      obtain ⟨t, -, ht⟩ := exists_target_of_mem_files hf
      rw [isObstructed, isObstructed, ht, h.get?]
    rw [failure_save config hd h.folderAt? hslash hgenerated,
      failure_save config he h.folderAt?_ref hslash hgenerated, ← List.head?_filter,
      ← List.head?_filter, List.filter_congr hsame]
  · refine ⟨hgrown'.folderAt? h.folderAt?_ref, hgrown.folderAt? h.folderAt?, fun t => ?_⟩
    -- only these files are at stake, and each is at a place of its own
    have hplaces : ∀ a ∈ files.map (writing o), ∃ t, a.place = o ++ [Path.fileName name t] := by
      intro a ha
      obtain ⟨f, hf, rfl⟩ := List.mem_map.1 ha
      obtain ⟨t, -, ht⟩ := exists_target_of_mem_files hf
      exact ⟨t, congrArg (o ++ [·]) ht⟩
    rw [(Prod.mk.inj hsave).2, (Prod.mk.inj hsave').2]
    refine (attempt_congr (fun p => ∃ t, p = o ++ [Path.fileName name t]) hplaces ?_ ?_).2 _ ⟨t, rfl⟩
    · rintro _ _ ⟨t, rfl⟩ ⟨t', rfl⟩
      by_cases heq : Path.fileName name t = Path.fileName name t'
      · exact .inl (congrArg (o ++ [·]) heq)
      · exact .inr (Place.Apart.of_ne o heq)
    · rintro _ ⟨t, rfl⟩
      exact h.get? t

/-- **Saving the files of another message** makes no difference to those of the message. -/
theorem save_other (h : SameFiles folder o name ref d) (hd : d.WellFormed) (hslash : '/' ∉ other)
    (hne : other ≠ name) (text : Text) : SameFiles folder o name ref
      (Build.save config folder (compile config other text).files d).disk := by
  obtain ⟨hsave, hgrown⟩ :=
    save_eq_attempt config hd h.folderAt? hslash (isGenerated_of_mem_files config other text)
  refine ⟨h.folderAt?_ref, hgrown.folderAt? h.folderAt?, fun t => ?_⟩
  rw [(Prod.mk.inj hsave).2, get?_attempt, h.get?]
  intro a ha
  obtain ⟨f, hf, rfl⟩ := List.mem_map.1 ha
  obtain ⟨t', -, ht'⟩ := exists_target_of_mem_files hf
  refine Place.Apart.of_ne o fun heq => hne ?_
  exact (Path.fileName_injective (ht'.symm.trans heq)).1

theorem readFile_eq {ref : Disk} (h : SameFiles folder o name ref d) (hd : d.WellFormed)
    (href : ref.WellFormed) (hslash : '/' ∉ name) (t : Target) :
    d.readFile (folder.join (Path.fileName name t))
      = ref.readFile (folder.join (Path.fileName name t)) := by
  have hname := Path.isName_fileName hslash t
  unfold readFile
  rw [find_join hd h.folderAt? hname, find_join href h.folderAt?_ref hname, h.get?]

end SameFiles

/-- The output folder can be made, and then the files of a message are there as on another disk. -/
def Prepared (folder : Path) (o : Place) (name : Text) (ref d : Disk) : Prop :=
  ∃ e, d.makeFolders folder = (e, none) ∧ SameFiles folder o name ref e

theorem SameFiles.prepared {ref : Disk} (h : SameFiles folder o name ref d) (hd : d.WellFormed) :
    Prepared folder o name ref d := ⟨d, makeFolders_again hd h.folderAt?, h⟩

/-! ## Builds of other files -/

section Others

variable {ref : Disk} (hfolder : outputFolder output file = folder)
  (hne : file.messageName? ≠ some name)
include hfolder hne

/-- **The build of another file** leaves the disk as it is, or the files of the message in the output
folder as they are. -/
theorem Prepared.disk_buildFile (h : Prepared folder o name ref d) (hd : d.WellFormed) :
    (buildFile config output file d).disk = d
      ∨ SameFiles folder o name ref (buildFile config output file d).disk := by
  obtain ⟨e, hmake, hsame⟩ := h
  by_cases hreadable : IsReadable d file
  · obtain ⟨m, text, hm, hread⟩ := hreadable
    subst hfolder
    rw [(buildFile_of_made config output hread hm hmake).1]
    refine .inr (hsame.save_other config ((grown_makeFolders hd hmake).wellFormed hd)
      (Path.slash_not_mem_messageName? hm) (fun heq => hne (heq ▸ hm)) text)
  · exact .inl (buildFile_of_not_readable config output hreadable).1

theorem keeps_prepared_countFile : Keeps (fun x => x.WellFormed ∧ Prepared folder o name ref x)
    (countFile config output file) := by
  rintro x ⟨hx, h⟩
  have hx' := (grown_buildFile config output hx file).wellFormed hx
  rcases h.disk_buildFile config output hfolder hne hx with hdisk | hsame
  · refine ⟨hx', ?_⟩
    rwa [show (countFile config output file x).disk = x from hdisk]
  · exact ⟨hx', hsame.prepared hx'⟩

theorem keeps_sameFiles_countFile : Keeps (fun x => x.WellFormed ∧ SameFiles folder o name ref x)
    (countFile config output file) := by
  rintro x ⟨hx, h⟩
  have hx' := (grown_buildFile config output hx file).wellFormed hx
  rcases (h.prepared hx).disk_buildFile config output hfolder hne hx with hdisk | hsame
  · refine ⟨hx', ?_⟩
    rwa [show (countFile config output file x).disk = x from hdisk]
  · exact ⟨hx', hsame⟩

end Others

/-! ## The build of the file itself -/

/-- **A definition that finds its output folder prepared** comes to what it comes to alone, and leaves
the same source files. -/
theorem Prepared.buildFile_own (h : Prepared (outputFolder output file) o name e x)
    (hx : x.WellFormed) (hd : d.WellFormed)
    (hmake : d.makeFolders (outputFolder output file) = (e, none))
    (hname : file.messageName? = some name) (hread : d.readText file = .ok text)
    (hread' : x.readText file = .ok text) :
    (buildFile config output file x).outcome = (buildFile config output file d).outcome
      ∧ SameFiles (outputFolder output file) o name (buildFile config output file d).disk
        (buildFile config output file x).disk := by
  obtain ⟨x', hmake', hsame⟩ := h
  obtain ⟨hdisk, houtcome⟩ := buildFile_of_made config output hread hname hmake
  obtain ⟨hdisk', houtcome'⟩ := buildFile_of_made config output hread' hname hmake'
  obtain ⟨hfailure, hfiles⟩ := hsame.save config ((grown_makeFolders hx hmake').wellFormed hx)
    ((grown_makeFolders hd hmake).wellFormed hd) (Path.slash_not_mem_messageName? hname) text
  rw [houtcome', houtcome, hdisk', hdisk, hfailure]
  exact ⟨rfl, hfiles⟩

/-- Two builds of a definition fail for its output folder, but for other causes: in making that folder
the first one gets only so far, and the second one finds what is there of it; and the path goes up on
its way, so that it is not the same way to both. -/
def RefusedOtherwise (config : Config) (output : Option Path) (file : Path) (d e : Disk) : Prop :=
  let folder := outputFolder output file
  Path.up ∈ folder.segments ∧ e ≠ d ∧ ∃ cause cause',
    d.makeFolders folder = (e, some cause)
      ∧ (buildFile config output file d).outcome = .error (.io folder cause)
      ∧ (buildFile config output file e).outcome = .error (.io folder cause')

/-! ## The files of a folder -/

section InTurn

variable {l₁ l₂ : List Path} (hd : d.WellFormed)
include hd

/-- **Where the output folder can be made**, a definition comes to what it comes to alone, and its
source files are in the end as it leaves them alone. -/
theorem isolated_of_made (hshared : ∀ f ∈ l₁ ++ file :: l₂, outputFolder output f = folder)
    (hmake : d.makeFolders folder = (e, none)) (ho : e.folderAt? folder = some o)
    (hothers : ∀ f ∈ l₁ ++ l₂, f.messageName? ≠ some name) (hname : file.messageName? = some name)
    (hread : d.readText file = .ok text)
    (hread' : (inTurn (countFile config output) l₁ d).disk.readText file = .ok text) :
    let found := (inTurn (countFile config output) l₁ d).disk
    let build := buildFile config output file found
    build.outcome = (buildFile config output file d).outcome
      ∧ SameFiles folder o name (buildFile config output file d).disk
        (inTurn (countFile config output) l₂ build.disk).disk := by
  intro found build
  obtain rfl : outputFolder output file = folder := hshared file (by simp)
  -- those before leave the output folder prepared, and those after leave its files
  have hbefore : Keeps (fun x => x.WellFormed ∧ Prepared (outputFolder output file) o name e x)
      (inTurn (countFile config output) l₁) := Keeps.inTurn fun f hf =>
    keeps_prepared_countFile config output (hshared f (by simp [hf])) (hothers f (by simp [hf]))
  have hafter : Keeps (fun x => x.WellFormed ∧ SameFiles (outputFolder output file) o name
      (buildFile config output file d).disk x) (inTurn (countFile config output) l₂) :=
    Keeps.inTurn fun f hf =>
      keeps_sameFiles_countFile config output (hshared f (by simp [hf])) (hothers f (by simp [hf]))
  obtain ⟨hfound, hprepared⟩ := hbefore d ⟨hd, e, hmake, .refl ho⟩
  obtain ⟨houtcome, hsame⟩ :=
    hprepared.buildFile_own config output hfound hd hmake hname hread hread'
  exact ⟨houtcome,
    (hafter _ ⟨(grown_buildFile config output hfound file).wellFormed hfound, hsame⟩).2⟩

omit hd in
/-- **Where the output folder cannot be made**, definitions change nothing, or leave what could be made
of it. -/
theorem disk_inTurn_of_refused {l : List Path} (hshared : ∀ f ∈ l, outputFolder output f = folder)
    (hmake : d.makeFolders folder = (e, some cause))
    (hagain : e.makeFolders folder = (e, some cause')) :
    (inTurn (countFile config output) l d).disk = d
      ∨ (inTurn (countFile config output) l d).disk = e := by
  have hkeeps : Keeps (fun x => x = d ∨ x = e) (inTurn (countFile config output) l) := by
    refine Keeps.inTurn fun f hf x hx => ?_
    have hrefused : ∃ cause, x.makeFolders (outputFolder output f) = (e, some cause) := by
      rw [hshared f hf]
      rcases hx with rfl | rfl
      · exact ⟨cause, hmake⟩
      · exact ⟨cause', hagain⟩
    obtain ⟨_, hrefused⟩ := hrefused
    by_cases hreadable : IsReadable x f
    · obtain ⟨m, text, hm, hread⟩ := hreadable
      exact .inr (buildFile_of_refused config output hread hm hrefused).2
    · have hidle := (buildFile_of_not_readable config output hreadable).1
      exact hx.imp hidle.trans hidle.trans
  exact hkeeps d (.inl rfl)

/-- There a definition fails for the folder, whether it is the first one to find that out or not, and
all leave the same. -/
theorem isolated_of_refused (hshared : ∀ f ∈ l₁ ++ file :: l₂, outputFolder output f = folder)
    (hmake : d.makeFolders folder = (e, some cause)) (hname : file.messageName? = some name)
    (hread : d.readText file = .ok text)
    (hread' : (inTurn (countFile config output) l₁ d).disk.readText file = .ok text) :
    let found := (inTurn (countFile config output) l₁ d).disk
    let build := buildFile config output file found
    (build.outcome = (buildFile config output file d).outcome
        ∨ RefusedOtherwise config output file d found)
      ∧ (inTurn (countFile config output) l₂ build.disk).disk
        = (buildFile config output file d).disk := by
  intro found build
  obtain rfl : outputFolder output file = folder := hshared file (by simp)
  have hne := outputFolder_ne_nil output file
  obtain ⟨cause', hagain⟩ := makeFolders_fails_again hd hne hmake
  obtain ⟨houtcome, hdisk⟩ := buildFile_of_refused config output hread hname hmake
  have hafter {x : Disk} (hx : x = e) :
      (inTurn (countFile config output) l₂ x).disk = (buildFile config output file d).disk := by
    subst hx
    rw [hdisk]
    exact (disk_inTurn_of_refused config output (fun f hf => hshared f (by simp [hf])) hagain
      hagain).elim id id
  have hfound : found = d ∨ found = e :=
    disk_inTurn_of_refused config output (fun f hf => hshared f (by simp [hf])) hmake hagain
  -- either nothing has been done before, or another definition has made what could be made
  by_cases hfirst : found = d
  · have hbuild : build = buildFile config output file d :=
      congrArg (buildFile config output file) hfirst
    rw [hbuild]
    exact ⟨.inl rfl, hafter hdisk⟩
  · have hfound := hfound.resolve_left hfirst
    rw [← hfound] at hmake hagain
    obtain ⟨houtcome', hdisk'⟩ := buildFile_of_refused config output hread' hname hagain
    refine ⟨?_, hafter (hdisk'.trans hfound)⟩
    -- only a path with `..` can fail for another cause the second time
    by_cases hup : Path.up ∈ (outputFolder output file).segments
    · exact .inr ⟨hup, hfirst, cause, cause', hmake, houtcome, houtcome'⟩
    · have halike := (makeFolders_fails_alike hd hne hup hmake).symm.trans hagain
      obtain rfl := Option.some.inj (Prod.mk.inj halike).2
      exact .inl (houtcome'.trans houtcome.symm)

end InTurn

section Folder

variable {p : Path} {order : List Path} {file' : Path}

theorem exists_folderAt?_of_mem_definitionsIn (hd : d.WellFormed) (hfile : file ∈ definitionsIn d p) :
    ∃ q, d.folderAt? p = some q := by
  refine (isFolder_eq_true_iff hd).1 ?_
  by_contra hnone
  rw [definitionsIn_eq_nil (Bool.eq_false_iff.2 hnone)] at hfile
  cases hfile

theorem readText_of_mem_definitionsIn (hd : d.WellFormed) (hfile : file ∈ definitionsIn d p)
    (hgrown : d.Grown x) : x.isFile file = d.isFile file ∧ x.readText file = d.readText file := by
  obtain ⟨q, hq⟩ := exists_folderAt?_of_mem_definitionsIn hd hfile
  obtain ⟨definition, hdefinition, rfl⟩ := exists_hasDefinition_of_mem hd hq hfile
  have hfind := (hdefinition.find hd).2
  have hfind' := ((hdefinition.of_grown hd hgrown).find (hgrown.wellFormed hd)).2
  rw [isFile_of_find hfind, isFile_of_find hfind', readText_of_find hfind, readText_of_find hfind']
  exact ⟨rfl, rfl⟩

theorem outputFolder_of_mem_definitionsIn (hd : d.WellFormed) (hfile : file ∈ definitionsIn d p)
    (hfile' : file' ∈ definitionsIn d p) : outputFolder output file = outputFolder output file' := by
  obtain ⟨hp, n, hn, rfl⟩ := exists_name_of_mem_definitionsIn hd.orderly hfile
  obtain ⟨-, n', hn', rfl⟩ := exists_name_of_mem_definitionsIn hd.orderly hfile'
  exact outputFolder_join output hp hn hn'

theorem countFile_congr {output output' : Option Path}
    (h : outputFolder output file = outputFolder output' file) :
    countFile config output file = countFile config output' file := by
  funext d
  simp only [countFile, buildFile, buildMessage, h]

theorem messageOf?_of_message? {definition : Utf8.Bytes × Utf8.Bytes} {found : Text × Text}
    (h : message? definition = some found) : Path.messageOf? definition.1 = some found.1 := by
  obtain ⟨name, hname, h⟩ := Option.bind_eq_some_iff.1 h
  obtain ⟨text, -, h⟩ := Option.bind_eq_some_iff.1 h
  obtain rfl := Option.some.inj h
  exact hname

/-- **Definitions of a folder commute** if they are of messages with different names. -/
theorem commutes_countFile (hd : d.WellFormed) (hfile : file ∈ definitionsIn d p)
    (hfile' : file' ∈ definitionsIn d p)
    (hne : ∀ name, file.messageName? = some name → file'.messageName? ≠ some name) :
    Commutes d.Grown (countFile config output file) (countFile config output file') := by
  obtain ⟨q, hq⟩ := exists_folderAt?_of_mem_definitionsIn hd hfile
  obtain ⟨definition, hdefinition, rfl⟩ := exists_hasDefinition_of_mem hd hq hfile
  obtain ⟨definition', hdefinition', rfl⟩ := exists_hasDefinition_of_mem hd hq hfile'
  -- it is as if the folder that they share had been asked for
  have hfolder := outputFolder_ne_nil output (p.join definition.1)
  have hgiven : (some (outputFolder output (p.join definition.1))).getD [] ≠ [] := hfolder
  rw [countFile_congr config (outputFolder_of_given hgiven (p.join definition.1)).symm,
    countFile_congr config ((outputFolder_of_mem_definitionsIn output hd hfile' hfile).trans
      (outputFolder_of_given hgiven (p.join definition'.1)).symm)]
  refine commutes_given config _ hd hgiven hdefinition hdefinition'
    fun found found' hfound hfound' => .inr fun hsame => hne found.1 ?_ ?_
  · rw [Path.messageName?_join p (hdefinition.find hd).1, messageOf?_of_message? hfound]
  · rw [Path.messageName?_join p (hdefinition'.find hd).1, messageOf?_of_message? hfound', hsame]

variable (hd : d.WellFormed) (horder : order.Perm (definitionsIn d p))
  (hnames : ((definitionsIn d p).filterMap (·.messageName?)).Nodup)
include hd horder hnames

/-- **A definition in its turn** comes to what it comes to alone, or fails for its output folder in
another way; and its source files are in the end as it leaves them alone. -/
theorem isolated_of_mem_turns {found : Disk}
    (h : (file, found) ∈ turns (countFile config output) order d) :
    ((buildFile config output file found).outcome = (buildFile config output file d).outcome
        ∨ RefusedOtherwise config output file d found)
      ∧ ∀ name text t, file.messageName? = some name → d.readText file = .ok text →
        (inTurn (countFile config output) order d).disk.readFile (outputPath output file name t)
          = (buildFile config output file d).disk.readFile (outputPath output file name t) := by
  obtain ⟨before, after, hsplit⟩ := List.append_of_mem h
  obtain ⟨l₁, l₂, rfl, rfl, -, hend⟩ := turns_eq_append_cons hsplit
  have hmem : ∀ f ∈ l₁ ++ file :: l₂, f ∈ definitionsIn d p := fun f hf => horder.mem_iff.1 hf
  have hfile := hmem file (by simp)
  have hgrown (l : List Path) : d.Grown (inTurn (countFile config output) l d).disk :=
    Keeps.inTurn (fun f _ => keeps_grown_countFile config output hd f) d .refl
  obtain ⟨hisFile, hsame⟩ := readText_of_mem_definitionsIn hd hfile (hgrown l₁)
  have hshared : ∀ f ∈ l₁ ++ file :: l₂, outputFolder output f = outputFolder output file :=
    fun f hf => outputFolder_of_mem_definitionsIn output hd (hmem f hf) hfile
  by_cases hreadable : IsReadable d file
  · obtain ⟨name, text, hname, hread⟩ := hreadable
    have hnames := (horder.filterMap (·.messageName?)).nodup_iff.2 hnames
    rw [List.filterMap_append, List.filterMap_cons_some hname, List.nodup_middle,
      ← List.filterMap_append] at hnames
    -- the name of the message is in the list of names once, so no other file has it
    have hothers : ∀ f ∈ l₁ ++ l₂, f.messageName? ≠ some name := fun f hf hsame =>
      (List.nodup_cons.1 hnames).1 (List.mem_filterMap.2 ⟨f, hf, hsame⟩)
    rcases hmake : d.makeFolders (outputFolder output file) with ⟨e, _ | cause⟩
    · obtain ⟨o, ho⟩ := folderAt?_makeFolders hd (outputFolder_ne_nil output file) hmake
      obtain ⟨houtcome, hfiles⟩ := isolated_of_made config output hd hshared hmake ho hothers hname
        hread (hsame.trans hread)
      refine ⟨.inl houtcome, fun name' text' t hname' _ => ?_⟩
      obtain rfl := Option.some.inj (hname.symm.trans hname')
      rw [hend]
      exact hfiles.readFile_eq (hend ▸ (hgrown _).wellFormed hd)
        ((grown_buildFile config output hd file).wellFormed hd)
        (Path.slash_not_mem_messageName? hname) t
    · obtain ⟨houtcome, hdisk⟩ := isolated_of_refused config output hd hshared hmake hname hread
        (hsame.trans hread)
      refine ⟨houtcome, fun name' text' t _ _ => ?_⟩
      rw [hend.trans hdisk]
  · have hidle := (buildFile_of_not_readable config output hreadable).2.2 _ hisFile hsame
    exact ⟨.inl hidle, fun name text t hname hread => absurd ⟨name, text, hname, hread⟩ hreadable⟩

end Folder

theorem RefusedOtherwise.ofOutcome_eq (h : RefusedOtherwise config output file d e) :
    Totals.ofOutcome (buildFile config output file e).outcome
      = Totals.ofOutcome (buildFile config output file d).outcome := by
  obtain ⟨-, -, cause, cause', -, houtcome, houtcome'⟩ := h
  rw [houtcome, houtcome']
  rfl

/-- **The definitions of a folder do not disturb each other**, if their messages have different names.
In whatever order they are built, each comes to what it comes to alone on the disk as it is to begin
with, or both times fails for its output folder, and leaves the same source files; the totals are the
sum of what the definitions come to alone; and the order makes no difference to the totals and to the
disk. -/
theorem definitions_isolated (config : Config) (output : Option Path) {disk : Disk}
    (hdisk : disk.WellFormed) {folder : Path} {order : List Path}
    (horder : order.Perm (definitionsIn disk folder))
    (hnames : ((definitionsIn disk folder).filterMap (·.messageName?)).Nodup) :
    let run := inTurn (countFile config output) order disk
    let alone := fun file => buildFile config output file disk
    (∀ file found, (file, found) ∈ turns (countFile config output) order disk →
        (buildFile config output file found).outcome = (alone file).outcome
          ∨ RefusedOtherwise config output file disk found)
      ∧ (∀ file ∈ order, ∀ name text t,
        file.messageName? = some name → disk.readText file = .ok text →
        run.disk.readFile (outputPath output file name t)
          = (alone file).disk.readFile (outputPath output file name t))
      ∧ run.totals = (order.map fun file => Totals.ofOutcome (alone file).outcome).foldr (· + ·) {}
      ∧ run.result = (buildFolder config output folder disk).result := by
  intro run alone
  have hturn {file : Path} {found : Disk}
      (h : (file, found) ∈ turns (countFile config output) order disk) :=
    isolated_of_mem_turns config output hdisk horder hnames h
  refine ⟨fun file found h => (hturn h).1, fun file hfile => ?_, ?_, ?_⟩
  · obtain ⟨found, h⟩ := exists_turn_of_mem hfile disk
    exact (hturn h).2
  · rw [totals_inTurn, ← map_fst_turns (countFile config output) order disk, List.map_map,
      map_fst_turns]
    refine congrArg (List.foldr (· + ·) ({} : Totals)) (List.map_congr_left fun turn h => ?_)
    obtain ⟨file, found⟩ := turn
    rcases (hturn h).1 with houtcome | hrefused
    · exact congrArg Totals.ofOutcome houtcome
    · exact hrefused.ofOutcome_eq
  · rw [buildFolder_result]
    refine result_inTurn_perm horder (fun file _ => keeps_grown_countFile config output hdisk file)
      (fun file hfile file' hfile' => ?_) .refl
    by_cases hsame : file = file'
    · rw [hsame]
      exact .refl _
    -- two files of one message would have its name twice among the names
    have : Std.Symm fun f f' : Path =>
        ∀ n, f.messageName? = some n → ∀ n', f'.messageName? = some n' → n ≠ n' :=
      ⟨fun _ _ h n hn n' hn' => (h n' hn' n hn).symm⟩
    have hdistinct := List.pairwise_filterMap.1 ((horder.filterMap _).nodup_iff.2 hnames)
    exact commutes_countFile config output hdisk (horder.mem_iff.1 hfile) (horder.mem_iff.1 hfile')
      fun name hname hname' => hdistinct.forall hfile hfile' hsame name hname name hname' rfl

/-- Built in the other order, the one definition is compiled as it is alone and the other one is no
text, as they come to when the folder is built. -/
theorem definitions_isolated_halfReadable :
    let text := Path.ofText "in/A.msg".toList
    let noText := Path.ofText "in/B.msg".toList
    let run := inTurn (countFile {} none) [noText, text] halfReadable
    let path := outputPath none text "A".toList .csharp
    run.disk.readFile path = (buildFile {} none text halfReadable).disk.readFile path
      ∧ run.totals = { compiled := 1, written := 1, failed := 1 }
      ∧ run.result = (buildFolder {} none (Path.ofText "in".toList) halfReadable).result := by
  intro text noText run path
  have hdisk : halfReadable.WellFormed := ⟨by decide, _, rfl⟩
  have hfiles : definitionsIn halfReadable (Path.ofText "in".toList) = [text, noText] := by
    decide +kernel
  have horder : [noText, text].Perm (definitionsIn halfReadable (Path.ofText "in".toList)) := by
    rw [hfiles]
    exact .swap text noText []
  obtain ⟨-, hsame, htotals, hresult⟩ :=
    definitions_isolated {} none hdisk horder (by rw [hfiles]; decide +kernel)
  refine ⟨hsame text (by simp) _ "int x".toList _ (by decide +kernel) rfl, htotals.trans ?_, hresult⟩
  decide +kernel

/-- Two definitions, and a file where an output folder is to be made. -/
def wayThroughFile : Disk where
  root := .folder [
    (Path.ofText "A.msg".toList, .file (Path.ofText "int x".toList)),
    (Path.ofText "B.msg".toList, .file (Path.ofText "int y".toList)),
    (Path.ofText "f".toList, .file [])]
  folder := []

/-- The way to the output folder goes into a folder, out of it, and into a file. Alone, either definition
makes the folder on the way and then fails to replace the file; but the second one finds that folder, and
so comes to the file on its way. -/
theorem exists_refusedOtherwise :
    let output := Path.ofText "a/../f/y".toList
    let a := Path.ofText "./A.msg".toList
    let b := Path.ofText "./B.msg".toList
    let found := (buildFile {} (some output) a wayThroughFile).disk
    wayThroughFile.WellFormed
      ∧ definitionsIn wayThroughFile (Path.ofText ".".toList) = [a, b]
      ∧ a.messageName? ≠ b.messageName?
      ∧ (b, found) ∈ turns (countFile {} (some output)) [a, b] wayThroughFile
      ∧ (buildFile {} (some output) b wayThroughFile).outcome = .error (.io output .exists)
      ∧ (buildFile {} (some output) b found).outcome = .error (.io output .notADirectory) := by
  refine ⟨⟨by decide, _, rfl⟩, by decide +kernel, by decide +kernel, ?_, ?_, ?_⟩
  · exact List.mem_cons_of_mem _ List.mem_cons_self
  · rfl
  · rfl

end MessageCompiler.Build
