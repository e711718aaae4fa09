import MessageCompiler.Build.File
import MessageCompiler.Build.Folder
import MessageCompiler.Proofs.Build.Commuting
import MessageCompiler.Proofs.Disk.Alteration
import MessageCompiler.Proofs.Disk.Making
import MessageCompiler.Proofs.Path.Names

/-!
# What building a file does to a disk

On a disk without links the definition files of a folder stay what they are while other folders are
built, and what building one of them does is to make its output folder and to write generated files
in it. Both are alterations at places that are known beforehand.

* **`save_eq_attempt`**: source files are saved by alterations in the output folder.
* **`failure_save`**: which source file cannot be saved.
* **`definitionFiles_eq`**: the definition files of a folder, by the entries that they are.
* **`result_countFile`**: a message is compiled, its output folder is made, and its files are saved
  there.
-/

namespace MessageCompiler.Build

open Disk

variable (config : Config) (output : Option Path) {d : Disk}

/-! ## Saving source files -/

/-- A generated file of some message. -/
def IsGenerated (message : Text) (file : SourceFile) : Prop :=
  ∃ t, file.name = SourceFile.nameFor message t

theorem isGenerated_of_mem_files (config : Config) (message text : Text) :
    ∀ file ∈ (compile config message text).files, IsGenerated message file := by
  intro file h
  obtain ⟨t, -, rfl⟩ := List.mem_map.1 h
  exact ⟨t, rfl⟩

/-- Writes a source file in the folder at a place, unless a folder is in the way. -/
def writing (folder : Place) (file : SourceFile) : Alteration where
  place := folder ++ [Path.ofText file.name]
  decide
    | some (.folder _) => .refuse
    | _ => .put (.file (Utf8.encode file.contents))

section Writing

variable {o : Place} {file : SourceFile} {rest : List SourceFile}

theorem attempt_writings_of_isFolderAt (h : d.root.IsFolderAt (o ++ [Path.ofText file.name])) :
    attempt ((file :: rest).map (writing o)) d = (false, d) := by
  obtain ⟨es, hes⟩ := h
  exact attempt_of_refuse (by simp only [writing, hes])

theorem attempt_writings_of_not_isFolderAt (h : ¬ d.root.IsFolderAt (o ++ [Path.ofText file.name])) :
    attempt ((file :: rest).map (writing o)) d = attempt (rest.map (writing o))
      (d.put (o ++ [Path.ofText file.name]) (.file (Utf8.encode file.contents))) := by
  refine attempt_of_put ?_
  simp only [writing]
  split
  · next es hes => exact absurd ⟨es, hes⟩ h
  · rfl

end Writing

section Generated

variable (hd : d.WellFormed) {folder : Path} {q : Place} (hq : d.folderAt? folder = some q)
  {message : Text} (hslash : '/' ∉ message)
include hd hq hslash

theorem write_of_isFolderAt {file : SourceFile} (hfile : IsGenerated message file)
    (h : d.root.IsFolderAt (q ++ [Path.ofText file.name])) :
    d.write (folder.join (Path.ofText file.name)) (Utf8.encode file.contents)
      = .error .isADirectory := by
  obtain ⟨t, ht⟩ := hfile
  obtain ⟨es, hes⟩ := h
  rw [write_join hd hq (ht ▸ Path.isName_fileName hslash t), hes]

theorem write_of_not_isFolderAt {file : SourceFile} (hfile : IsGenerated message file)
    (h : ¬ d.root.IsFolderAt (q ++ [Path.ofText file.name])) :
    let after := d.put (q ++ [Path.ofText file.name]) (.file (Utf8.encode file.contents))
    d.write (folder.join (Path.ofText file.name)) (Utf8.encode file.contents) = .ok after
      ∧ d.Grown after := by
  intro after
  obtain ⟨t, ht⟩ := hfile
  have hname : Path.IsName (Path.ofText file.name) := ht ▸ Path.isName_fileName hslash t
  obtain ⟨es, hes⟩ := hd.isFolderAt hq
  constructor
  · rw [write_join hd hq hname]
    split
    · next sub hsub => exact absurd ⟨sub, hsub⟩ h
    · rfl
  · -- the file is new, or takes the place of a file
    refine .single hes hname (.file (ht ▸ Path.isDefinitionName_fileName message t) fun old hold => ?_)
    have hget := (Node.get?_append_singleton hes (Path.ofText file.name)).trans hold
    cases old with
    | folder sub => exact absurd ⟨sub, hget⟩ h
    | link target => exact absurd rfl (Node.ne_link_of_get? hd.tree hget target)
    | file c => exact ⟨c, rfl⟩

end Generated

/-- **Source files are saved by alterations** in the folder that takes them, which adds to the
disk. -/
theorem save_eq_attempt (hd : d.WellFormed) {folder : Path} {q : Place}
    (hq : d.folderAt? folder = some q) {message : Text} (hslash : '/' ∉ message)
    {files : List SourceFile} (hfiles : ∀ file ∈ files, IsGenerated message file) :
    ((save config folder files d).failure.isNone, (save config folder files d).disk)
        = attempt (files.map (writing q)) d
      ∧ d.Grown (save config folder files d).disk := by
  induction files generalizing d with
  | nil => exact ⟨rfl, .refl⟩
  | cons file rest ih =>
    have hfile := hfiles file List.mem_cons_self
    rw [save]
    dsimp only
    by_cases hfolder : d.root.IsFolderAt (q ++ [Path.ofText file.name])
    · rw [write_of_isFolderAt hd hq hslash hfile hfolder, attempt_writings_of_isFolderAt hfolder]
      exact ⟨rfl, .refl⟩
    · obtain ⟨hwrite, hgrown⟩ := write_of_not_isFolderAt hd hq hslash hfile hfolder
      obtain ⟨hrest, hgrown'⟩ := ih (hgrown.wellFormed hd) (hgrown.folderAt? hq)
        fun f hf => hfiles f (List.mem_cons_of_mem _ hf)
      rw [hwrite, attempt_writings_of_not_isFolderAt hfolder]
      exact ⟨hrest, hgrown.trans hgrown'⟩

/-- Whether a folder is in the place of a source file in the folder at a place. -/
def isObstructed (folder : Place) (d : Disk) (file : SourceFile) : Bool :=
  (d.root.get? (folder ++ [Path.ofText file.name])).any Node.isFolder

theorem isObstructed_iff {o : Place} {file : SourceFile} :
    isObstructed o d file = true ↔ d.root.IsFolderAt (o ++ [Path.ofText file.name]) := by
  rw [isObstructed, Node.IsFolderAt]
  cases d.root.get? (o ++ [Path.ofText file.name]) with
  | none => simp
  | some node => cases node <;> simp [Node.isFolder]

/-- **The first source file with a folder in its place cannot be saved.** Writing those before it puts
no folder in its way. -/
theorem failure_save (hd : d.WellFormed) {folder : Path} {q : Place}
    (hq : d.folderAt? folder = some q) {message : Text} (hslash : '/' ∉ message)
    {files : List SourceFile} (hfiles : ∀ file ∈ files, IsGenerated message file) :
    (save config folder files d).failure = (files.find? (isObstructed q d)).map fun file =>
      .io (folder.join (Path.ofText file.name)) .isADirectory := by
  induction files generalizing d with
  | nil => rfl
  | cons file rest ih =>
    have hfile := hfiles file List.mem_cons_self
    rw [save]
    dsimp only
    by_cases hfolder : d.root.IsFolderAt (q ++ [Path.ofText file.name])
    · rw [write_of_isFolderAt hd hq hslash hfile hfolder,
        List.find?_cons_of_pos (isObstructed_iff.2 hfolder)]
      rfl
    · obtain ⟨hwrite, hgrown⟩ := write_of_not_isFolderAt hd hq hslash hfile hfolder
      -- a file is no folder, so the files that are obstructed are the same once it is written
      have hsame (f : SourceFile) : isObstructed q
          (d.put (q ++ [Path.ofText file.name]) (.file (Utf8.encode file.contents))) f
            = isObstructed q d f := by
        rw [Bool.eq_iff_iff, isObstructed_iff, isObstructed_iff]
        exact Node.isFolderAt_put_file_iff (hd.isFolderAt hq) hfolder _
      rw [hwrite, List.find?_cons_of_neg fun h => hfolder (isObstructed_iff.1 h), ← funext hsame]
      exact ih (hgrown.wellFormed hd) (hgrown.folderAt? hq)
        fun f hf => hfiles f (List.mem_cons_of_mem _ hf)

/-! ## The definitions in a folder -/

section Definitions

variable {p : Path} {q : Place} {es : Entries} {name contents : Utf8.Bytes}

theorem find_definition (hd : d.WellFormed) (hq : d.folderAt? p = some q)
    (hes : d.root.get? q = some (.folder es)) (h : (name, contents) ∈ es.definitions) :
    Path.IsName name ∧ d.find (p.join name) = .ok (.file contents) := by
  obtain ⟨⟨n, node⟩, he, hselect⟩ := List.mem_filterMap.1 h
  obtain ⟨rfl, rfl⟩ : name = n ∧ node = .file contents := by
    cases node with
    | file c =>
      dsimp only at hselect
      split at hselect
      · obtain ⟨rfl, rfl⟩ := Prod.mk.inj (Option.some.inj hselect)
        exact ⟨rfl, rfl⟩
      · cases hselect
    | folder sub => cases hselect
    | link target => cases hselect
  have hname : Path.IsName name := hd.isName_of_mem hes he
  have hget : d.root.get? (q ++ [name]) = some (.file contents) := hd.get?_of_mem hes he
  exact ⟨hname, by rw [find_join hd hq hname, hget]⟩

/-- **The definition files of a folder** are the entries that hold a definition. -/
theorem definitionFiles_eq (hd : d.WellFormed) (hq : d.folderAt? p = some q)
    (hes : d.root.get? q = some (.folder es)) :
    definitionFiles d p es = es.definitions.map fun e => p.join e.1 := by
  have hlink (e : Utf8.Bytes × Node) (he : e ∈ es) : ∀ target, e.2 ≠ .link target :=
    Node.ne_link_of_get? hd.tree (hd.get?_of_mem hes he)
  have hfile (e : Utf8.Bytes × Node) (he : e ∈ es) :
      ((p.join e.1).isDefinitionFile && d.isFile (p.join e.1))
        = (Path.isDefinitionName e.1 && !e.2.isFolder) := by
    have hname := hd.isName_of_mem hes he
    rw [Path.isDefinitionFile_join p hname, isFile, find_join hd hq hname, hd.get?_of_mem hes he]
    cases hnode : e.2 with
    | link target => exact absurd hnode (hlink e he target)
    | file c => rfl
    | folder sub => rfl
  rw [definitionFiles, List.filter_map, Entries.definitions]
  simp only [Function.comp_def]
  rw [List.filter_congr hfile]
  -- from here on the entries are a list of nodes, none of which is a link
  clear hfile hes
  induction es with
  | nil => rfl
  | cons e rest ih =>
    obtain ⟨n, node⟩ := e
    have hrest := ih fun e' he' => hlink e' (List.mem_cons_of_mem _ he')
    cases node with
    | file c =>
      have hnode : (Node.file c).isFolder = false := rfl
      cases hn : Path.isDefinitionName n <;> simp [hn, hnode, hrest]
    | folder sub =>
      have hnode : (Node.folder sub).isFolder = true := rfl
      simp [hnode, hrest]
    | link target => exact absurd rfl (hlink _ List.mem_cons_self target)

end Definitions

/-! ## Building one file -/

/-- The name and the text of the message in a definition, if there is one to be compiled. -/
def message? (definition : Utf8.Bytes × Utf8.Bytes) : Option (Text × Text) := do
  let name ← Path.messageOf? definition.1
  let text ← Utf8.decode? definition.2
  some (name, text)

/-- The numbers of a compiled definition, given whether it could be saved. -/
def settled (compiled : Compiled) : Bool → Totals
  | true => .ofOutcome (.ok (some compiled))
  | false => { failed := 1 }

section OneFile

variable {p : Path} {name contents : Utf8.Bytes}

theorem countFile_eq (hname : Path.IsName name) (hfind : d.find (p.join name) = .ok (.file contents)) :
    (countFile config output (p.join name) d).result
      = match Path.messageOf? name with
        | none => ({}, d)
        | some message =>
          let file := buildMessage config output (p.join name) message d
          (Totals.ofOutcome file.outcome, file.disk) := by
  have hpath : ((p.join name).isEmpty || !d.isFile (p.join name)) = false := by
    simp [isFile_of_find hfind, Path.join_ne_nil p hname]
  rw [FolderBuild.result, countFile, buildFile, hpath, if_neg Bool.false_ne_true,
    Path.messageName?_join p hname]
  cases Path.messageOf? name <;> rfl

/-- A definition without a message that can be compiled comes to the same totals on all disks, and
changes none. -/
theorem exists_result_of_message?_eq_none (hname : Path.IsName name)
    (h : message? (name, contents) = none) : ∃ t, ∀ d : Disk,
      d.find (p.join name) = .ok (.file contents) →
      (countFile config output (p.join name) d).result = (t, d) := by
  cases hmessage : Path.messageOf? name with
  | none => exact ⟨{}, fun d hfind => by rw [countFile_eq config output hname hfind, hmessage]⟩
  | some message =>
    have hdecode : Utf8.decode? contents = none :=
      Option.eq_none_iff_forall_ne_some.2 (by simpa [message?, hmessage] using h)
    refine ⟨{ failed := 1 }, fun d hfind => ?_⟩
    have hread : d.readText (p.join name) = .error .invalidUtf8 := by
      rw [readText_of_find hfind, hdecode]
    rw [countFile_eq config output hname hfind, hmessage]
    dsimp only
    rw [buildMessage, hread]
    rfl

theorem result_countFile (hname : Path.IsName name)
    (hfind : d.find (p.join name) = .ok (.file contents)) {message text : Text}
    (h : message? (name, contents) = some (message, text)) :
    (countFile config output (p.join name) d).result
      = match d.makeFolders (outputFolder output (p.join name)) with
        | (e, some _) => ({ failed := 1 }, e)
        | (e, none) =>
          let compiled := compile config message text
          let saving := save config (outputFolder output (p.join name)) compiled.files e
          (settled compiled saving.failure.isNone, saving.disk) := by
  obtain ⟨message', hmessage, h⟩ := Option.bind_eq_some_iff.1 h
  obtain ⟨text', hdecode, h⟩ := Option.bind_eq_some_iff.1 h
  obtain ⟨rfl, rfl⟩ := Prod.mk.inj (Option.some.inj h)
  have hread : d.readText (p.join name) = .ok text' := by
    rw [readText_of_find hfind, show Utf8.decode? contents = some text' from hdecode]
  rw [countFile_eq config output hname hfind, show Path.messageOf? name = some message' from hmessage]
  dsimp only
  rw [buildMessage, hread]
  dsimp only
  rcases hmake : d.makeFolders (outputFolder output (p.join name)) with ⟨e, _ | cause⟩
  · dsimp only
    cases (save config (outputFolder output (p.join name))
      (compile config message' text').files e).failure <;> rfl
  · rfl

end OneFile

end MessageCompiler.Build
