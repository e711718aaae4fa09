import Mathlib.Data.List.Nodup
import Mathlib.Data.List.Pairwise
import MessageCompiler.Proofs.Build.Deliveries
import MessageCompiler.Proofs.Build.Visits

/-!
# Building folders in any order

The folders of a tree may be built one after the other in any order, each on whatever disk the
others have left, if the output is the default or the messages have different names. While a tree
is built no folder goes away, but new ones may come to lie where a task looks for message folders;
such a *late* folder has no definitions, and neither has any folder in it.

* **`buildFolder_eq`**: the definitions of a folder are built as if the folder came first.
* **`commutes_buildFolder`**: two visited folders in either order.
* **`Late.join`, `Late.of_new`**: what is below a late folder, or new in a visited one, is late.
* **`Late.result_buildFolder`**: a folder that is new has nothing to be built.
-/

namespace MessageCompiler.Build

open Disk

variable (config : Config) (output : Option Path) {d d₀ : Disk} {root p p' : Path} {q : Place}
  {es : Entries}

/-! ## One folder -/

/-- **The definitions of a folder are those that it has from the beginning**, whatever is built
before it. -/
theorem buildFolder_eq (hd₀ : d₀.WellFormed) (hq : d₀.folderAt? p = some q)
    (hes : d₀.root.get? q = some (.folder es)) (hgrown : d₀.Grown d) :
    buildFolder config output p d
      = inTurn (countFile config output) (es.definitions.map fun e => p.join e.1) d := by
  obtain ⟨es', hes', hdefinitions, -⟩ := hgrown.entries hd₀ hes
  have hd := hgrown.wellFormed hd₀
  have hq' := hgrown.folderAt? hq
  rw [buildFolder, list_eq_ok hq' hes']
  dsimp only
  rw [definitionFiles_eq hd hq' hes', hdefinitions]

theorem keeps_buildFolder (hd₀ : d₀.WellFormed) (hq : d₀.folderAt? p = some q) :
    Keeps d₀.Grown (buildFolder config output p) := by
  obtain ⟨es, hes⟩ := hd₀.isFolderAt hq
  intro d hgrown
  rw [buildFolder_eq config output hd₀ hq hes hgrown]
  exact Keeps.inTurn (fun file _ => keeps_grown_countFile config output hd₀ file) d hgrown

/-- The names of the messages that are compiled when a folder is built: those in its definition files
that can be read. -/
def compiledNames (disk : Disk) (folder : Path) : List Text :=
  (definitionFiles disk folder ((disk.list folder).toOption.getD [])).filterMap fun file =>
    match disk.readText file with
    | .ok _ => file.messageName?
    | .error _ => none

theorem mem_compiledNames (hd : d.WellFormed) (hq : d.folderAt? p = some q)
    (hes : d.root.get? q = some (.folder es)) {definition : Utf8.Bytes × Utf8.Bytes}
    (hmem : definition ∈ es.definitions) {found : Text × Text}
    (h : message? definition = some found) : found.1 ∈ compiledNames d p := by
  obtain ⟨hname, hfind⟩ := find_definition hd hq hes hmem
  obtain ⟨message, hmessage, h⟩ := Option.bind_eq_some_iff.1 h
  obtain ⟨text, hdecode, h⟩ := Option.bind_eq_some_iff.1 h
  obtain rfl := Option.some.inj h
  have hread : d.readText (p.join definition.1) = .ok text := by
    rw [readText_of_find hfind, show Utf8.decode? definition.2 = some text from hdecode]
  rw [compiledNames, list_eq_ok hq hes]
  simp only [Except.toOption, Option.getD_some]
  rw [definitionFiles_eq hd hq hes]
  refine List.mem_filterMap.2 ⟨_, List.mem_map_of_mem hmem, ?_⟩
  rw [hread]
  exact (Path.messageName?_join p hname).trans hmessage

/-! ## Two folders -/

/-- Whether nothing that is delivered for one folder gets in the way of another: each folder has an
output of its own, or all messages have different names. -/
def KeptApart (output : Option Path) (disk : Disk) (root : Path) : Prop :=
  output.getD [] = [] ∨ ((visitedFolders disk root).flatMap (compiledNames disk)).Nodup

/-- Whether the folders of a tree may be built in any order: nothing is generated at all, or nothing
that is delivered gets in the way of anything else. -/
def Unobstructed (config : Config) (output : Option Path) (disk : Disk) (root : Path) : Prop :=
  config.targets.enabled = [] ∨ KeptApart output disk root

/-- Outputs of different folders are apart from each other, since no folder with the name of an output
is visited. -/
theorem apart_built {place : Place} {names names' : List Utf8.Bytes}
    (hnames : ∀ n ∈ names, Path.isMessageName n = true)
    (hnames' : ∀ n ∈ names', Path.isMessageName n = true) (hne : names ≠ names') :
    Place.Apart (place ++ names ++ [Path.built]) (place ++ names' ++ [Path.built]) := by
  have haux : ∀ {names names' : List Utf8.Bytes}, names ≠ names' →
      (∀ n ∈ names', Path.isMessageName n = true) →
      ¬ place ++ names ++ [Path.built] <+: place ++ names' ++ [Path.built] := by
    intro names names' hne hnames' hpre
    rw [List.append_assoc, List.append_assoc, List.prefix_append_right_inj] at hpre
    rcases List.prefix_concat_iff.1 hpre with heq | hpre
    · exact hne (List.append_cancel_right heq)
    · -- then a visited folder would be inside an output folder
      have hmem : Path.built ∈ names' := hpre.subset (List.mem_append_right _ List.mem_cons_self)
      cases (hnames' _ hmem).symm.trans Path.isMessageName_built
  exact ⟨haux hne hnames', haux (Ne.symm hne) hnames⟩

/-- **Two visited folders may be built in either order.** -/
theorem commutes_buildFolder (hd₀ : d₀.WellFormed) {place : Place}
    (hroot : d₀.folderAt? root = some place) (houtput : Unobstructed config output d₀ root)
    (hp : p ∈ visitedFolders d₀ root) (hp' : p' ∈ visitedFolders d₀ root) :
    Commutes d₀.Grown (buildFolder config output p) (buildFolder config output p') := by
  by_cases hne : p = p'
  · rw [hne]
    exact .refl _
  obtain ⟨names, hnames, rfl, hq⟩ := exists_names_of_mem_visitedFolders hd₀ hroot hp
  obtain ⟨names', hnames', rfl, hq'⟩ := exists_names_of_mem_visitedFolders hd₀ hroot hp'
  obtain ⟨es, hes⟩ := hd₀.isFolderAt hq
  obtain ⟨es', hes'⟩ := hd₀.isFolderAt hq'
  intro d hgrown
  have hbuild {c : Path} {r : Place} {es : Entries} (hr : d₀.folderAt? c = some r)
      (hes : d₀.root.get? r = some (.folder es)) {d : Disk} (hgrown : d₀.Grown d) :=
    buildFolder_eq config output hd₀ hr hes hgrown
  have hkept := keeps_buildFolder config output hd₀ hq d hgrown
  have hkept' := keeps_buildFolder config output hd₀ hq' d hgrown
  -- each folder comes to the builds of its definitions, whichever folder is first
  rw [result_andThen, result_andThen, hbuild hq hes hkept', hbuild hq' hes' hkept,
    hbuild hq hes hgrown, hbuild hq' hes' hgrown]
  have hkeeps := keeps_grown_countFile config output hd₀
  refine (Commutes.inTurn (fun file _ => hkeeps file) (fun file _ => hkeeps file)
    (fun file hfile file' hfile' => ?_) : Commutes d₀.Grown _ _) d hgrown
  obtain ⟨definition, hmem, rfl⟩ := List.mem_map.1 hfile
  obtain ⟨definition', hmem', rfl⟩ := List.mem_map.1 hfile'
  have h : HasDefinition d₀ (root.joins names) (place ++ names) definition := ⟨hq, es, hes, hmem⟩
  have h' : HasDefinition d₀ (root.joins names') (place ++ names') definition' :=
    ⟨hq', es', hes', hmem'⟩
  by_cases hdefault : output.getD [] = []
  · exact commutes_default config output hd₀ hdefault h h'
      (apart_built hnames hnames' fun heq => hne (heq ▸ rfl))
  · refine commutes_given config output hd₀ hdefault h h' fun found found' hfound hfound' => ?_
    refine houtput.imp_right fun hkept heq => ?_
    -- a name that both messages have would be twice among the names of the tree
    have hnodup := (List.nodup_flatMap.1 (hkept.resolve_left hdefault)).2
    have : Std.Symm (Function.onFun List.Disjoint (compiledNames d₀)) :=
      ⟨fun _ _ h _ hm hm' => h hm' hm⟩
    have hdisjoint := hnodup.forall hp hp' hne
    exact hdisjoint (mem_compiledNames hd₀ hq hes hmem hfound)
      (heq ▸ mem_compiledNames hd₀ hq' hes' hmem' hfound')

/-! ## Folders that come late -/

/-- A disk that the build of a tree may come to. Where the tree has no folder to begin with, nothing
is built. -/
structure During (d₀ : Disk) (root : Path) (d : Disk) : Prop where
  grown : d₀.Grown d
  unchanged : d₀.folderAt? root = none → d = d₀

theorem During.start (d₀ : Disk) (root : Path) : During d₀ root d₀ := ⟨.refl, fun _ => rfl⟩

/-- A path that leads to no folder that was there from the beginning, while the tree is built. -/
def Late (d₀ : Disk) (root p : Path) : Prop :=
  ∀ d, During d₀ root d → ∀ q, d.folderAt? p = some q → ¬ d₀.root.IsFolderAt q

/-- A visited folder. -/
structure Settled (d₀ : Disk) (root p : Path) : Prop where
  mem : p ∈ visitedFolders d₀ root
  isFolder : d₀.isFolder p = true

namespace Settled

theorem exists_names (hd₀ : d₀.WellFormed) (h : Settled d₀ root p) :
    ∃ place names, d₀.folderAt? root = some place ∧ (∀ n ∈ names, Path.isMessageName n = true)
      ∧ p = root.joins names ∧ d₀.folderAt? p = some (place ++ names) := by
  cases hroot : d₀.folderAt? root with
  | none =>
    obtain ⟨cause, hlist⟩ := list_eq_error hd₀ hroot
    have hp : p = root := by
      have hmem := h.mem
      rw [visitedFolders, hlist] at hmem
      exact List.mem_singleton.1 hmem
    have hisFolder := h.isFolder
    rw [hp, (isFolder_eq_false_iff hd₀).2 hroot] at hisFolder
    cases hisFolder
  | some place =>
    obtain ⟨names, hnames, hp, hq⟩ := exists_names_of_mem_visitedFolders hd₀ hroot h.mem
    exact ⟨place, names, rfl, hnames, hp, hq⟩

theorem of_mem (hd₀ : d₀.WellFormed) (h : Settled d₀ root p) {c : Path}
    (hc : c ∈ visitedFolders d₀ p) : Settled d₀ root c := by
  obtain ⟨place, names, hroot, hnames, rfl, hq⟩ := h.exists_names hd₀
  obtain ⟨more, hmore, rfl, hr⟩ := exists_names_of_mem_visitedFolders hd₀ hq hc
  refine ⟨(mem_visitedFolders_iff hd₀.orderly (hd₀.leadsTo hroot)).2
    ⟨names ++ more, List.forall_mem_append.2 ⟨hnames, hmore⟩, ?_, ?_⟩,
    (isFolder_eq_true_iff hd₀).2 ⟨_, hr⟩⟩
  · rw [Path.joins, Path.joins, Path.joins, List.foldl_append]
  · rw [← List.append_assoc]
    exact hd₀.isFolderAt hr

theorem of_isFolder (hd₀ : d₀.WellFormed) (hroot : d₀.isFolder root = true)
    (hp : p ∈ visitedFolders d₀ root) : Settled d₀ root p :=
  of_mem hd₀ ⟨by rw [visitedFolders]; exact List.mem_cons_self, hroot⟩ hp

theorem keeps (hd₀ : d₀.WellFormed) (h : Settled d₀ root p) :
    Keeps d₀.Grown (buildFolder config output p) := by
  obtain ⟨q, hq⟩ := (isFolder_eq_true_iff hd₀).1 h.isFolder
  exact keeps_buildFolder config output hd₀ hq

theorem during_buildFolder (hd₀ : d₀.WellFormed) (h : Settled d₀ root p) (hd : During d₀ root d) :
    During d₀ root (buildFolder config output p d).disk := by
  obtain ⟨place, -, hroot, -⟩ := h.exists_names hd₀
  refine ⟨h.keeps config output hd₀ d hd.grown, fun hnone => ?_⟩
  cases hroot.symm.trans hnone

end Settled

namespace Late

theorem isFolder (hd₀ : d₀.WellFormed) (h : Late d₀ root p) : d₀.isFolder p = false := by
  cases hq : d₀.folderAt? p with
  | none => exact (isFolder_eq_false_iff hd₀).2 hq
  | some q => exact absurd (hd₀.isFolderAt hq) (h d₀ (.start d₀ root) q hq)

theorem of_root (hd₀ : d₀.WellFormed) (h : d₀.isFolder root = false) : Late d₀ root root := by
  have hnone := (isFolder_eq_false_iff hd₀).1 h
  intro d hd q hq
  rw [hd.unchanged hnone, hnone] at hq
  cases hq

/-- **What lies in a late folder is late.** -/
theorem join (h : Late d₀ root p) (hp : p ≠ []) {name : Utf8.Bytes} (hname : Path.IsName name) :
    Late d₀ root (p.join name) := by
  intro d hd q hq hfolder
  cases hq' : d.folderAt? p with
  | none =>
    rw [folderAt?_join_eq_none hp hq' hname] at hq
    cases hq
  | some q' =>
    rw [folderAt?_join hq' hname] at hq
    split at hq
    · rw [← Option.some.inj hq] at hfolder
      exact h d hd q' hq' (Node.isFolderAt_of_append hfolder)
    · cases hq

/-- **What is new in a visited folder is late.** -/
theorem of_new (hq : d₀.folderAt? p = some q) {name : Utf8.Bytes} (hname : Path.IsName name)
    (hnew : ¬ d₀.root.IsFolderAt (q ++ [name])) : Late d₀ root (p.join name) := by
  intro d hd r hr
  rw [folderAt?_join (hd.grown.folderAt? hq) hname] at hr
  split at hr
  · rwa [← Option.some.inj hr]
  · cases hr

theorem definitionsIn_eq_nil (hd₀ : d₀.WellFormed) (h : Late d₀ root p) (hd : During d₀ root d) :
    definitionsIn d p = [] := by
  have hwf := hd.grown.wellFormed hd₀
  rw [definitionsIn]
  cases hq : d.folderAt? p with
  | none =>
    obtain ⟨cause, hlist⟩ := list_eq_error hwf hq
    rw [hlist]
    rfl
  | some q =>
    obtain ⟨es, hes⟩ := hwf.isFolderAt hq
    rw [list_eq_ok hq hes]
    simp only [Except.toOption, Option.getD_some]
    rw [definitionFiles_eq hwf hq hes, hd.grown.definitions_eq_nil hd₀ (h d hd q hq) hes]
    rfl

/-- **A late folder has nothing to be built.** -/
theorem result_buildFolder (hd₀ : d₀.WellFormed) (h : Late d₀ root p) (hd : During d₀ root d) :
    (buildFolder config output p d).result = ({}, d) := by
  rw [buildFolder_result, h.definitionsIn_eq_nil hd₀ hd]
  rfl

end Late

/-! ## The message folders that a task finds -/

/-- **A task finds the message folders of its folder that were there from the beginning**, besides
others. -/
theorem filter_messageFolders (hd₀ : d₀.WellFormed) (hq : d₀.folderAt? p = some q)
    (hgrown : d₀.Grown d) : (messageFolders d p).filter d₀.isFolder = messageFolders d₀ p := by
  obtain ⟨es, hes⟩ := hd₀.isFolderAt hq
  obtain ⟨es', hes', -, hnames⟩ := hgrown.entries hd₀ hes
  have hwf := hgrown.wellFormed hd₀
  have hfolder {name : Utf8.Bytes} (hname : Path.IsName name) :
      d₀.isFolder (p.join name) = (d₀.root.get? (q ++ [name])).any Node.isFolder := by
    rw [isFolder_eq hd₀, folderAt?_join hq hname]
    cases d₀.root.get? (q ++ [name]) with
    | none => rfl
    | some node => cases node <;> rfl
  -- those that are new are sorted out, and none of the others
  have hall : (Entries.messageNames es).filter
      (fun n => (d₀.root.get? (q ++ [n])).any Node.isFolder) = Entries.messageNames es := by
    refine List.filter_eq_self.2 fun n hn => ?_
    obtain ⟨-, sub, hfind⟩ := (mem_messageNames_iff (hd₀.sorted hes)).1 hn
    rw [Node.get?_append_singleton hes, hfind]
    rfl
  have hselect (n : Utf8.Bytes) (hn : n ∈ es'.messageNames) : (d₀.isFolder ∘ p.join) n
      = (d₀.root.get? (q ++ [n])).any Node.isFolder :=
    hfolder (Path.isName_of_isMessageName ((mem_messageNames_iff (hwf.sorted hes')).1 hn).1)
  rw [messageFolders_eq hwf.orderly (hwf.leadsTo (hgrown.folderAt? hq)) hes',
    messageFolders_eq hd₀.orderly (hd₀.leadsTo hq) hes,
    List.filter_map, List.filter_congr hselect, hnames, hall]

theorem Late.of_mem_messageFolders (hd₀ : d₀.WellFormed) (h : Late d₀ root p) (hd : During d₀ root d)
    {c : Path} (hc : c ∈ messageFolders d p) : Late d₀ root c := by
  have hwf := hd.grown.wellFormed hd₀
  cases hq : d.folderAt? p with
  | none =>
    rw [messageFolders_eq_nil hwf hq] at hc
    cases hc
  | some q =>
    obtain ⟨name, hname, rfl⟩ := exists_name_of_mem_messageFolders hwf.orderly (hwf.leadsTo hq) hc
    exact h.join (ne_nil_of_folderAt? hq) hname

/-- What a task finds in a visited folder was there from the beginning, or is late. -/
theorem late_of_mem_messageFolders (hd₀ : d₀.WellFormed) (hq : d₀.folderAt? p = some q)
    (hd : During d₀ root d) {c : Path} (hc : c ∈ messageFolders d p) (hnew : d₀.isFolder c = false) :
    Late d₀ root c := by
  have hwf := hd.grown.wellFormed hd₀
  obtain ⟨name, hname, rfl⟩ :=
    exists_name_of_mem_messageFolders hwf.orderly (hwf.leadsTo (hd.grown.folderAt? hq)) hc
  refine Late.of_new hq hname fun ⟨sub, hsub⟩ => ?_
  rw [isFolder_eq hd₀, folderAt?_join hq hname, hsub] at hnew
  cases hnew

end MessageCompiler.Build
