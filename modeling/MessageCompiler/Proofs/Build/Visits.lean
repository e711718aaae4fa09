import Mathlib.Data.List.Induction
import Mathlib.Data.List.Nodup
import MessageCompiler.Build.Schedule
import MessageCompiler.Proofs.Disk.Growth

/-!
# The folders that are visited

The folders of a tree build are told by their names from the first folder on: a path to a visited
folder joins names of message folders.

* **`visitedFolders_eq`**: a folder is visited, and then the message folders in it.
* **`mem_visitedFolders_iff`**: which folders are visited.
-/

namespace MessageCompiler

namespace Path

/-- The path with names joined to it, one after the other. -/
def joins (p : Path) (names : List Utf8.Bytes) : Path := names.foldl join p

theorem joins_concat (p : Path) (names : List Utf8.Bytes) (name : Utf8.Bytes) :
    p.joins (names ++ [name]) = (p.joins names).join name := by
  rw [joins, joins, List.foldl_append]
  rfl

theorem steps_joins {p : Path} (hp : p ≠ []) {names : List Utf8.Bytes}
    (hnames : ∀ n ∈ names, IsName n) : (p.joins names).steps = p.steps ++ names := by
  induction names generalizing p with
  | nil => rw [joins, List.foldl_nil, List.append_nil]
  | cons name rest ih =>
    have hname := hnames name List.mem_cons_self
    have hrest := ih (join_ne_nil p hname) fun n hn => hnames n (List.mem_cons_of_mem _ hn)
    rw [steps_join hp hname, List.append_assoc] at hrest
    exact hrest

/-- **Different names are joined to different paths.** -/
theorem joins_injective {p : Path} (hp : p ≠ []) {names names' : List Utf8.Bytes}
    (hnames : ∀ n ∈ names, IsName n) (hnames' : ∀ n ∈ names', IsName n)
    (h : p.joins names = p.joins names') : names = names' := by
  have hsteps := congrArg steps h
  rw [steps_joins hp hnames, steps_joins hp hnames'] at hsteps
  exact List.append_cancel_left hsteps

theorem isName_of_isMessageName {name : Utf8.Bytes} (h : isMessageName name = true) :
    IsName name := by
  have hall : ∀ n ∈ messageFolderNames.map ofText, IsName n := by decide
  exact hall name (List.contains_iff_mem.1 h)

theorem forall_isName {names : List Utf8.Bytes} (h : ∀ n ∈ names, isMessageName n = true) :
    ∀ n ∈ names, IsName n := fun n hn => isName_of_isMessageName (h n hn)

end Path

namespace Disk

variable {d : Disk} {p : Path} {q : Place} {es : Entries}

/-- A path with names joined to it leads as deep as the names say, where there are folders. -/
theorem LeadsTo.joins (hd : d.Orderly) (hq : d.LeadsTo p q) {names : List Utf8.Bytes}
    (hnames : ∀ n ∈ names, Path.IsName n) (h : d.root.IsFolderAt (q ++ names)) :
    d.LeadsTo (p.joins names) (q ++ names) := by
  induction names generalizing p q with
  | nil => rwa [List.append_nil]
  | cons name rest ih =>
    rw [List.append_cons] at h ⊢
    exact ih (hq.join hd (hnames name List.mem_cons_self) (Node.isFolderAt_of_append h))
      (fun n hn => hnames n (List.mem_cons_of_mem _ hn)) h

theorem folderAt?_joins (hq : d.folderAt? p = some q) {names : List Utf8.Bytes}
    (hnames : ∀ n ∈ names, Path.IsName n) (h : d.root.IsFolderAt (q ++ names)) :
    d.folderAt? (p.joins names) = some (q ++ names) := by
  induction names generalizing p q with
  | nil => rwa [List.append_nil]
  | cons name rest ih =>
    rw [List.append_cons] at h ⊢
    obtain ⟨es, hes⟩ := Node.isFolderAt_of_append h
    refine ih ?_ (fun n hn => hnames n (List.mem_cons_of_mem _ hn)) h
    rw [folderAt?_join hq (hnames name List.mem_cons_self), hes]

end Disk

namespace Build

open Disk

variable {d : Disk} {p : Path} {q : Place} {es : Entries}

/-! ## Message folders -/

/-- **The message folders in a folder**, by their names. -/
theorem messageFolders_eq (hd : d.Orderly) (hq : d.LeadsTo p q)
    (hes : d.root.get? q = some (.folder es)) : messageFolders d p = es.messageNames.map p.join := by
  have hselect (e : Utf8.Bytes × Node) (he : e ∈ es) :
      ((p.join e.1).isMessageFolder && e.2.isFolder)
        = (Path.isMessageName e.1 && e.2.isFolder) := by
    rw [Path.isMessageFolder_join p ((hd.tree q es hes).2 e he)]
  rw [messageFolders, list_eq_ok_iff.2 ⟨q, hq, hes⟩]
  simp only [Except.toOption, Option.getD_some]
  rw [List.filter_congr hselect, Entries.messageNames]
  clear hselect hes
  induction es with
  | nil => rfl
  | cons e rest ih =>
    rw [List.filter_cons, List.filterMap_cons]
    split
    · rw [List.map_cons, ih, List.map_cons]
    · exact ih

theorem messageFolders_eq_nil (hd : d.WellFormed) (hq : d.folderAt? p = none) :
    messageFolders d p = [] := by
  obtain ⟨cause, hlist⟩ := list_eq_error hd hq
  rw [messageFolders, hlist]
  rfl

theorem mem_messageNames_iff (hes : es.Sorted) {name : Utf8.Bytes} : name ∈ es.messageNames
    ↔ Path.isMessageName name = true ∧ ∃ sub, Entries.find? name es = some (.folder sub) := by
  rw [Entries.messageNames, List.mem_filterMap]
  constructor
  · rintro ⟨⟨n, node⟩, he, hselect⟩
    dsimp only at hselect
    split at hselect
    · next hboth =>
      obtain rfl := Option.some.inj hselect
      obtain ⟨hname, hfolder⟩ := Bool.and_eq_true_iff.1 hboth
      refine ⟨hname, ?_⟩
      cases node with
      | folder sub => exact ⟨sub, Entries.find?_eq_some_of_mem hes he⟩
      | file c => cases hfolder
      | link t => cases hfolder
    · cases hselect
  · rintro ⟨hname, sub, hfind⟩
    exact ⟨_, Entries.mem_of_find?_eq_some hfind, by simp [hname, Node.isFolder]⟩

/-- **A message folder in a folder** has a name for messages, is found under it, and is smaller than
the folder. -/
theorem exists_of_mem_messageFolders (hd : d.Orderly) (hq : d.LeadsTo p q)
    (hes : d.root.get? q = some (.folder es)) {c : Path} (hc : c ∈ messageFolders d p) :
    ∃ name sub, c = p.join name ∧ Path.isMessageName name = true
      ∧ d.root.get? (q ++ [name]) = some (.folder sub) ∧ d.LeadsTo c (q ++ [name])
      ∧ sizeOf sub < sizeOf es := by
  rw [messageFolders_eq hd hq hes] at hc
  obtain ⟨name, hname, rfl⟩ := List.mem_map.1 hc
  obtain ⟨hmessage, sub, hfind⟩ := (mem_messageNames_iff (hd.tree q es hes).1).1 hname
  have hget : d.root.get? (q ++ [name]) = some (.folder sub) := by
    rw [Node.get?_append_singleton hes, hfind]
  have hleads := hq.join hd (Path.isName_of_isMessageName hmessage) ⟨sub, hget⟩
  have hsize : sizeOf sub < sizeOf es := by
    have := List.sizeOf_lt_of_mem (Entries.mem_of_find?_eq_some hfind)
    simp +arith only [Prod.mk.sizeOf_spec, Node.folder.sizeOf_spec] at this
    omega
  exact ⟨name, sub, rfl, hmessage, hget, hleads, hsize⟩

theorem exists_name_of_mem_messageFolders (hd : d.Orderly) (hq : d.LeadsTo p q) {c : Path}
    (hc : c ∈ messageFolders d p) : ∃ name, Path.IsName name ∧ c = p.join name := by
  obtain ⟨es, hes⟩ := hq.isFolderAt
  obtain ⟨name, -, rfl, hmessage, -⟩ := exists_of_mem_messageFolders hd hq hes hc
  exact ⟨name, Path.isName_of_isMessageName hmessage, rfl⟩

/-! ## Visited folders -/

/-- **A folder is visited, and then the message folders in it**, each with what is in it. -/
theorem visitedFolders_eq (hd : d.Orderly) (hq : d.LeadsTo p q)
    (hes : d.root.get? q = some (.folder es)) :
    visitedFolders d p = p :: (messageFolders d p).flatMap (visitedFolders d) := by
  have hentry (e : Utf8.Bytes × Node) (he : e ∈ es) :
      Path.IsName e.1 ∧ d.root.get? (q ++ [e.1]) = some e.2 :=
    ⟨(hd.tree q es hes).2 e he, hd.get?_of_mem hes he⟩
  rw [messageFolders_eq hd hq hes, visitedFolders, list_eq_ok_iff.2 ⟨q, hq, hes⟩]
  simp only [Except.toOption, Option.getD_some]
  refine congrArg _ ?_
  rw [List.flatMap_map]
  -- the entries are taken one by one; only a folder with a message name adds something
  clear hes
  induction es with
  | nil => rfl
  | cons e rest ih =>
    have hrest := ih fun e' he' => hentry e' (List.mem_cons_of_mem _ he')
    obtain ⟨hname, hget⟩ := hentry e List.mem_cons_self
    obtain ⟨name, node⟩ := e
    rw [foldersAmong, hrest, Path.isMessageFolder_join p hname, Entries.messageNames]
    cases hmessage : Path.isMessageName name with
    | false => simp [hmessage, Entries.messageNames]
    | true =>
      cases node with
      | file c => simp [foldersFrom, Node.isFolder, Entries.messageNames]
      | link t => simp [foldersFrom, Node.isFolder, Entries.messageNames]
      | folder sub =>
        have hsub := hq.join hd hname ⟨sub, hget⟩
        -- what is inside the entry is listed again under the path that leads there
        have hvisited : visitedFolders d (p.join name)
            = p.join name :: foldersAmong (p.join name) sub := by
          rw [visitedFolders, list_eq_ok_iff.2 ⟨_, hsub, hget⟩]
          rfl
        simp [foldersFrom, Node.isFolder, Entries.messageNames, hmessage, hvisited]

/-- **Which folders are visited**: those that names of message folders lead to. -/
theorem mem_visitedFolders_iff (hd : d.Orderly) (hq : d.LeadsTo p q) {c : Path} :
    c ∈ visitedFolders d p ↔ ∃ names : List Utf8.Bytes,
      (∀ n ∈ names, Path.isMessageName n = true) ∧ c = p.joins names
        ∧ d.root.IsFolderAt (q ++ names) := by
  constructor
  · intro hc
    obtain ⟨es, hes⟩ := hq.isFolderAt
    -- the folders in a folder are smaller than the folder
    induction hn : sizeOf es using Nat.strong_induction_on generalizing p q es with
    | _ n ih => ?_
    rw [visitedFolders_eq hd hq hes, List.mem_cons, List.mem_flatMap] at hc
    rcases hc with rfl | ⟨c', hc', hc⟩
    · exact ⟨[], List.forall_mem_nil _, rfl, by rw [List.append_nil]; exact ⟨es, hes⟩⟩
    · obtain ⟨name, sub, rfl, hmessage, hget, hsub, hsize⟩ :=
        exists_of_mem_messageFolders hd hq hes hc'
      obtain ⟨names, hnames, rfl, hfolder⟩ := ih _ (hn ▸ hsize) hsub hc sub hget rfl
      exact ⟨name :: names, List.forall_mem_cons.2 ⟨hmessage, hnames⟩, rfl, by rwa [List.append_cons]⟩
  · rintro ⟨names, hnames, rfl, hfolder⟩
    induction names generalizing p q with
    | nil =>
      rw [visitedFolders]
      exact List.mem_cons_self
    | cons name rest ih =>
      rw [List.append_cons] at hfolder
      obtain ⟨es, hes⟩ := hq.isFolderAt
      obtain ⟨sub, hget⟩ := Node.isFolderAt_of_append hfolder
      have hmessage := hnames name List.mem_cons_self
      have hsub := hq.join hd (Path.isName_of_isMessageName hmessage) ⟨sub, hget⟩
      rw [Node.get?_append_singleton hes] at hget
      rw [visitedFolders_eq hd hq hes, messageFolders_eq hd hq hes]
      refine List.mem_cons_of_mem _ (List.mem_flatMap.2 ⟨p.join name, List.mem_map_of_mem ?_, ?_⟩)
      · exact (mem_messageNames_iff (hd.tree q es hes).1).2 ⟨hmessage, sub, hget⟩
      · exact ih hsub (fun n hn => hnames n (List.mem_cons_of_mem _ hn)) hfolder

theorem exists_names_of_mem_visitedFolders (hd : d.WellFormed) (hq : d.folderAt? p = some q) {c : Path}
    (hc : c ∈ visitedFolders d p) : ∃ names : List Utf8.Bytes,
      (∀ n ∈ names, Path.isMessageName n = true) ∧ c = p.joins names
        ∧ d.folderAt? c = some (q ++ names) := by
  obtain ⟨names, hnames, rfl, hfolder⟩ := (mem_visitedFolders_iff hd.orderly (hd.leadsTo hq)).1 hc
  exact ⟨names, hnames, rfl, folderAt?_joins hq (Path.forall_isName hnames) hfolder⟩

theorem folderAt?_of_mem_visitedFolders (hd : d.WellFormed) (hq : d.folderAt? p = some q) {c : Path}
    (hc : c ∈ visitedFolders d p) : ∃ r, d.folderAt? c = some r := by
  obtain ⟨names, -, -, hr⟩ := exists_names_of_mem_visitedFolders hd hq hc
  exact ⟨_, hr⟩

theorem nodup_messageNames (hes : es.Sorted) : es.messageNames.Nodup := by
  refine (Entries.nodup_names hes).sublist ?_
  clear hes
  induction es with
  | nil => exact .slnil
  | cons e rest ih =>
    rw [Entries.messageNames, List.filterMap_cons]
    split
    · exact ih.cons e.1
    · next name hname =>
      split at hname
      · rw [← Option.some.inj hname]
        exact ih.cons_cons e.1
      · cases hname

/-- **No folder is visited twice.** -/
theorem nodup_visitedFolders (hd : d.Orderly) (hq : d.LeadsTo p q) : (visitedFolders d p).Nodup := by
  obtain ⟨es, hes⟩ := hq.isFolderAt
  -- the folders in a folder are smaller than the folder
  induction hn : sizeOf es using Nat.strong_induction_on generalizing p q es with
  | _ n ih => ?_
  have hp := hq.ne_nil
  have hsorted := (hd.tree q es hes).1
  -- what is visited in a folder goes on with the name of one of its message folders
  have hbelow {name : Utf8.Bytes} (hname : name ∈ Entries.messageNames es) : Path.IsName name
      ∧ (visitedFolders d (p.join name)).Nodup
      ∧ ∀ c ∈ visitedFolders d (p.join name), ∃ names : List Utf8.Bytes,
        (∀ n ∈ name :: names, Path.IsName n) ∧ c = p.joins (name :: names) := by
    obtain ⟨hmessage, sub, hfind⟩ := (mem_messageNames_iff hsorted).1 hname
    have hisName := Path.isName_of_isMessageName hmessage
    have hget : d.root.get? (q ++ [name]) = some (.folder sub) := by
      rw [Node.get?_append_singleton hes, hfind]
    have hsub := hq.join hd hisName ⟨sub, hget⟩
    have hsize : sizeOf sub < n := by
      have := List.sizeOf_lt_of_mem (Entries.mem_of_find?_eq_some hfind)
      simp +arith only [Prod.mk.sizeOf_spec, Node.folder.sizeOf_spec] at this
      omega
    refine ⟨hisName, ih _ hsize hsub sub hget rfl, fun c hc => ?_⟩
    obtain ⟨names, hnames, rfl, -⟩ := (mem_visitedFolders_iff hd hsub).1 hc
    exact ⟨names, List.forall_mem_cons.2 ⟨hisName, Path.forall_isName hnames⟩, rfl⟩
  rw [visitedFolders_eq hd hq hes, messageFolders_eq hd hq hes, List.flatMap_map, List.nodup_cons,
    List.nodup_flatMap]
  refine ⟨fun hmem => ?_, fun name hname => (hbelow hname).2.1, ?_⟩
  · obtain ⟨name, hname, hmem⟩ := List.mem_flatMap.1 hmem
    obtain ⟨names, hnames, heq⟩ := (hbelow hname).2.2 p hmem
    cases @Path.joins_injective p hp [] _ (List.forall_mem_nil _) hnames heq
  · refine (nodup_messageNames hsorted).imp_of_mem fun {a b} ha hb hne c hc hc' => ?_
    obtain ⟨names, hnames, rfl⟩ := (hbelow ha).2.2 c hc
    obtain ⟨names', hnames', heq⟩ := (hbelow hb).2.2 _ hc'
    exact hne (List.cons.inj (Path.joins_injective hp hnames hnames' heq)).1

/-- The folders that a tree build is to visit: the first one, whatever it is called, and every folder
with the name of a message folder that lies in a folder it is to visit. Links are no folders. -/
inductive Visited (disk : Disk) (root : Path) : Path → Prop
  | root : Visited disk root root
  | inner {p : Path} {es sub : Entries} {name : Utf8.Bytes} : Visited disk root p →
    disk.list p = .ok es → (name, .folder sub) ∈ es → Path.isMessageName name = true →
    Visited disk root (p.join name)

namespace Visited

variable {root : Path}

theorem exists_names (h : Visited d root p) : ∃ names : List Utf8.Bytes,
    (∀ n ∈ names, Path.isMessageName n = true) ∧ p = root.joins names := by
  induction h with
  | root => exact ⟨[], List.forall_mem_nil _, rfl⟩
  | @inner p es sub name _ _ _ hmessage ih =>
    obtain ⟨names, hnames, rfl⟩ := ih
    exact ⟨names ++ [name], List.forall_mem_append.2 ⟨hnames, List.forall_mem_singleton.2 hmessage⟩,
      (Path.joins_concat root names name).symm⟩

theorem eq_root (h : Visited d root p) (hroot : d.isFolder root = false) : p = root := by
  induction h with
  | root => rfl
  | inner _ hlist _ _ ih =>
    rw [ih] at hlist
    cases hroot.symm.trans (isFolder_of_list hlist)

end Visited

theorem visitedFolders_eq_singleton {root : Path} (hroot : d.isFolder root = false) :
    visitedFolders d root = [root] := by
  rw [visitedFolders]
  cases hlist : d.list root with
  | error cause => rfl
  | ok es => cases hroot.symm.trans (isFolder_of_list hlist)

/-- **A tree build visits the folders that it is to visit.** -/
theorem mem_visitedFolders_iff_visited (hd : d.Orderly) {root : Path} :
    p ∈ visitedFolders d root ↔ Visited d root p := by
  cases hroot : d.isFolder root with
  | false =>
    rw [visitedFolders_eq_singleton hroot, List.mem_singleton]
    exact ⟨fun h => h ▸ .root, fun h => h.eq_root hroot⟩
  | true =>
    obtain ⟨q, hq⟩ := isFolder_iff.1 hroot
    rw [mem_visitedFolders_iff hd hq]
    constructor
    · rintro ⟨names, hnames, rfl, hfolder⟩
      -- the last name is an entry of the folder that the names before it lead to
      induction names using List.reverseRecOn with
      | nil => exact .root
      | append_singleton names name ih =>
        have hinit : ∀ n ∈ names, Path.isMessageName n = true := fun n hn =>
          hnames n (List.mem_append_left _ hn)
        rw [← List.append_assoc] at hfolder
        obtain ⟨es, hes⟩ := Node.isFolderAt_of_append hfolder
        obtain ⟨sub, hsub⟩ := hfolder
        have hleads := hq.joins hd (Path.forall_isName hinit) ⟨es, hes⟩
        rw [Node.get?_append_singleton hes] at hsub
        rw [Path.joins_concat]
        exact .inner (ih hinit ⟨es, hes⟩) (list_eq_ok_iff.2 ⟨_, hleads, hes⟩)
          (Entries.mem_of_find?_eq_some hsub) (hnames name (List.mem_append_right _ List.mem_cons_self))
    · intro h
      induction h with
      | root => exact ⟨[], List.forall_mem_nil _, rfl, by rw [List.append_nil]; exact hq.isFolderAt⟩
      | @inner p es sub name _ hlist hmem hmessage ih =>
        obtain ⟨names, hnames, rfl, hfolder⟩ := ih
        have hleads := hq.joins hd (Path.forall_isName hnames) hfolder
        obtain ⟨q', hq', hes⟩ := list_eq_ok_iff.1 hlist
        -- the way by names and the listing are about the same folder
        obtain rfl := hleads.unique hq'
        refine ⟨names ++ [name],
          List.forall_mem_append.2 ⟨hnames, List.forall_mem_singleton.2 hmessage⟩,
          (Path.joins_concat root names name).symm, sub, ?_⟩
        rw [← List.append_assoc]
        exact hd.get?_of_mem hes hmem

end Build

end MessageCompiler
