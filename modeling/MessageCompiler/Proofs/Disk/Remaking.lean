import MessageCompiler.Proofs.Disk.Footprint

/-!
# Trying again to make folders

Folders that could not be made cannot be made later either. On a path that never leads out of a folder
the cause is the same again: if folders were made at all, nothing but folders is on the way to them, so
what is missing further on is found missing. A path with `..` in it may lead on elsewhere, and another
cause may be found there the second time.

* **`folderAt?_eq_some_iff_of_up_not_mem`**: without `..` a path leads down by its steps.
* **`makeFolder_eq_notFound`**: where there are only folders on the way, one that cannot be made is
  missing an outer folder.
* **`makeFolders_fails_alike`**: the cause is the same again.
-/

namespace MessageCompiler

namespace Node

variable {root : Node} {place q : Place} {names : List Utf8.Bytes}

/-! ## Paths that lead down -/

theorem eq_append_of_descend (hup : Path.up ∉ names) (h : root.descend place names = some q) :
    q = place ++ names.filter (!Path.isIdle ·) := by
  induction names generalizing place with
  | nil => simpa [descend] using h.symm
  | cons name rest ih =>
    obtain ⟨hname, hrest⟩ := List.ne_and_not_mem_of_not_mem_cons hup
    rw [descend, if_neg (Ne.symm hname)] at h
    cases hidle : Path.isIdle name with
    | true =>
      rw [if_pos hidle] at h
      simpa [hidle] using ih hrest h
    | false =>
      rw [if_neg (by simp [hidle])] at h
      split at h
      · simpa [hidle] using ih hrest h
      · cases h

theorem descend_of_isFolderAt (hup : Path.up ∉ names)
    (h : root.IsFolderAt (place ++ names.filter (!Path.isIdle ·))) :
    root.descend place names = some (place ++ names.filter (!Path.isIdle ·)) := by
  induction names generalizing place with
  | nil => simp [descend]
  | cons name rest ih =>
    obtain ⟨hname, hrest⟩ := List.ne_and_not_mem_of_not_mem_cons hup
    rw [descend, if_neg (Ne.symm hname)]
    cases hidle : Path.isIdle name with
    | true =>
      rw [List.filter_cons_of_neg (by simp [hidle])] at h ⊢
      rw [if_pos rfl]
      exact ih hrest h
    | false =>
      rw [List.filter_cons_of_pos (by simp [hidle]),
        List.append_cons place name (rest.filter _)] at h ⊢
      obtain ⟨es, hes⟩ := isFolderAt_of_append h
      rw [if_neg Bool.false_ne_true, hes]
      exact ih hrest h

end Node

theorem Path.up_not_mem_of_prefix {p p' : Path} (hup : up ∉ p.segments) (h : p'.steps <+: p.steps) :
    up ∉ p'.segments := by
  have hiff (r : Path) : up ∈ r.steps ↔ up ∈ r.segments := List.mem_filter.trans (and_iff_left rfl)
  exact fun hmem => hup ((hiff p).1 (h.subset ((hiff p').2 hmem)))

namespace Disk

variable {d e : Disk} {p : Path} {q : Place} {outer : List Path}

theorem folderAt?_eq_some_iff_of_up_not_mem (hd : d.WellFormed) (hp : p ≠ [])
    (hup : Path.up ∉ p.segments) :
    d.folderAt? p = some q ↔ q = start d.folder p ++ p.steps ∧ d.root.IsFolderAt q := by
  rw [folderAt?_eq hp, Path.steps, Node.descend_filter]
  constructor
  · intro h
    exact ⟨Node.eq_append_of_descend hup h, Node.isFolderAt_descend (hd.isFolderAt_start p) h⟩
  · rintro ⟨rfl, h⟩
    exact Node.descend_of_isFolderAt hup h

/-- A stretch with nothing but folders on its way goes through all of them or finds one missing. -/
theorem stretch_of_folders {root : Node} {place : Place} {names : List Utf8.Bytes}
    (hup : Path.up ∉ names)
    (h : ∀ r, r <+: names.filter (!Path.isIdle ·) →
      root.IsFolderAt (place ++ r) ∨ root.get? (place ++ r) = none) :
    stretch root place names = .arrived (.taken (place ++ names.filter (!Path.isIdle ·)))
      ∨ (∃ folder name, stretch root place names = .arrived (.vacant folder name))
      ∨ stretch root place names = .failed .notFound := by
  rcases root.descend_cases place names with ⟨q, hq⟩ | ⟨before, name, rest, q, rfl, hstop⟩
  · rw [stretch_of_descend hq, Node.eq_append_of_descend hup hq]
    exact .inl rfl
  · -- where it stops there is no folder, and by the assumption there is nothing else
    have hq := Node.eq_append_of_descend (fun hmem => hup (List.mem_append_left _ hmem)) hstop.descend
    have hprefix : before.filter (!Path.isIdle ·) ++ [name]
        <+: (before ++ name :: rest).filter (!Path.isIdle ·) := by
      rw [List.filter_append, List.filter_cons_of_pos (by simp [hstop.isIdle_eq_false])]
      exact ⟨rest.filter (!Path.isIdle ·), by simp⟩
    have hthere := h _ hprefix
    rw [← List.append_assoc, ← hq, or_iff_right hstop.not_isFolderAt] at hthere
    rw [stretch_of_stopsAt hstop, hthere]
    cases rest with
    | nil => exact .inr (.inl ⟨q, name, rfl⟩)
    | cons _ _ => exact .inr (.inr rfl)

/-! ## Folders on the way -/

/-- On the way to where a path leads down there is nothing but folders, as far as there is anything. -/
def IsClear (d : Disk) (p : Path) : Prop :=
  ∀ r, r <+: p.steps →
    d.root.IsFolderAt (start d.folder p ++ r) ∨ d.root.get? (start d.folder p ++ r) = none

/-- **Where the outer folder is there**, only what stands where the path leads keeps a folder from
being made. -/
theorem exists_get?_of_makeFolder_ne_ok {outer : List Utf8.Bytes} {name : Utf8.Bytes} {k : Nat}
    (hp : p ≠ []) (hsegments : p.segments = outer ++ name :: List.replicate k []) (hne : name ≠ [])
    (hup : name ≠ Path.up) (hwalk : walk d.root (start d.folder p) outer = .ok (.taken q))
    (hq : d.root.IsFolderAt q) (hfail : ∀ e, d.makeFolder p ≠ .ok e) :
    ∃ node, d.root.get? (q ++ [name].filter (!Path.isIdle ·)) = some node := by
  obtain ⟨es, hes⟩ := hq
  by_cases hhere : name = Path.here
  · subst hhere
    exact ⟨.folder es, by simpa [Path.isIdle] using hes⟩
  have hidle : Path.isIdle name = false := by simp [Path.isIdle, hne, hhere]
  rw [makeFolder_of_segments hp hsegments hne, hwalk] at hfail
  simp only [hes, hhere, hup, decide_false, Bool.false_or] at hfail
  rw [List.filter_cons_of_pos (by simp [hidle]), List.filter_nil, Node.get?_append_singleton hes]
  cases hfind : Entries.find? name es with
  | none =>
    rw [hfind] at hfail
    exact absurd rfl (hfail _)
  | some node => exact ⟨node, rfl⟩

/-- **Where only folders are on the way**, a folder that is not there and cannot be made is missing an
outer one. -/
theorem makeFolder_eq_notFound (hd : d.WellFormed) (hp : p ≠ []) (hup : Path.up ∉ p.segments)
    (hclear : d.IsClear p) (hnone : d.folderAt? p = none) (hfail : ∀ e, d.makeFolder p ≠ .ok e) :
    d.makeFolder p = .error .notFound := by
  have hvacant : d.root.get? (start d.folder p ++ p.steps) = none :=
    (hclear _ (List.prefix_refl _)).resolve_left fun hfolder => by
      cases hnone.symm.trans ((folderAt?_eq_some_iff_of_up_not_mem hd hp hup).2 ⟨rfl, hfolder⟩)
  rcases p.segments_cases with hempty | ⟨outer, name, k, hsegments, hne⟩
  · -- a path without a name leads to where it starts
    have hsteps : p.steps = [] := List.filter_eq_nil_iff.2 fun s hs => by simp [hempty s hs, Path.isIdle]
    obtain ⟨es, hes⟩ := hd.isFolderAt_start p
    rw [hsteps, List.append_nil, hes] at hvacant
    cases hvacant
  have hsteps := Path.steps_of_segments hsegments
  rw [hsegments] at hup
  have hclear' : ∀ r, r <+: outer.filter (!Path.isIdle ·) →
      d.root.IsFolderAt (start d.folder p ++ r) ∨ d.root.get? (start d.folder p ++ r) = none :=
    fun r hr => hclear r (hsteps ▸ hr.trans (List.prefix_append _ _))
  rcases stretch_of_folders (fun hmem => hup (List.mem_append_left _ hmem)) hclear' with
    hstretch | ⟨folder, n, hstretch⟩ | hstretch
  · -- the outer folder is there, so something is where the path leads, but nothing may be
    have hfolder : d.root.IsFolderAt (start d.folder p ++ outer.filter (!Path.isIdle ·)) := by
      rcases get?_of_stretch (hd.isFolderAt_start p) hstretch with hfolder | ⟨contents, hfile⟩
      · exact hfolder
      · exact (hclear' _ (List.prefix_refl _)).resolve_right fun h => by cases h.symm.trans hfile
    obtain ⟨node, hnode⟩ := exists_get?_of_makeFolder_ne_ok hp hsegments hne
      (fun heq => hup (by simp [heq])) (walk_eq_ok hstretch) hfolder hfail
    rw [List.append_assoc, ← hsteps, hvacant] at hnode
    cases hnode
  · rw [makeFolder_of_segments hp hsegments hne, walk_eq_ok hstretch]
  · rw [makeFolder_of_segments hp hsegments hne, walk_eq_error hstretch]

/-- Making folders changes nothing, or makes a folder where nothing was. -/
theorem makeAll_eq_or_exists (hd : d.WellFormed) {ps : List Path} {refused : Option Cause}
    (h : makeAll ps d = (e, refused)) :
    e = d ∨ ∃ p ∈ ps, ∃ q, e.folderAt? p = some q ∧ d.root.get? q = none := by
  refine (makeAll_induction (fun e => d.Grown e
    ∧ (e = d ∨ ∃ p ∈ ps, ∃ q, e.folderAt? p = some q ∧ d.root.get? q = none)) ?_ ⟨.refl, .inl rfl⟩ h).2
  rintro e e' p hp ⟨hgrown, -⟩ hmake
  have he := hgrown.wellFormed hd
  obtain ⟨q, es, name, hes, -, hnone, -, -, hleads⟩ := makeFolder_eq_ok he hmake
  refine ⟨hgrown.trans (grown_makeFolder he hmake), .inr ⟨p, hp, _, hleads, ?_⟩⟩
  -- what was there before would still be there
  rw [Option.eq_none_iff_forall_ne_some]
  intro node hnode
  obtain ⟨node', hnode'⟩ := hgrown.extended.exists_get? hnode
  rw [Node.get?_append_singleton hes, hnone] at hnode'
  cases hnode'

theorem steps_prefix_of_isChain (hchain : (p :: outer).IsChain Path.Within) {p' : Path}
    (hp' : p' ∈ p :: outer) (hne : p' ≠ []) :
    p'.isAbsolute = p.isAbsolute ∧ p'.steps <+: p.steps := by
  rcases List.mem_cons.1 hp' with rfl | hp'
  · exact ⟨rfl, List.prefix_refl _⟩
  · refine Path.of_mem_of_isChain (fun p' => p'.isAbsolute = p.isAbsolute ∧ p'.steps <+: p.steps)
      ?_ hchain (fun _ => ⟨rfl, List.prefix_refl _⟩) p' hp' hne
    rintro r outer - hne hwithin ⟨habsolute, hsteps⟩
    obtain ⟨habsolute', hsteps', -⟩ := hwithin.resolve_left hne
    exact ⟨habsolute'.symm.trans habsolute, (hsteps' ▸ List.dropLast_prefix _).trans hsteps⟩

/-- **After folders have been made** there are only folders on the way. -/
theorem isClear_of_makeAll (hd : d.WellFormed) (hup : Path.up ∉ p.segments)
    (hchain : (p :: outer).IsChain Path.Within) {refused : Option Cause}
    (h : makeAll (p :: outer) d = (e, refused)) (hne : e ≠ d) : e.IsClear p := by
  have he := (grown_makeAll hd h).wellFormed hd
  obtain ⟨p', hp', q, hq, hnone⟩ := (makeAll_eq_or_exists hd h).resolve_left hne
  obtain ⟨habsolute, hsteps⟩ := steps_prefix_of_isChain hchain hp' (ne_nil_of_folderAt? hq)
  have hup' := Path.up_not_mem_of_prefix hup hsteps
  obtain ⟨rfl, hfolder⟩ := (folderAt?_eq_some_iff_of_up_not_mem he (ne_nil_of_folderAt? hq) hup').1 hq
  have hstart : start e.folder p' = start e.folder p := by rw [start, start, habsolute]
  rw [hstart] at hfolder hnone
  intro r hr
  rcases List.prefix_or_prefix_of_prefix hr hsteps with ⟨more, hmore⟩ | ⟨more, rfl⟩
  · rw [← hmore, ← List.append_assoc] at hfolder
    exact .inl (Node.isFolderAt_of_append hfolder)
  · -- nothing was below the new folder, so nothing but new folders is there
    rw [← List.append_assoc]
    have hbefore : d.shows (start e.folder p ++ p'.steps ++ more) = none := by
      rw [shows_eq_none_iff, Node.get?_append, hnone, Option.bind_none]
    have hfootprint : Footprint _ (fun _ _ => False) d e := footprint_makeAll hd h
    rcases hfootprint (start e.folder p ++ p'.steps ++ more) with
      hsame | ⟨-, -, hmade⟩ | ⟨_, hwritten, -⟩
    · exact .inr (shows_eq_none_iff.1 (hsame.trans hbefore))
    · exact .inl (shows_eq_folder_iff.1 hmade)
    · exact hwritten.elim

/-- **What fails without leading out of a folder fails alike**: the cause is the same again. The
induction is on the paths above; an outer folder that could not be made is found missing, and so is
tried again first. -/
theorem makeAll_fails_alike (hd : d.WellFormed) (hup : Path.up ∉ p.segments)
    (hchain : (p :: outer).IsChain Path.Within) {cause : Cause}
    (h : makeAll (p :: outer) d = (e, some cause)) : makeAll (p :: outer) e = (e, some cause) := by
  induction hn : outer.length using Nat.strong_induction_on generalizing p outer e cause with
  | _ n ih => ?_
  by_cases hsame : e = d
  · rw [hsame] at h ⊢
    exact h
  obtain ⟨hp, hnone, cause', hagain⟩ := makeAll_fails_again hd hchain h
  have he := (grown_makeAll hd h).wellFormed hd
  have hmissing : e.makeFolder p = .error .notFound :=
    makeFolder_eq_notFound he hp hup (isClear_of_makeAll hd hup hchain h hsame) hnone
      fun f hmake => by cases (makeAll_eq_of_ok hp hmake).symm.trans hagain
  cases hmake : d.makeFolder p with
  | ok f => cases (makeAll_eq_of_ok hp hmake).symm.trans h
  | error first =>
    by_cases hfirst : first = .notFound
    · subst hfirst
      rcases hall : makeAll outer d with ⟨d', _ | c⟩
      · -- the outer folders are there, and the one that is asked for is still missing another
        rw [makeAll_eq_of_outer hp hmake hall] at h
        cases hmake' : d'.makeFolder p with
        | ok f =>
          rw [hmake'] at h
          cases h
        | error second =>
          rw [hmake'] at h
          obtain rfl := (Prod.mk.inj h).1
          rw [makeAll_eq_of_outer hp hmissing (makeAll_again hd hall), hmake']
          exact h
      · obtain ⟨rfl, hcause⟩ :=
          Prod.mk.inj ((makeAll_eq_of_outer_fails hp hmake hall).symm.trans h)
        obtain rfl := Option.some.inj hcause
        cases outer with
        | nil => cases hall
        | cons next rest =>
          -- the outer folders failed, and by induction fail in the same way again
          obtain ⟨-, hrest⟩ := List.isChain_cons_cons.1 hchain
          obtain ⟨hnext, -⟩ := makeAll_fails_again hd hrest hall
          have hsteps := (steps_prefix_of_isChain hchain
            (List.mem_cons_of_mem p List.mem_cons_self) hnext).2
          exact makeAll_eq_of_outer_fails hp hmissing (ih rest.length (by simp [← hn])
            (Path.up_not_mem_of_prefix hup hsteps) hrest hall rfl)
    · rw [makeAll_eq_of_error hp hmake hfirst] at h
      exact absurd (Prod.mk.inj h).1.symm hsame

/-- **Without `..` an output folder that cannot be made** cannot be made for the same cause
afterwards. -/
theorem makeFolders_fails_alike (hd : d.WellFormed) (hp : p ≠ []) (hup : Path.up ∉ p.segments)
    {cause : Cause} (h : d.makeFolders p = (e, some cause)) : e.makeFolders p = (e, some cause) :=
  makeAll_fails_alike hd hup (Path.isChain_ancestors hp) h

end Disk

end MessageCompiler
