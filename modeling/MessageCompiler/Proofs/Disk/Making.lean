import MessageCompiler.Proofs.Disk.Growth

/-!
# Making folders

What `Disk.makeFolders` leaves behind on a well-formed disk, and what it does when it is asked again
for the same folder: nothing, and it succeeds or fails as it did before. That is why builds may
share an output folder.

* **`makeFolder_eq_ok`**: a folder that is made is new, and one outer folder is there already.
* **`makeAll_of_folderAt?`**: a folder that is there is left as it is.
* **`isChain_ancestors`**: each path above a path leads one step less far.
* **`makeFolders_again`, `makeFolders_fails_again`**: making folders is idempotent.
-/

namespace MessageCompiler

namespace Path

/-! ## The paths above a path -/

/-- What a path has to do with the one above it: that is the empty path, or it has the same start
and one step less. -/
def Within (p outer : Path) : Prop :=
  outer = [] ∨ p.isAbsolute = outer.isAbsolute ∧ p.steps.dropLast = outer.steps ∧ p.steps ≠ []

theorem isChain_above {first : Utf8.Bytes} (hfirst : slash ∉ first) {rest : List Utf8.Bytes}
    (hrest : ∀ s ∈ rest, slash ∉ s) {p : Path} (habsolute : p.isAbsolute = first.isEmpty)
    (hsteps : p.steps = (first :: rest.reverse).filter (!isIdle ·)) :
    (p :: above first rest).IsChain Within := by
  induction rest generalizing p with
  | nil =>
    rw [above]
    split
    · exact List.IsChain.singleton p
    · exact List.IsChain.cons_cons (.inl rfl) (List.IsChain.singleton _)
  | cons segment rest ih =>
    have hrest' : ∀ s ∈ rest, slash ∉ s := fun s hs => hrest s (List.mem_cons_of_mem _ hs)
    rw [List.reverse_cons, ← List.cons_append, List.filter_append] at hsteps
    rw [above]
    split
    · next hidle =>
      have hdrop : [segment].filter (!isIdle ·) = [] := by simp [hidle]
      refine ih hrest' habsolute ?_
      rw [hsteps, hdrop, List.append_nil]
    · -- the name is a step, and without it the steps are those of the next outer path
      next hidle =>
      have hkeep : [segment].filter (!isIdle ·) = [segment] := by simp [hidle]
      rw [hkeep] at hsteps
      refine List.IsChain.cons_cons (.inr ⟨?_, ?_, ?_⟩)
        (ih hrest' (isAbsolute_spelled hfirst) (steps_spelled hfirst hrest'))
      · rw [habsolute, isAbsolute_spelled hfirst]
      · rw [hsteps, List.dropLast_concat, steps_spelled hfirst hrest']
      · rw [hsteps]
        simp

/-- **Each path above a path leads one step less far**, but for the last. -/
theorem isChain_ancestors {p : Path} (hp : p ≠ []) : (p :: p.ancestors).IsChain Within := by
  obtain ⟨first, rest, hss⟩ := List.exists_cons_of_ne_nil (segments_ne_nil p)
  have hslash : ∀ s ∈ first :: rest, slash ∉ s := fun s hs =>
    slash_not_mem_of_mem_segments (hss ▸ hs)
  rw [ancestors, hss]
  refine isChain_above (hslash first List.mem_cons_self)
    (fun s hs => hslash s (List.mem_cons_of_mem _ (List.mem_reverse.1 hs))) (isAbsolute_eq hp hss) ?_
  rw [steps, hss, List.reverse_reverse]

/-- **What holds of a path and of each path that it lies within** holds of all paths above it, but for
the empty path at the end. -/
theorem of_mem_of_isChain (kind : Path → Prop)
    (hstep : ∀ {p outer : Path}, p ≠ [] → outer ≠ [] → p.Within outer → kind p → kind outer) {p : Path}
    {outer : List Path} (hchain : (p :: outer).IsChain Within) (hp : p ≠ [] → kind p) :
    ∀ p' ∈ outer, p' ≠ [] → kind p' := by
  induction outer generalizing p with
  | nil => exact List.forall_mem_nil _
  | cons next rest ih =>
    obtain ⟨hwithin, hrest⟩ := List.isChain_cons_cons.1 hchain
    have hnext : next ≠ [] → kind next := fun hne => by
      -- nothing is above the empty path
      have hne' : p ≠ [] := by
        rintro rfl
        exact (hwithin.resolve_left hne).2.2 rfl
      exact hstep hne' hne hwithin (hp hne')
    exact List.forall_mem_cons.2 ⟨hnext, ih hrest hnext⟩

end Path

namespace Disk

variable {d e : Disk}

/-! ## Making one folder -/

theorem descend_of_walk_eq_ok (hd : d.WellFormed) {place q : Place} {names : List Utf8.Bytes}
    (h : walk d.root place names = .ok (.taken q)) {es : Entries}
    (hes : d.root.get? q = some (.folder es)) : d.root.descend place names = some q := by
  cases hdescend : d.root.descend place names with
  | some q' =>
    rw [walk_of_descend hdescend] at h
    rw [Spot.taken.inj (Except.ok.inj h)]
  | none =>
    rcases stretch_of_descend_eq_none hd.tree hdescend with ⟨cause, hs⟩ | ⟨folder, name, hs⟩
      | ⟨q', contents, hs, hfile⟩
    · rw [walk_eq_error hs] at h
      cases h
    · rw [walk_eq_ok hs] at h
      cases Except.ok.inj h
    · rw [walk_eq_ok hs] at h
      rw [Spot.taken.inj (Except.ok.inj h), hes] at hfile
      cases hfile

/-- **A folder that is made is new, and its outer folder is there already.** -/
theorem makeFolder_eq_ok (hd : d.WellFormed) {p : Path} (h : d.makeFolder p = .ok e) :
    ∃ q es name, d.root.get? q = some (.folder es) ∧ Path.IsName name
      ∧ Entries.find? name es = none ∧ e = d.put (q ++ [name]) (.folder [])
      ∧ d.root.descend (start d.folder p) p.steps.dropLast = some q
      ∧ e.folderAt? p = some (q ++ [name]) := by
  obtain ⟨outer, name, k, q, es, hp, hsegments, hwalk, hes, hname, hnone, he⟩ := makeFolder_inv h
  -- the empty segments at the end of the path are idle, so the name is its last step
  have hsteps : p.steps = outer.filter (!Path.isIdle ·) ++ [name] := by
    rw [Path.steps_of_segments hsegments, List.filter_singleton, hname.isIdle_eq_false]
    rfl
  have hdescend := descend_of_walk_eq_ok hd hwalk hes
  have hgrown : d.Grown (d.put (q ++ [name]) (.folder [])) := .single hes hname (.folder hnone)
  refine ⟨q, es, name, hes, hname, hnone, he, ?_, ?_⟩
  · rw [hsteps, List.dropLast_concat, Node.descend_filter, hdescend]
  · have hq := hgrown.descend hdescend
    have hput : (d.put (q ++ [name]) (.folder [])).root.get? (q ++ [name]) = some (.folder []) :=
      Node.get?_put_self _ _ _
    rw [he, folderAt?_eq hp, hsteps, Node.descend_append, Node.descend_filter, hgrown.folder_eq, hq,
      Option.bind_some, Node.descend_singleton hname, hput]

theorem grown_makeFolder (hd : d.WellFormed) {p : Path} (h : d.makeFolder p = .ok e) :
    d.Grown e := by
  obtain ⟨q, es, name, hes, hname, hnone, rfl, -, -⟩ := makeFolder_eq_ok hd h
  exact .single hes hname (.folder hnone)

theorem makeFolder_ne_ok_of_within (hd : d.WellFormed) {p outer : Path} (hp : p ≠ [])
    (hwithin : p.Within outer) (houter : outer ≠ []) (hnone : d.folderAt? outer = none) :
    (∀ e, d.makeFolder p ≠ .ok e) ∧ d.folderAt? p = none := by
  obtain ⟨habsolute, hsteps, hne⟩ := hwithin.resolve_left houter
  have hdescend : d.root.descend (start d.folder p) p.steps.dropLast = none := by
    rw [folderAt?_eq houter, start, ← habsolute] at hnone
    rw [hsteps, start, hnone]
  constructor
  · intro e h
    obtain ⟨q, -, -, -, -, -, -, hq, -⟩ := makeFolder_eq_ok hd h
    rw [hdescend] at hq
    cases hq
  · rw [folderAt?_eq hp, ← List.dropLast_append_getLast hne, Node.descend_append, hdescend]
    rfl

/-! ## Making all folders on the way -/

theorem grown_makeAll (hd : d.WellFormed) {ps : List Path} {refused : Option Cause}
    (h : makeAll ps d = (e, refused)) : d.Grown e :=
  makeAll_induction d.Grown
    (fun _ hgrown hmake => hgrown.trans (grown_makeFolder (hgrown.wellFormed hd) hmake)) .refl h

theorem folderAt?_of_makeAll (hd : d.WellFormed) {p : Path} (hp : p ≠ []) {outer : List Path}
    (h : makeAll (p :: outer) d = (e, none)) : ∃ q, e.folderAt? p = some q :=
  (isFolder_eq_true_iff ((grown_makeAll hd h).wellFormed hd)).1 (isFolder_of_makeAll hd.orderly hp h)

/-- **A folder that is there is left as it is.** -/
theorem makeAll_of_folderAt? (hd : d.WellFormed) {p : Path} {q : Place}
    (hq : d.folderAt? p = some q) (outer : List Path) : makeAll (p :: outer) d = (d, none) :=
  makeAll_of_isFolder hd.orderly ((isFolder_eq_true_iff hd).2 ⟨q, hq⟩) outer

/-! Making folders once more, case by case of what becomes of the first attempt. -/

section Cases

variable {p : Path} {outer : List Path}

theorem makeAll_nil_cons (outer : List Path) (d : Disk) : makeAll ([] :: outer) d = (d, none) := by
  rw [makeAll]
  rfl

theorem makeAll_eq_of_ok (hp : p ≠ []) (h : d.makeFolder p = .ok e) :
    makeAll (p :: outer) d = (e, none) := by
  rw [makeAll, if_neg (by simpa using hp), h]

theorem makeAll_eq_of_error (hp : p ≠ []) {cause : Cause} (h : d.makeFolder p = .error cause)
    (hcause : cause ≠ .notFound) :
    makeAll (p :: outer) d = (d, if d.isFolder p then none else some cause) := by
  rw [makeAll, if_neg (by simpa using hp), h]
  cases cause with
  | notFound => exact absurd rfl hcause
  | _ => rfl

theorem makeAll_eq_of_outer_fails (hp : p ≠ []) (h : d.makeFolder p = .error .notFound)
    {cause : Cause} (houter : makeAll outer d = (e, some cause)) :
    makeAll (p :: outer) d = (e, some cause) := by
  rw [makeAll, if_neg (by simpa using hp), h]
  generalize makeAll outer d = made at houter ⊢
  subst houter
  rfl

/-- Once the outer folders are there, the folder itself is tried again. -/
theorem makeAll_eq_of_outer (hp : p ≠ []) (h : d.makeFolder p = .error .notFound)
    (houter : makeAll outer d = (e, none)) :
    makeAll (p :: outer) d = match e.makeFolder p with
      | .ok e => (e, none)
      | .error cause => (e, if e.isFolder p then none else some cause) := by
  rw [makeAll, if_neg (by simpa using hp), h]
  generalize makeAll outer d = made at houter ⊢
  subst houter
  rfl

theorem eq_of_refused (hd : d.WellFormed) {first cause : Cause}
    (h : (d, if d.isFolder p then none else some first) = (e, some cause)) :
    d = e ∧ e.folderAt? p = none := by
  obtain ⟨rfl, hsome⟩ := Prod.mk.inj h
  split at hsome
  · cases hsome
  · next hnone => exact ⟨rfl, (isFolder_eq_false_iff hd).1 (Bool.eq_false_iff.2 hnone)⟩

/-- A folder that is not there and cannot be made is refused, if the outer folders are there or cannot
be made either. -/
theorem exists_makeAll_eq_refused (hd : d.WellFormed) (hp : p ≠ []) (hnone : d.folderAt? p = none)
    {cause : Cause} (h : d.makeFolder p = .error cause)
    (houter : cause = .notFound → ∃ refused, makeAll outer d = (d, refused)) :
    ∃ cause', makeAll (p :: outer) d = (d, some cause') := by
  have hrefused (c : Cause) : (if d.isFolder p then none else some c) = some c := by
    rw [(isFolder_eq_false_iff hd).2 hnone]
    rfl
  by_cases hcause : cause = .notFound
  · subst hcause
    obtain ⟨_ | c, hmade⟩ := houter rfl
    · refine ⟨.notFound, ?_⟩
      rw [makeAll_eq_of_outer hp h hmade, h]
      exact congrArg (d, ·) (hrefused _)
    · exact ⟨c, makeAll_eq_of_outer_fails hp h hmade⟩
  · refine ⟨cause, ?_⟩
    rw [makeAll_eq_of_error hp h hcause, hrefused]

end Cases

/-- **What has been made is not made again.** -/
theorem makeAll_again (hd : d.WellFormed) {ps : List Path} (h : makeAll ps d = (e, none)) :
    makeAll ps e = (e, none) := by
  cases ps with
  | nil => rfl
  | cons p outer =>
    by_cases hp : p = []
    · rw [hp, makeAll_nil_cons]
    · obtain ⟨q, hq⟩ := folderAt?_of_makeAll hd hp h
      exact makeAll_of_folderAt? ((grown_makeAll hd h).wellFormed hd) hq outer

/-- **Where making folders has failed it fails again**, and nothing is left to be made before that.
The induction is on the paths above: when one of them cannot be made, the path itself is in no
folder. -/
theorem makeAll_fails_again (hd : d.WellFormed) {p : Path} {outer : List Path}
    (hchain : (p :: outer).IsChain Path.Within) {cause : Cause}
    (h : makeAll (p :: outer) d = (e, some cause)) :
    p ≠ [] ∧ e.folderAt? p = none ∧ ∃ cause', makeAll (p :: outer) e = (e, some cause') := by
  induction hn : outer.length using Nat.strong_induction_on generalizing p outer d e cause with
  | _ n ih => ?_
  have hp : p ≠ [] := by
    rintro rfl
    rw [makeAll_nil_cons] at h
    cases h
  refine ⟨hp, ?_⟩
  cases hmake : d.makeFolder p with
  | ok d' =>
    rw [makeAll_eq_of_ok hp hmake] at h
    cases h
  | error first =>
    by_cases hfirst : first = .notFound
    · subst hfirst
      rcases hall : makeAll outer d with ⟨d', refused⟩
      have hd' := (grown_makeAll hd hall).wellFormed hd
      cases refused with
      | some c =>
        obtain ⟨rfl, -⟩ := Prod.mk.inj ((makeAll_eq_of_outer_fails hp hmake hall).symm.trans h)
        cases outer with
        | nil =>
          rw [makeAll] at hall
          cases hall
        | cons q rest =>
          -- the outer folder could not be made, and never can be
          obtain ⟨hwithin, hrest⟩ := List.isChain_cons_cons.1 hchain
          obtain ⟨hq, hnone, c', hagain⟩ := ih rest.length (by simp [← hn]) hd hrest hall rfl
          obtain ⟨hnot, hnone'⟩ := makeFolder_ne_ok_of_within hd' hp hwithin hq hnone
          refine ⟨hnone', ?_⟩
          cases hmake' : d'.makeFolder p with
          | ok f => exact absurd hmake' (hnot f)
          | error second =>
            exact exists_makeAll_eq_refused hd' hp hnone' hmake' fun _ => ⟨_, hagain⟩
      | none =>
        -- the outer folders are there from now on
        rw [makeAll_eq_of_outer hp hmake hall] at h
        cases hmake' : d'.makeFolder p with
        | ok f =>
          rw [hmake'] at h
          cases h
        | error second =>
          rw [hmake'] at h
          obtain ⟨rfl, hnone⟩ := eq_of_refused hd' h
          exact ⟨hnone, exists_makeAll_eq_refused hd' hp hnone hmake' fun _ =>
            ⟨_, makeAll_again hd hall⟩⟩
    · rw [makeAll_eq_of_error hp hmake hfirst] at h
      obtain ⟨rfl, hnone⟩ := eq_of_refused hd h
      exact ⟨hnone, exists_makeAll_eq_refused hd hp hnone hmake (absurd · hfirst)⟩

/-! ## Making an output folder -/

theorem grown_makeFolders (hd : d.WellFormed) {p : Path} {refused : Option Cause}
    (h : d.makeFolders p = (e, refused)) : d.Grown e :=
  grown_makeAll hd h

theorem folderAt?_makeFolders (hd : d.WellFormed) {p : Path} (hp : p ≠ [])
    (h : d.makeFolders p = (e, none)) : ∃ q, e.folderAt? p = some q :=
  folderAt?_of_makeAll hd hp h

/-- **An output folder is made once**: it is left as it is from then on. -/
theorem makeFolders_again (hd : d.WellFormed) {p : Path} {q : Place}
    (hq : d.folderAt? p = some q) : d.makeFolders p = (d, none) :=
  makeAll_of_folderAt? hd hq _

/-- **An output folder that cannot be made never can**, and trying it again changes nothing. -/
theorem makeFolders_fails_again (hd : d.WellFormed) {p : Path} (hp : p ≠ []) {cause : Cause}
    (h : d.makeFolders p = (e, some cause)) : ∃ cause', e.makeFolders p = (e, some cause') :=
  (makeAll_fails_again hd (Path.isChain_ancestors hp) h).2.2

/-- **In a folder that is there an output folder is made** where nothing is, left as it is where a
folder is, and refused where a file is. -/
theorem makeFolders_join (hd : d.WellFormed) {p : Path} {q : Place} (hq : d.folderAt? p = some q)
    {name : Utf8.Bytes} (hname : Path.IsName name) : d.makeFolders (p.join name)
      = match d.root.get? (q ++ [name]) with
        | none => (d.put (q ++ [name]) (.folder []), none)
        | some (.folder _) => (d, none)
        | some _ => (d, some .exists) := by
  have hjoin := Path.join_ne_nil p hname
  obtain ⟨es, hes⟩ := hd.isFolderAt hq
  obtain ⟨ss, hsegments, hdescend⟩ := exists_segments_join hq hname
  have hmake : d.makeFolder (p.join name) = if (Entries.find? name es).isSome then .error .exists
      else .ok (d.put (q ++ [name]) (.folder [])) := by
    -- the name stands last, with no empty segment behind it
    rw [makeFolder_of_segments (k := 0) hjoin hsegments hname.ne_nil,
      start_join (ne_nil_of_folderAt? hq) hname, walk_of_descend hdescend]
    simp only [hes, hname.ne_here, hname.ne_up, decide_false, Bool.false_or]
  rw [Node.get?_append_singleton hes]
  cases hfind : Entries.find? name es with
  | none =>
    rw [hfind] at hmake
    exact makeAll_eq_of_ok hjoin hmake
  | some node =>
    rw [hfind] at hmake
    have hisFolder : d.isFolder (p.join name) = node.isFolder := by
      rw [isFolder, find_join hd hq hname, Node.get?_append_singleton hes, hfind]
      cases node <;> rfl
    show makeAll _ d = _
    rw [makeAll_eq_of_error hjoin hmake (fun h => by cases h), hisFolder]
    cases node <;> rfl

end Disk

end MessageCompiler
