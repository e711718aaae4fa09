import MessageCompiler.Proofs.Disk.Links

/-!
# Folders that are spelled in another way

An idle name leads nowhere, so what comes of a walk to a name in a folder does not depend on the idle
names before it. Two paths of the same steps from the same start have the same names in them, on any
disk: whether through links or not, and also where they lead to nothing.

* **`stretch_filter`, `follow_filter`**: idle names before the last one make no difference.
* **`locate_join_congr`**: a name is looked for alike from two spellings of a folder.
* **`locate_defaultOutput_join`, `LeadsTo.locate_defaultOutput`**: the default output of a file in a
  folder is `built` in that folder.
-/

namespace MessageCompiler.Disk

variable {root : Node} {name : Utf8.Bytes} {d : Disk}

/-! ## Idle names -/

/-- **Idle names before the last one make no difference to a stretch**: it ends in the same way, with
the same names left but for idle ones. At the very end an idle name would count, since a file leads
nowhere. -/
theorem stretch_filter (hname : Path.isIdle name = false) (place : Place)
    (names : List Utf8.Bytes) :
    stretch root place (names.filter (!Path.isIdle ·) ++ [name])
      = match stretch root place (names ++ [name]) with
        | .linked folder target rest => .linked folder target (rest.filter (!Path.isIdle ·))
        | other => other := by
  rcases root.descend_cases place names with ⟨q, hq⟩ | ⟨before, stop, rest, q, rfl, hstop⟩
  · -- all of them lead through folders, and the last name is looked for from the same place
    rw [stretch_append_of_descend hq,
      stretch_append_of_descend ((Node.descend_filter place names).trans hq), stretch, hname,
      if_neg Bool.false_ne_true]
    split
    · rfl
    · cases root.get? (q ++ [name]) with
      | none => rfl
      | some node => cases node <;> rfl
  · have hstop' : root.StopsAt place (before.filter (!Path.isIdle ·)) q stop :=
      { hstop with descend := (Node.descend_filter place before).trans hstop.descend }
    have hleft (others : List Utf8.Bytes) : (others ++ [name]).isEmpty = false := by simp
    rw [List.filter_append, List.filter_cons_of_pos (by simp [hstop.isIdle_eq_false]),
      List.append_assoc, List.append_assoc, List.cons_append, List.cons_append,
      stretch_of_stopsAt hstop', stretch_of_stopsAt hstop, hleft, hleft]
    cases hnode : root.get? (q ++ [stop]) with
    | none => rfl
    | some node =>
      cases node with
      | folder es => rfl
      | file contents => rfl
      | link target =>
        dsimp only
        rw [List.filter_append, List.filter_singleton, hname, Bool.not_false, cond_true]

/-- **Idle names before the last one make no difference to a walk.** The induction is on the links
that are left; where one is followed, its own names come before those that are left, and the last
name is still the last. -/
theorem follow_filter (hname : Path.isIdle name = false) (n : Nat) (place : Place)
    (names : List Utf8.Bytes) :
    follow root n place (names.filter (!Path.isIdle ·) ++ [name])
      = follow root n place (names ++ [name]) := by
  induction n generalizing place names with
  | zero => rfl
  | succ n ih =>
    rw [follow, follow, stretch_filter hname]
    cases hstretch : stretch root place (names ++ [name]) with
    | arrived spot => rfl
    | failed cause => rfl
    | linked folder target rest =>
      dsimp only
      rcases List.eq_nil_or_concat rest with rfl | ⟨more, last, rfl⟩
      · rfl
      · -- the names that are left are a suffix of all, so they end in the same one
        have hlast : last = name := by
          obtain ⟨before, hbefore⟩ := suffix_of_linked hstretch
          have := congrArg List.getLast? hbefore
          simpa using this
        rw [hlast, List.concat_eq_append, List.filter_append, List.filter_singleton, hname,
          Bool.not_false, cond_true, ← List.append_assoc, ← List.append_assoc,
          ← ih _ (target.segments ++ more.filter _), ← ih _ (target.segments ++ more),
          List.filter_append, List.filter_append, List.filter_filter]
        simp only [Bool.and_self]

theorem follow_congr {names names' : List Utf8.Bytes}
    (h : names.filter (!Path.isIdle ·) = names'.filter (!Path.isIdle ·))
    (hname : Path.isIdle name = false) (n : Nat) (place : Place) :
    follow root n place (names ++ [name]) = follow root n place (names' ++ [name]) := by
  rw [← follow_filter hname, h, follow_filter hname]

/-! ## Spellings of a folder -/

/-- **A name is looked for alike from two spellings of a folder**: only the steps of the folder's path
count, and where they start. -/
theorem locate_join_congr {p p' : Path} (hp : p ≠ []) (hp' : p' ≠ [])
    (habsolute : p.isAbsolute = p'.isAbsolute) (hsteps : p.steps = p'.steps)
    (hname : Path.IsName name) : d.locate (p.join name) = d.locate (p'.join name) := by
  obtain ⟨ss, -, hss, hjoin⟩ := Path.segments_join hp
  obtain ⟨ss', -, hss', hjoin'⟩ := Path.segments_join hp'
  have hsame : ss.filter (!Path.isIdle ·) = ss'.filter (!Path.isIdle ·) := by
    rw [← Path.steps_eq_filter hss, ← Path.steps_eq_filter hss', hsteps]
  rw [locate_eq (Path.join_ne_nil p hname), locate_eq (Path.join_ne_nil p' hname),
    start_join hp hname, start_join hp' hname, hjoin hname, hjoin' hname, start, start, habsolute]
  exact follow_congr hsame hname.isIdle_eq_false 41 _

/-- The folder that one is in need not be spelled before a name. -/
theorem locate_orHere_join (folder : Path) (hname : Path.IsName name) :
    d.locate (folder.orHere.join name) = d.locate (folder.join name) := by
  by_cases hfolder : folder = []
  · subst hfolder
    have hhere : Path.here ≠ [] := List.cons_ne_nil _ _
    rw [Path.orHere_nil, Path.join_nil, locate_eq (Path.join_ne_nil _ hname),
      locate_eq hname.ne_nil, start_join hhere hname, Path.segments_here_join hname,
      Path.segments_eq_singleton hname.no_slash, start, start,
      Path.isAbsolute_eq_false hname.no_slash]
    exact (follow_filter hname.isIdle_eq_false 41 _ [Path.here]).symm
  · rw [Path.orHere_of_ne_nil hfolder]

/-- **The default output of a file in a folder is looked for as `built` in that folder**, however the
folder is spelled, and whether anything is there or not. -/
theorem locate_defaultOutput_join (folder : Path) (hname : Path.IsName name) :
    d.locate (folder.join name).defaultOutput = d.locate (folder.join Path.built) := by
  by_cases hfolder : folder = []
  · subst hfolder
    rw [Path.join_nil, Path.defaultOutput_name hname]
    exact locate_orHere_join [] Path.isName_built
  · obtain ⟨parent, hparent, habsolute, hsteps, hdefault⟩ := Path.defaultOutput_join hfolder
    rw [hdefault hname]
    exact locate_join_congr hparent hfolder habsolute hsteps Path.isName_built

/-- **Where the folder's path leads to a folder**, the default output of a file in it is the place
`built` there, unless a link has that name. -/
theorem LeadsTo.locate_defaultOutput (hd : d.Orderly) {folder : Path} {q : Place}
    (hq : d.LeadsTo folder.orHere q) (hname : Path.IsName name)
    (hlink : ∀ target, d.root.get? (q ++ [Path.built]) ≠ some (.link target)) :
    d.locate (folder.join name).defaultOutput = .ok
      (if (d.root.get? (q ++ [Path.built])).isSome then .taken (q ++ [Path.built])
        else .vacant q Path.built) := by
  rw [locate_defaultOutput_join folder hname, ← locate_orHere_join folder Path.isName_built]
  exact hq.locate_join hd Path.isName_built hlink

end MessageCompiler.Disk
