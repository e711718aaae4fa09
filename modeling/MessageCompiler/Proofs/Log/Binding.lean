import MessageCompiler.Log.Control
import Mathlib.Data.List.Induction

/-!
# What a level control has come to

A control keeps the levels of its filters and the number of the one that it is bound to. Both can be
told from the history of what it was asked for: which filters were made and which of them dropped, which
one was installed first, and which level was set last without being refused.

* **`Tells`**: the control is what its history says. Every action keeps it so, one lemma for each kind of
  action (`tells_act`), and so does a whole run (`tells_run`).
* **`state_run`**: the filter that is bound, the outcome of every action, and the level of every filter,
  after any history.
-/

namespace MessageCompiler.Log.Control

/-! ## Histories -/

namespace Action

/-- The level of the filter that an action makes, if it makes one. -/
def made? : Action → Option Level
  | .create level => some level
  | _ => none

/-- The filter that an action would bind the control to. -/
def installed? : Action → Option Nat
  | .install i => some i
  | _ => none

/-- The level that an action would set. -/
def level? : Action → Option Level
  | .setLevel level => some level
  | _ => none

end Action

/-- The levels that filters were made with, in the order of the filters' numbers. -/
def made (history : List Action) : List Level := history.filterMap Action.made?

/-- The filter that was installed first. -/
def firstInstalled (history : List Action) : Option Nat :=
  (history.filterMap Action.installed?).head?

/-- A filter was dropped when it had been made. -/
def Dropped (i : Nat) (history : List Action) : Prop :=
  ∃ before, before ++ [.drop i] <+: history ∧ i < (made before).length

/-- The actions that are not refused, when they are taken in order. -/
def granted (c : Control) : List Action → List Action
  | [] => []
  | a :: rest =>
    match c.act a with
    | .ok c' => a :: c'.granted rest
    | .error _ => c.granted rest

/-- The levels that were set, in order; a level that was refused is none of them. -/
def levelsSet (history : List Action) : List Level :=
  (granted {} history).filterMap Action.level?

variable {c : Control} {history : List Action} {levels : List Level} {i j : Nat}

theorem run_append (c : Control) (as bs : List Action) : c.run (as ++ bs) = (c.run as).run bs :=
  List.foldl_append

theorem made_concat (history : List Action) (a : Action) :
    made (history ++ [a]) = made history ++ a.made?.toList := by
  rw [made, List.filterMap_append, made]
  cases a <;> rfl

theorem firstInstalled_append (history later : List Action) :
    firstInstalled (history ++ later) = (firstInstalled history).or (firstInstalled later) := by
  rw [firstInstalled, List.filterMap_append, List.head?_append]
  rfl

theorem firstInstalled_concat (history : List Action) (a : Action) :
    firstInstalled (history ++ [a]) = (firstInstalled history).or a.installed? := by
  rw [firstInstalled_append]
  cases a <;> rfl

theorem dropped_concat_iff {a : Action} :
    Dropped i (history ++ [a]) ↔ Dropped i history ∨ a = .drop i ∧ i < (made history).length := by
  constructor
  · rintro ⟨before, hprefix, hi⟩
    rcases List.prefix_concat_iff.1 hprefix with heq | hprefix
    · obtain ⟨rfl, hlast⟩ := List.append_inj' heq rfl
      exact .inr ⟨(List.singleton_inj.1 hlast).symm, hi⟩
    · exact .inl ⟨before, hprefix, hi⟩
  · rintro (⟨before, hprefix, hi⟩ | ⟨rfl, hi⟩)
    · exact ⟨before, hprefix.trans (List.prefix_append _ _), hi⟩
    · exact ⟨history, List.prefix_rfl, hi⟩

theorem Dropped.lt_length (h : Dropped i history) : i < (made history).length := by
  obtain ⟨before, ⟨rest, rfl⟩, hi⟩ := h
  rw [made, List.filterMap_append, List.filterMap_append, List.length_append, List.length_append]
  exact Nat.lt_add_right _ (Nat.lt_add_right _ hi)

theorem granted_append (c : Control) (as bs : List Action) :
    c.granted (as ++ bs) = c.granted as ++ (c.run as).granted bs := by
  induction as generalizing c with
  | nil => rfl
  | cons a rest ih =>
    rw [List.cons_append, granted, granted]
    show _ = _ ++ (((c.act a).toOption.getD c).run rest).granted bs
    cases c.act a with
    | ok c' => exact congrArg (a :: ·) (ih c')
    | error fault => exact ih c

section OneMore

variable {a : Action}

theorem run_concat_of_ok {c' : Control} (h : (run c history).act a = .ok c') :
    run c (history ++ [a]) = c' := by
  rw [run_append]
  show ((run c history).act a).toOption.getD _ = c'
  rw [h]
  rfl

theorem run_concat_of_error {fault : ControlFault} (h : (run c history).act a = .error fault) :
    run c (history ++ [a]) = run c history := by
  rw [run_append]
  show ((run c history).act a).toOption.getD _ = _
  rw [h]
  rfl

theorem levelsSet_concat_of_ok {c' : Control} (h : (run {} history).act a = .ok c') :
    levelsSet (history ++ [a]) = levelsSet history ++ a.level?.toList := by
  rw [levelsSet, granted_append, List.filterMap_append, granted, h]
  cases a <;> rfl

theorem levelsSet_concat_of_error {fault : ControlFault}
    (h : (run {} history).act a = .error fault) :
    levelsSet (history ++ [a]) = levelsSet history := by
  rw [levelsSet, granted_append, List.filterMap_append, granted, h]
  exact List.append_nil _

end OneMore

/-! ## One action -/

theorem level?_set (c : Control) (i j : Nat) (level : Option Level) :
    level? j { c with filters := c.filters.set i level }
      = if i = j ∧ j < c.filters.length then level else c.level? j := by
  unfold level?
  by_cases hij : i = j
  · subst hij
    by_cases hi : i < c.filters.length
    · simp [hi]
    · simp [hi]
  · simp [hij]

theorem level?_create (c : Control) (j : Nat) (level : Level) :
    (c.create level).level? j = if j = c.filters.length then some level else c.level? j := by
  unfold level? create
  by_cases hj : j = c.filters.length
  · simp [hj]
  · rw [if_neg hj, List.getElem?_append, List.getElem?_singleton]
    split
    · rfl
    · rw [if_neg (by omega), List.getElem?_eq_none (by omega)]

theorem lt_length_of_level? {level : Level} (h : c.level? i = some level) :
    i < c.filters.length :=
  (List.getElem?_eq_some_iff.1 (Option.join_eq_some_iff.1 h)).1

theorem install_eq (c : Control) (i : Nat) : c.install i
    = if c.bound = none then .ok { c with bound := some i } else .error .alreadyInstalled := by
  unfold install
  cases c.bound <;> rfl

theorem setLevel_of_unbound (h : c.bound = none) (level : Level) :
    c.setLevel level = .error .notInitialized := by
  rw [setLevel, h]

theorem setLevel_of_gone (h : c.bound = some i) (hgone : c.level? i = none) (level : Level) :
    c.setLevel level = .error .filterGone := by
  simp only [setLevel, h, hgone]

theorem setLevel_of_alive {old : Level} (h : c.bound = some i) (hold : c.level? i = some old)
    (level : Level) :
    c.setLevel level = .ok { c with filters := c.filters.set i (some level) } := by
  simp only [setLevel, h, hold]

/-! ## What the history says -/

/-- The control is what its history says, with the levels that were set in it. -/
structure Tells (c : Control) (history : List Action) (levels : List Level) : Prop where
  bound : c.bound = firstInstalled history
  length_filters : c.filters.length = (made history).length
  /-- A level is set only if the control is bound to a filter that has been made. -/
  exists_bound : levels ≠ [] → ∃ i, c.bound = some i ∧ i < (made history).length
  level?_of_dropped : ∀ i, Dropped i history → c.level? i = none
  level?_of_made : ∀ i start, (made history)[i]? = some start → ¬ Dropped i history →
    c.level? i = some (if c.bound = some i then levels.getLast?.getD start else start)

namespace Tells

theorem start : Tells {} [] [] where
  bound := rfl
  length_filters := rfl
  exists_bound := absurd rfl
  level?_of_dropped := by
    rintro i ⟨before, hprefix, -⟩
    exact absurd (List.prefix_nil.1 hprefix) (List.concat_ne_nil _ _)
  level?_of_made := by simp [made]

/-- What is asked for is told by the filters that are made, installed first, and dropped. -/
theorem of_history (h : c.Tells history levels) {history' : List Action}
    (hmade : made history' = made history)
    (hfirst : firstInstalled history' = firstInstalled history)
    (hdropped : ∀ i, Dropped i history' ↔ Dropped i history) : c.Tells history' levels where
  bound := h.bound.trans hfirst.symm
  length_filters := hmade ▸ h.length_filters
  exists_bound := hmade ▸ h.exists_bound
  level?_of_dropped i hi := h.level?_of_dropped i ((hdropped i).1 hi)
  level?_of_made i start hstart hi :=
    h.level?_of_made i start (hmade ▸ hstart) fun hbefore => hi ((hdropped i).2 hbefore)

/-- A level that is asked for makes no difference to what else has been asked for. -/
theorem ask_setLevel (h : c.Tells history levels) (level : Level) :
    c.Tells (history ++ [.setLevel level]) levels := by
  refine h.of_history ?_ ?_ fun i => ?_
  · exact (made_concat _ _).trans (List.append_nil _)
  · exact (firstInstalled_concat _ _).trans Option.or_none
  · simp [dropped_concat_iff]

/-- Nor does a filter that comes too late to be bound. -/
theorem ask_install (h : c.Tells history levels) (hbound : c.bound ≠ none) (i : Nat) :
    c.Tells (history ++ [.install i]) levels := by
  refine h.of_history ?_ ?_ fun j => ?_
  · exact (made_concat _ _).trans (List.append_nil _)
  · obtain ⟨first, hfirst⟩ := Option.ne_none_iff_exists'.1 hbound
    rw [firstInstalled_concat, ← h.bound, hfirst]
    rfl
  · simp [dropped_concat_iff]

theorem create (h : c.Tells history levels) (level : Level) :
    (c.create level).Tells (history ++ [.create level]) levels := by
  have hmade : made (history ++ [.create level]) = made history ++ [level] := made_concat _ _
  have hlength := h.length_filters
  have hdropped (i : Nat) : Dropped i (history ++ [.create level]) ↔ Dropped i history := by
    simp [dropped_concat_iff]
  refine ⟨?_, ?_, fun hne => ?_, fun i hi => ?_, fun i start hstart hi => ?_⟩
  · rw [firstInstalled_concat]
    exact h.bound.trans Option.or_none.symm
  · rw [hmade, List.length_append, ← hlength]
    exact List.length_append
  · obtain ⟨i, hi, hlt⟩ := h.exists_bound hne
    exact ⟨i, hi, by rw [hmade, List.length_append]; omega⟩
  · have hlt := Dropped.lt_length ((hdropped i).1 hi)
    rw [level?_create, if_neg (by omega)]
    exact h.level?_of_dropped i ((hdropped i).1 hi)
  · rw [hmade] at hstart
    rw [level?_create]
    -- only the new filter starts now; the levels of the others are those of before
    by_cases hnew : i = c.filters.length
    · -- no level has been set yet if the control was bound to the new filter beforehand
      have hlevels : c.bound = some i → levels = [] := by
        intro hbound
        by_contra hne
        obtain ⟨j, hj, hlt⟩ := h.exists_bound hne
        have hij : i = j := Option.some.inj (hbound.symm.trans hj)
        omega
      obtain rfl : level = start := by simpa [hnew, hlength] using hstart
      rw [if_pos hnew]
      show some level = some (if c.bound = some i then _ else level)
      split
      · next hbound => rw [hlevels hbound]; rfl
      · rfl
    · rw [if_neg hnew]
      have hlt : i < (made history).length := by
        have := (List.getElem?_eq_some_iff.1 hstart).1
        rw [List.length_append, List.length_singleton] at this
        omega
      rw [List.getElem?_append_left hlt] at hstart
      exact h.level?_of_made i start hstart fun hbefore => hi ((hdropped i).2 hbefore)

theorem install (h : c.Tells history levels) (hbound : c.bound = none) (i : Nat) :
    ({ c with bound := some i } : Control).Tells (history ++ [.install i]) levels := by
  have hmade : made (history ++ [.install i]) = made history :=
    (made_concat _ _).trans (List.append_nil _)
  have hdropped (j : Nat) : Dropped j (history ++ [.install i]) ↔ Dropped j history := by
    simp [dropped_concat_iff]
  have hlevels : levels = [] := by
    by_contra hne
    obtain ⟨j, hj, -⟩ := h.exists_bound hne
    cases hbound.symm.trans hj
  subst hlevels
  refine ⟨?_, hmade ▸ h.length_filters, absurd rfl, fun j hj => ?_, fun j start hstart hj => ?_⟩
  · rw [firstInstalled_concat, ← h.bound, hbound]
    rfl
  · exact h.level?_of_dropped j ((hdropped j).1 hj)
  · have hlevel := h.level?_of_made j start (hmade ▸ hstart) fun hbefore => hj ((hdropped j).2 hbefore)
    rw [hbound, if_neg (Option.some_ne_none j).symm] at hlevel
    exact hlevel.trans (congrArg some (ite_self start).symm)

theorem drop (h : c.Tells history levels) (i : Nat) :
    (c.drop i).Tells (history ++ [.drop i]) levels := by
  have hmade : made (history ++ [.drop i]) = made history :=
    (made_concat _ _).trans (List.append_nil _)
  have hdropped (j : Nat) : Dropped j (history ++ [.drop i])
      ↔ Dropped j history ∨ i = j ∧ j < c.filters.length := by
    rw [dropped_concat_iff, Action.drop.injEq, h.length_filters]
  refine ⟨?_, ?_, hmade ▸ h.exists_bound, fun j hj => ?_, fun j start hstart hj => ?_⟩
  · rw [firstInstalled_concat]
    exact h.bound.trans Option.or_none.symm
  · rw [hmade, ← h.length_filters]
    exact List.length_set
  · rw [Control.drop, level?_set]
    split
    · rfl
    · next hnew => exact h.level?_of_dropped j (((hdropped j).1 hj).resolve_right hnew)
  · obtain ⟨hbefore, hnew⟩ := not_or.1 (mt (hdropped j).2 hj)
    rw [Control.drop, level?_set, if_neg hnew]
    exact h.level?_of_made j start (hmade ▸ hstart) hbefore

theorem setLevel (h : c.Tells history levels) {old : Level} (hbound : c.bound = some i)
    (hold : c.level? i = some old) (level : Level) :
    ({ c with filters := c.filters.set i (some level) } : Control).Tells
      (history ++ [.setLevel level]) (levels ++ [level]) := by
  have hlt : i < c.filters.length := lt_length_of_level? hold
  have hasked := h.ask_setLevel level
  refine ⟨hasked.bound, ?_, fun _ => ⟨i, hbound, ?_⟩, fun j hj => ?_, fun j start hstart hj => ?_⟩
  · rw [← hasked.length_filters]
    exact List.length_set
  · rwa [← hasked.length_filters]
  · have hgone := hasked.level?_of_dropped j hj
    have hij : i ≠ j := by
      rintro rfl
      cases hold.symm.trans hgone
    rwa [level?_set, if_neg fun hset => hij hset.1]
  · rw [level?_set]
    -- the level goes to the filter that is bound, and no other one can be
    by_cases hij : i = j
    · subst hij
      rw [if_pos ⟨rfl, hlt⟩]
      show some level = some (if c.bound = some i then _ else start)
      rw [if_pos hbound, List.getLast?_concat, Option.getD_some]
    · have hother : c.bound ≠ some j := fun heq => hij (Option.some.inj (hbound.symm.trans heq))
      have hlevel := hasked.level?_of_made j start hstart hj
      rw [if_neg hother] at hlevel
      rw [if_neg fun hset => hij hset.1, hlevel]
      show some start = some (if c.bound = some j then _ else start)
      rw [if_neg hother]

end Tells

/-! ## Runs -/

/-- **One action keeps the control what its history says**, done or refused. -/
theorem tells_act (h : c.Tells history levels) (a : Action) :
    match c.act a with
    | .ok c' => c'.Tells (history ++ [a]) (levels ++ a.level?.toList)
    | .error _ => c.Tells (history ++ [a]) levels := by
  cases a with
  | create level => exact (List.append_nil levels).symm ▸ h.create level
  | drop i => exact (List.append_nil levels).symm ▸ h.drop i
  | install i =>
    rw [act, install_eq]
    by_cases hbound : c.bound = none
    · rw [if_pos hbound]
      exact (List.append_nil levels).symm ▸ h.install hbound i
    · rw [if_neg hbound]
      exact h.ask_install hbound i
  | setLevel level =>
    rw [act]
    cases hbound : c.bound with
    | none =>
      rw [setLevel_of_unbound hbound]
      exact h.ask_setLevel level
    | some i =>
      cases hold : c.level? i with
      | none =>
        rw [setLevel_of_gone hbound hold]
        exact h.ask_setLevel level
      | some old =>
        rw [setLevel_of_alive hbound hold]
        exact h.setLevel hbound hold level

/-- **After every history the control is what the history says.** -/
theorem tells_run (history : List Action) : (run {} history).Tells history (levelsSet history) := by
  induction history using List.reverseRecOn with
  | nil => exact Tells.start
  | append_singleton history a ih =>
    have hact := tells_act ih a
    cases hresult : (run {} history).act a with
    | ok c' =>
      rw [hresult] at hact
      rw [run_concat_of_ok hresult, levelsSet_concat_of_ok hresult]
      exact hact
    | error fault =>
      rw [hresult] at hact
      rw [run_concat_of_error hresult, levelsSet_concat_of_error hresult]
      exact hact

theorem bound_run_append (h : (run {} history).bound = some i) (later : List Action) :
    (run {} (history ++ later)).bound = some i := by
  rw [(tells_run _).bound, firstInstalled_append, ← (tells_run history).bound, h]
  rfl

/-- **What a control does, and what it has come to, after any history.** The filter that was installed
first is bound, for good: the first to be installed is not refused, and every other one is. Setting the
level is refused while nothing has been installed, and once the bound filter is dropped, and at no other
time after it was made. The bound filter has the level that was set last, or the one that it was made
with; every other filter keeps the one that it was made with. What is refused changes nothing. -/
theorem state_run (history : List Action) :
    let c := run {} history
    c.bound = firstInstalled history
      ∧ (∀ later i, c.bound = some i → (run {} (history ++ later)).bound = some i)
      ∧ (∀ i, c.act (.install i) = if firstInstalled history = none then .ok { c with bound := some i }
        else .error .alreadyInstalled)
      ∧ (∀ level, firstInstalled history = none → c.act (.setLevel level) = .error .notInitialized)
      ∧ (∀ level i, firstInstalled history = some i →
        Dropped i history ∨ (made history).length ≤ i → c.act (.setLevel level) = .error .filterGone)
      ∧ (∀ level i, firstInstalled history = some i → i < (made history).length → ¬ Dropped i history →
        ∃ c', c.act (.setLevel level) = .ok c' ∧ c'.level? i = some level)
      ∧ c.filters.length = (made history).length
      ∧ (∀ i, Dropped i history → c.level? i = none)
      ∧ (∀ i start, (made history)[i]? = some start → ¬ Dropped i history →
        c.level? i = some (if firstInstalled history = some i then (levelsSet history).getLast?.getD start
          else start))
      ∧ ∀ a fault, c.act a = .error fault → run {} (history ++ [a]) = c := by
  intro c
  have htells : c.Tells history (levelsSet history) := tells_run history
  have hbound := htells.bound
  refine ⟨hbound, fun later i hi => bound_run_append hi later, fun i => ?_, fun level hnone => ?_,
    fun level i hi hgone => ?_, fun level i hi hlt hdropped => ?_, htells.length_filters,
    htells.level?_of_dropped, fun i start hstart hdropped => ?_, fun a fault => run_concat_of_error⟩
  · rw [← hbound]
    exact install_eq c i
  · exact setLevel_of_unbound (hbound.trans hnone) level
  · -- a filter that was never made is as gone as one that was dropped
    refine setLevel_of_gone (hbound.trans hi) ?_ level
    rcases hgone with hdropped | hlength
    · exact htells.level?_of_dropped i hdropped
    · rw [← htells.length_filters] at hlength
      rw [Control.level?, List.getElem?_eq_none hlength]
      rfl
  · have hold := htells.level?_of_made i _ (List.getElem?_eq_getElem hlt) hdropped
    refine ⟨_, setLevel_of_alive (hbound.trans hi) hold level, ?_⟩
    rw [level?_set, if_pos ⟨rfl, lt_length_of_level? hold⟩]
  · rw [← hbound]
    exact htells.level?_of_made i start hstart hdropped

/-- The second filter comes too late to be bound, and the last level after the first one is dropped. -/
example : run {} [.create .info, .create .warn, .install 0, .setLevel .error, .install 1,
    .setLevel .trace, .drop 0, .setLevel .debug] = { filters := [none, some .warn], bound := some 0 } := by
  decide

end MessageCompiler.Log.Control
