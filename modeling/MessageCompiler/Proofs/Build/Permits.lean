import Mathlib.Data.List.Basic
import MessageCompiler.Build.Schedule

/-!
# Permits

Every permit that is not free is held by exactly one task, and a task holds one exactly while it
builds its own files, if there are permits at all. Both are invariants of `Step`.

* **`Task.Sound`, `sound_of_reachable`**: who holds a permit.
* **`permits_of_reachable`**: how many permits there are.
* **`exists_step`**: a schedule can go on unless every permit is held by a task that cannot.
* **`exists_step_of_reachable`**: so no schedule comes to a halt before the whole tree is built.
-/

namespace MessageCompiler.Build.Schedule

variable {config : Config} {output : Option Path}

namespace Task

/-! ## All tasks of a task -/

theorem allAmong_append (ts us : List Task) : allAmong (ts ++ us) = allAmong ts ++ allAmong us := by
  induction ts with
  | nil => rfl
  | cons t rest ih => rw [List.cons_append, allAmong, allAmong, ih, List.append_assoc]

theorem mem_all_self (t : Task) : t ∈ t.all := by
  cases t <;> simp [all]

theorem allAmong_append_cons (ts us : List Task) (t : Task) :
    allAmong (ts ++ t :: us) = allAmong ts ++ (t.all ++ allAmong us) := by
  rw [allAmong_append, allAmong]

theorem allAmong_map_ready (ps : List Path) : allAmong (ps.map .ready) = ps.map .ready := by
  induction ps with
  | nil => rfl
  | cons p rest ih =>
    rw [List.map_cons, allAmong, ih]
    rfl

section Throughout

variable {P : Task → Prop} {p : Path} {stage stage' : Stage} {permit permit' : Bool}
  {below before after : List Task} {task task' : Task}

theorem mem_all_inner {u : Task} (h : u ∈ task.all) :
    u ∈ (active p stage permit (before ++ task :: after)).all := by
  refine List.mem_cons_of_mem _ ?_
  rw [allAmong_append_cons]
  exact List.mem_append_right _ (List.mem_append_left _ h)

/-- Only the task itself has to be looked at, if the tasks below are as they were. -/
theorem forall_all_active (h : ∀ u ∈ (active p stage permit below).all, P u)
    (hself : P (active p stage' permit' below)) :
    ∀ u ∈ (active p stage' permit' below).all, P u := by
  intro u hu
  rcases List.mem_cons.1 hu with rfl | hu
  · exact hself
  · exact h u (List.mem_cons_of_mem _ hu)

/-- Nothing new is below a task that has joined one of those below. -/
theorem forall_all_join {more : Totals}
    (h : ∀ u ∈ (active p stage permit (before ++ finished more :: after)).all, P u)
    (hself : P (active p stage' permit' (before ++ after))) :
    ∀ u ∈ (active p stage' permit' (before ++ after)).all, P u := by
  intro u hu
  rcases List.mem_cons.1 hu with rfl | hu
  · exact hself
  · refine h u (List.mem_cons_of_mem _ ?_)
    rw [allAmong_append] at hu
    rw [allAmong_append_cons]
    exact List.mem_append.2 ((List.mem_append.1 hu).imp_right (List.mem_append_right _))

/-- When a task below has made a step, the tasks beside it are as they were. -/
theorem forall_all_inner (h : ∀ u ∈ (active p stage permit (before ++ task :: after)).all, P u)
    (hself : P (active p stage permit (before ++ task' :: after))) (htask : ∀ u ∈ task'.all, P u) :
    ∀ u ∈ (active p stage permit (before ++ task' :: after)).all, P u := by
  have hbeside (u : Task) (hu : u ∈ allAmong before ∨ u ∈ allAmong after) : P u := by
    refine h u (List.mem_cons_of_mem _ ?_)
    rw [allAmong_append_cons]
    rcases hu with hu | hu
    · exact List.mem_append_left _ hu
    · exact List.mem_append_right _ (List.mem_append_right _ hu)
  intro u hu
  rcases List.mem_cons.1 hu with rfl | hu
  · exact hself
  rw [allAmong_append_cons] at hu
  rcases List.mem_append.1 hu with hu | hu
  · exact hbeside u (.inl hu)
  rcases List.mem_append.1 hu with hu | hu
  · exact htask u hu
  · exact hbeside u (.inr hu)

end Throughout

/-! ## Who holds a permit -/

/-- A task holds a permit exactly while it builds its own files, if there are permits at all. -/
def Sound (limited : Bool) (t : Task) : Prop := t.holdsPermit = (limited && t.isCompiling)

theorem sound_ready (limited : Bool) (p : Path) : (ready p).Sound limited := by
  show false = (limited && false)
  rw [Bool.and_false]

theorem sound_finished (limited : Bool) (totals : Totals) : (finished totals).Sound limited := by
  show false = (limited && false)
  rw [Bool.and_false]

/-- How many tasks hold a permit. -/
def permits (t : Task) : Nat := t.all.countP holdsPermit

theorem permits_active (p : Path) (stage : Stage) (permit : Bool) (below : List Task) :
    (active p stage permit below).permits
      = (allAmong below).countP holdsPermit + permit.toNat := by
  rw [permits, all, List.countP_cons]
  cases permit <;> rfl

theorem permits_inner (p : Path) (stage : Stage) (permit : Bool) (ts us : List Task) (t : Task) :
    (active p stage permit (ts ++ t :: us)).permits
      = (active p stage permit (ts ++ us)).permits + t.permits := by
  rw [permits_active, permits_active, allAmong_append_cons, allAmong_append, permits]
  simp only [List.countP_append]
  omega

end Task

/-- Whether the number of folders at work is bounded. -/
def State.limited (s : State) : Bool := s.free.isSome

/-- Every task holds a permit just when it should. -/
def State.Sound (s : State) : Prop := ∀ t ∈ s.task.all, t.Sound s.limited

/-- All permits, those that are free and those that are held. -/
def State.permits? (s : State) : Option Nat := s.free.map (· + s.task.permits)

theorem State.Sound.inner {free : Option Nat} {disk : Disk} {p : Path} {stage : Stage}
    {permit : Bool} {before after : List Task} {task : Task}
    (hs : State.Sound ⟨free, disk, .active p stage permit (before ++ task :: after)⟩) :
    State.Sound ⟨free, disk, task⟩ :=
  fun t ht => hs t (Task.mem_all_inner ht)

/-! ## One step -/

theorem limited_step {s t : State} (h : Step config output s t) : t.limited = s.limited := by
  induction h with
  | inner _ ih => exact ih
  | _ => rfl

/-- **No step breaks the rule about who holds a permit.** -/
theorem sound_step {s t : State} (h : Step config output s t) (hs : s.Sound) : t.Sound := by
  induction h with
  | @start free disk p =>
    intro t ht
    rcases List.mem_cons.1 ht with rfl | ht
    · show false = (_ && false)
      rw [Bool.and_false]
    · rw [Task.allAmong_map_ready] at ht
      obtain ⟨q, -, rfl⟩ := List.mem_map.1 ht
      exact Task.sound_ready _ q
  | acquire => exact Task.forall_all_active hs rfl
  | pass => exact Task.forall_all_active hs rfl
  | @build free disk p permit below =>
    exact Task.forall_all_active hs (hs (.active p .compiling permit below) (Task.mem_all_self _))
  | release => exact Task.forall_all_active hs rfl
  | leave =>
    refine Task.forall_all_active hs ?_
    show false = (_ && false)
    rw [Bool.and_false]
  | @join free disk p totals more permit before after =>
    exact Task.forall_all_join hs
      (hs (.active p (.joining totals) permit (before ++ .finished more :: after))
        (Task.mem_all_self _))
  | finish =>
    intro t ht
    rw [List.mem_singleton.1 ht]
    exact Task.sound_finished _ _
  | @inner free free' disk disk' task task' p stage permit before after hstep ih =>
    -- the step below leaves it at a bound or at none, so the rule is the same for the tasks beside it
    have hlimited : State.limited ⟨free', disk', task'⟩ = State.limited ⟨free, disk, task⟩ :=
      limited_step hstep
    have htask : ∀ t ∈ task'.all, t.Sound (State.limited ⟨free, disk, task⟩) :=
      hlimited ▸ ih hs.inner
    have hself := hs (.active p stage permit (before ++ task :: after)) (Task.mem_all_self _)
    show ∀ t ∈ Task.all _, t.Sound (State.limited ⟨free', disk', task'⟩)
    rw [hlimited]
    exact Task.forall_all_inner hs hself htask

/-- **No step makes a permit or loses one.** -/
theorem permits?_step {s t : State} (h : Step config output s t) (hs : s.Sound) :
    t.permits? = s.permits? := by
  induction h with
  | @start free disk p =>
    have hready : (Task.allAmong ((messageFolders disk p).map .ready)).countP Task.holdsPermit = 0 := by
      rw [Task.allAmong_map_ready, List.countP_map]
      exact List.countP_eq_zero.2 fun q _ => Bool.false_ne_true
    simp only [State.permits?, Task.permits_active, hready]
    rfl
  | acquire =>
    simp only [State.permits?, Task.permits_active, Option.map_some, Bool.toNat_true,
      Bool.toNat_false]
    congr 1
    omega
  | pass => rfl
  | build => simp only [State.permits?, Task.permits_active]
  | release =>
    simp only [State.permits?, Task.permits_active, Option.map_some, Bool.toNat_true,
      Bool.toNat_false]
    congr 1
    omega
  | leave => simp only [State.permits?, Task.permits_active]
  | join =>
    simp only [State.permits?, Task.permits_inner]
    rfl
  | @finish free disk p totals permit =>
    -- a permit that a task took along to its end would be lost
    have hpermit : permit = false := by
      have hself := hs (.active p (.joining totals) permit []) (Task.mem_all_self _)
      rw [show permit = (free.isSome && false) from hself, Bool.and_false]
    rw [hpermit]
    rfl
  | @inner free free' disk disk' task task' p stage permit before after hstep ih =>
    have htask := ih hs.inner
    simp only [State.permits?, Task.permits_inner] at htask ⊢
    cases free with
    | none =>
      cases free' with
      | none => rfl
      | some n => exact absurd htask (Option.some_ne_none _)
    | some m =>
      cases free' with
      | none => exact absurd htask.symm (Option.some_ne_none _)
      | some n =>
        have hsum : n + task'.permits = m + task.permits := Option.some.inj htask
        rw [Option.map_some, Option.map_some]
        congr 1
        omega

/-! ## Going on -/

theorem Task.permits_eq_zero {p : Path} {stage : Stage} {below : List Task}
    (h : ∀ t ∈ below, t.permits = 0) : (Task.active p stage false below).permits = 0 := by
  rw [permits_active, Bool.toNat_false, Nat.add_zero]
  induction below with
  | nil => rfl
  | cons t rest ih =>
    rw [allAmong, List.countP_append, ih fun u hu => h u (List.mem_cons_of_mem _ hu)]
    exact h t List.mem_cons_self

/-- A task goes on by itself where those below it have ended or wait for permits, unless it waits for
a permit as well. -/
theorem exists_step_of_below {free : Option Nat} {disk : Disk} {p : Path} {stage : Stage}
    {permit : Bool} {below : List Task} (hpermit : permit = (free.isSome && stage.isCompiling))
    (hbelow : ∀ task ∈ below, task.isFinished = true ∨ free = some 0 ∧ task.permits = 0) :
    (∃ t, Step config output ⟨free, disk, .active p stage permit below⟩ t)
      ∨ free = some 0 ∧ (Task.active p stage permit below).permits = 0 := by
  cases stage with
  | queued =>
    rw [show permit = false by rw [hpermit]; exact Bool.and_false _]
    match free with
    | none => exact .inl ⟨_, .pass⟩
    | some (n + 1) => exact .inl ⟨_, .acquire⟩
    | some 0 =>
      -- the permit that this task waits for is held by none of its own
      refine .inr ⟨rfl, Task.permits_eq_zero fun t ht => ?_⟩
      rcases hbelow t ht with hend | hblocked
      · cases t with
        | finished totals => rfl
        | _ => exact absurd hend Bool.false_ne_true
      · exact hblocked.2
  | compiling => exact .inl ⟨_, .build⟩
  | compiled totals =>
    cases permit with
    | false => exact .inl ⟨_, .leave⟩
    | true =>
      cases free with
      | none => exact absurd hpermit.symm Bool.false_ne_true
      | some n => exact .inl ⟨_, .release⟩
  | joining totals =>
    rw [show permit = false by rw [hpermit]; exact Bool.and_false _]
    by_cases hend : ∃ t ∈ below, t.isFinished = true
    · obtain ⟨t, hmem, hend⟩ := hend
      obtain ⟨before, after, rfl⟩ := List.append_of_mem hmem
      cases t with
      | finished more => exact .inl ⟨_, .join⟩
      | _ => exact absurd hend Bool.false_ne_true
    · -- what is left to be joined waits for permits, and this task has none to give back
      cases below with
      | nil => exact .inl ⟨_, .finish⟩
      | cons t rest =>
        have hblocked : ∀ u ∈ t :: rest, free = some 0 ∧ u.permits = 0 := fun u hu =>
          (hbelow u hu).resolve_left fun hu' => hend ⟨u, hu, hu'⟩
        exact .inr ⟨(hblocked t List.mem_cons_self).1,
          Task.permits_eq_zero fun u hu => (hblocked u hu).2⟩

/-- **A schedule can go on**, unless the permits are all taken and none of them is held here. The
induction is on the tree of tasks: whatever a task waits for is a permit or a task below. -/
theorem exists_step {free : Option Nat} {disk : Disk} (task : Task)
    (hs : State.Sound ⟨free, disk, task⟩) (hfinished : task.isFinished = false) :
    (∃ t, Step config output ⟨free, disk, task⟩ t) ∨ free = some 0 ∧ task.permits = 0 := by
  match task with
  | .ready p => exact .inl ⟨_, .start⟩
  | .active p stage permit below =>
    by_cases hinner : ∃ task ∈ below, ∃ t, Step config output ⟨free, disk, task⟩ t
    · obtain ⟨task, hmem, t, ht⟩ := hinner
      obtain ⟨before, after, rfl⟩ := List.append_of_mem hmem
      exact .inl ⟨_, .inner ht⟩
    -- each task below has come to its end by now, or waits for a permit with all that is below it
    have hbelow : ∀ task ∈ below, task.isFinished = true ∨ free = some 0 ∧ task.permits = 0 := by
      intro task hmem
      cases hend : task.isFinished with
      | true => exact .inl rfl
      | false =>
        have hsound : State.Sound ⟨free, disk, task⟩ := by
          obtain ⟨before, after, rfl⟩ := List.append_of_mem hmem
          exact hs.inner
        rcases exists_step task hsound hend with hstep | hblocked
        · exact absurd ⟨task, hmem, hstep⟩ hinner
        · exact .inr hblocked
    exact exists_step_of_below (hs (.active p stage permit below) (Task.mem_all_self _)) hbelow
termination_by sizeOf task
decreasing_by
  have := List.sizeOf_lt_of_mem hmem
  simp +arith only [Task.active.sizeOf_spec]
  omega

/-! ## Whole schedules -/

variable {folder : Path} {disk : Disk}

theorem sound_of_reachable {s : State}
    (h : Reachable config output (.initial config folder disk) s) : s.Sound := by
  induction h with
  | refl =>
    intro t ht
    rw [List.mem_singleton.1 ht]
    exact Task.sound_ready _ _
  | step _ hstep ih => exact sound_step hstep ih

theorem limited_of_reachable {s : State}
    (h : Reachable config output (.initial config folder disk) s) :
    s.limited = config.cap.isSome := by
  induction h with
  | refl => rfl
  | step _ hstep ih => rw [limited_step hstep, ih]

/-- **All permits there were at the beginning are free or held.** -/
theorem permits_of_reachable {s : State}
    (h : Reachable config output (.initial config folder disk) s) : s.permits? = config.cap := by
  induction h with
  | refl =>
    show config.cap.map (· + 0) = config.cap
    cases config.cap <;> rfl
  | step hreach hstep ih => rw [permits?_step hstep (sound_of_reachable hreach), ih]

/-- **No schedule comes to a halt before the whole tree is built**, if the bound, where there is
one, lets one folder compile at all: whenever no permit is free, some task holds one, and that task
can go on. -/
theorem exists_step_of_reachable (hcap : config.cap ≠ some 0) {s : State}
    (h : Reachable config output (.initial config folder disk) s)
    (hfinished : s.task.isFinished = false) : ∃ t, Step config output s t := by
  rcases exists_step s.task (sound_of_reachable h) hfinished with hstep | ⟨hfree, hpermits⟩
  · exact hstep
  · have hall := permits_of_reachable h
    rw [State.permits?, hfree, hpermits] at hall
    exact absurd hall.symm hcap

/-- **Bounded work**: no more folders compile their files at once than the bound allows. -/
theorem countP_isCompiling_le {s : State}
    (h : Reachable config output (.initial config folder disk) s) {n : Nat}
    (hcap : config.cap = some n) : s.task.all.countP Task.isCompiling ≤ n := by
  have hlimited : s.limited = true := by rw [limited_of_reachable h, hcap]; rfl
  have hholders : s.task.all.countP Task.isCompiling = s.task.permits := by
    refine List.countP_congr fun t ht => ?_
    rw [sound_of_reachable h t ht, hlimited, Bool.true_and]
  have hall := permits_of_reachable h
  rw [hcap, State.permits?] at hall
  obtain ⟨free, -, hsum⟩ := Option.map_eq_some_iff.1 hall
  omega

/-- **A task that joins others holds no permit.** -/
theorem holdsPermit_eq_false_of_isJoining {s : State}
    (h : Reachable config output (.initial config folder disk) s) {t : Task}
    (ht : t ∈ s.task.all) (hjoining : t.isJoining = true) : t.holdsPermit = false := by
  have hcompiling : t.isCompiling = false := by
    match t with
    | .active _ (.joining _) _ _ => rfl
  rw [sound_of_reachable h t ht, hcompiling, Bool.and_false]

end MessageCompiler.Build.Schedule
