import MessageCompiler.Proofs.Disk.Walk

/-!
# Alterations

An alteration looks at what is at one place and then refuses, leaves it, or puts something there.
Alterations are done one after the other, up to the first that refuses. Those at places apart from
each other neither see nor disturb one another.

* **`attempt_congr`**: alterations see no more than what is at their places.
* **`attempt_comm`**: two lists of alterations at places apart from each other, in either order.
-/

namespace MessageCompiler.Disk

/-- What an alteration decides to do. -/
inductive Decision where
  | refuse
  | keep
  | put (new : Node)

/-- A change of what is at one place. -/
structure Alteration where
  place : Place
  /-- The decision, given what is at the place. -/
  decide : Option Node → Decision

/-- Does alterations one after the other, up to the first that refuses, and tells whether none
did. -/
def attempt : List Alteration → Disk → Bool × Disk
  | [], d => (true, d)
  | a :: rest, d =>
    match a.decide (d.root.get? a.place) with
    | .refuse => (false, d)
    | .keep => attempt rest d
    | .put new => attempt rest (d.put a.place new)

section Attempt

variable {a : Alteration} {rest : List Alteration} {d : Disk}

theorem attempt_of_refuse (h : a.decide (d.root.get? a.place) = .refuse) :
    attempt (a :: rest) d = (false, d) := by
  rw [attempt, h]

theorem attempt_of_keep (h : a.decide (d.root.get? a.place) = .keep) :
    attempt (a :: rest) d = attempt rest d := by
  rw [attempt, h]

theorem attempt_of_put {new : Node} (h : a.decide (d.root.get? a.place) = .put new) :
    attempt (a :: rest) d = attempt rest (d.put a.place new) := by
  rw [attempt, h]

end Attempt

theorem put_comm {p q : Place} (h : p.Apart q) (x y : Node) (d : Disk) :
    (d.put q y).put p x = (d.put p x).put q y :=
  congrArg (fun root => { d with root }) (Node.put_comm x y h d.root)

theorem get?_attempt {as : List Alteration} {p : Place} (h : ∀ a ∈ as, a.place.Apart p) (d : Disk) :
    (attempt as d).2.root.get? p = d.root.get? p := by
  induction as generalizing d with
  | nil => rfl
  | cons a rest ih =>
    have hrest := ih fun b hb => h b (List.mem_cons_of_mem _ hb)
    cases hdecide : a.decide (d.root.get? a.place) with
    | refuse => rw [attempt_of_refuse hdecide]
    | keep => rw [attempt_of_keep hdecide, hrest]
    | put new =>
      rw [attempt_of_put hdecide, hrest]
      exact Node.get?_put_apart new (h a List.mem_cons_self) d.root

/-- **Alterations depend on what is at their places**, and on nothing else: on two disks that agree at
all places of a kind, none of which is on the way to another, alterations at such places come to the
same there. -/
theorem attempt_congr {as : List Alteration} (kind : Place → Prop)
    (hplaces : ∀ a ∈ as, kind a.place)
    (hapart : ∀ p q, kind p → kind q → p = q ∨ p.Apart q) {d e : Disk}
    (h : ∀ p, kind p → e.root.get? p = d.root.get? p) :
    (attempt as e).1 = (attempt as d).1
      ∧ ∀ p, kind p → (attempt as e).2.root.get? p = (attempt as d).2.root.get? p := by
  induction as generalizing d e with
  | nil => exact ⟨rfl, h⟩
  | cons a rest ih =>
    have ha := hplaces a List.mem_cons_self
    have hrest : ∀ b ∈ rest, kind b.place := fun b hb => hplaces b (List.mem_cons_of_mem _ hb)
    have hget := h a.place ha
    cases hdecide : a.decide (d.root.get? a.place) with
    | refuse =>
      rw [attempt_of_refuse hdecide, attempt_of_refuse (hget ▸ hdecide)]
      exact ⟨rfl, h⟩
    | keep =>
      rw [attempt_of_keep hdecide, attempt_of_keep (hget ▸ hdecide)]
      exact ih hrest h
    | put new =>
      rw [attempt_of_put hdecide, attempt_of_put (hget ▸ hdecide)]
      refine ih hrest fun p hp => ?_
      -- at the place itself both disks have what was put, and all the others are left as they were
      rcases hapart a.place p ha hp with rfl | hap
      · exact (Node.get?_put_self _ _ _).trans (Node.get?_put_self _ _ _).symm
      · exact (Node.get?_put_apart new hap _).trans
          ((h p hp).trans (Node.get?_put_apart new hap _).symm)

/-- Alterations may as well be done before something is put at a place apart from theirs. -/
theorem attempt_put {as : List Alteration} {p : Place} (h : ∀ a ∈ as, a.place.Apart p) (x : Node)
    (d : Disk) : attempt as (d.put p x) = ((attempt as d).1, (attempt as d).2.put p x) := by
  induction as generalizing d with
  | nil => rfl
  | cons a rest ih =>
    have hrest := ih fun b hb => h b (List.mem_cons_of_mem _ hb)
    have ha := h a List.mem_cons_self
    have hget : (d.put p x).root.get? a.place = d.root.get? a.place :=
      Node.get?_put_apart x ha.symm d.root
    cases hdecide : a.decide (d.root.get? a.place) with
    | refuse => rw [attempt_of_refuse hdecide, attempt_of_refuse (hget ▸ hdecide)]
    | keep => rw [attempt_of_keep hdecide, attempt_of_keep (hget ▸ hdecide), hrest]
    | put new =>
      rw [attempt_of_put hdecide, attempt_of_put (hget ▸ hdecide), put_comm ha, hrest]

/-- **Alterations at places apart from each other do not depend on their order**: each list is done
as far as it would be alone, and the disk is the same in the end. -/
theorem attempt_comm {as bs : List Alteration} (h : ∀ a ∈ as, ∀ b ∈ bs, a.place.Apart b.place)
    (d : Disk) : (attempt as (attempt bs d).2).1 = (attempt as d).1
      ∧ (attempt bs (attempt as d).2).1 = (attempt bs d).1
      ∧ (attempt as (attempt bs d).2).2 = (attempt bs (attempt as d).2).2 := by
  induction as generalizing d with
  | nil => exact ⟨rfl, rfl, rfl⟩
  | cons a rest ih =>
    have hrest := ih fun b hb => h b (List.mem_cons_of_mem _ hb)
    have ha : ∀ b ∈ bs, b.place.Apart a.place := fun b hb => (h a List.mem_cons_self b hb).symm
    have hget : (attempt bs d).2.root.get? a.place = d.root.get? a.place := get?_attempt ha d
    cases hdecide : a.decide (d.root.get? a.place) with
    | refuse =>
      rw [attempt_of_refuse hdecide, attempt_of_refuse (hget ▸ hdecide)]
      exact ⟨rfl, rfl, rfl⟩
    | keep =>
      rw [attempt_of_keep hdecide, attempt_of_keep (hget ▸ hdecide)]
      exact hrest d
    | put new =>
      -- what is put is out of the way of the others, so it may as well have been there before them
      have hput := hrest (d.put a.place new)
      rw [attempt_put ha] at hput
      rw [attempt_of_put hdecide, attempt_of_put (hget ▸ hdecide)]
      exact hput

end MessageCompiler.Disk
