import MessageCompiler.Build.Folder

/-!
# Builds in any order

A build turns a disk into totals and another disk. Two builds commute if their order makes no
difference to what both leave together, and builds that commute pairwise may be taken in any order.
What is logged on the way does depend on the order and is left out here.

* **`Commutes.inTurn`**: two runs commute if the builds of one commute with those of the other.
* **`result_inTurn_perm`**: a run of commuting builds in another order.
-/

namespace MessageCompiler.Build

namespace Totals

/-! ## Adding totals -/

protected theorem ext' {a b : Totals} (hcompiled : a.compiled = b.compiled)
    (hwritten : a.written = b.written) (hfailed : a.failed = b.failed)
    (hwarnings : a.warnings = b.warnings) (herrors : a.errors = b.errors) : a = b := by
  cases a
  cases b
  simp_all

protected theorem add_comm (a b : Totals) : a + b = b + a :=
  Totals.ext' (Nat.add_comm _ _) (Nat.add_comm _ _) (Nat.add_comm _ _) (Nat.add_comm _ _)
    (Nat.add_comm _ _)

protected theorem add_assoc (a b c : Totals) : a + b + c = a + (b + c) :=
  Totals.ext' (Nat.add_assoc _ _ _) (Nat.add_assoc _ _ _) (Nat.add_assoc _ _ _)
    (Nat.add_assoc _ _ _) (Nat.add_assoc _ _ _)

protected theorem zero_add (a : Totals) : {} + a = a :=
  Totals.ext' (Nat.zero_add _) (Nat.zero_add _) (Nat.zero_add _) (Nat.zero_add _) (Nat.zero_add _)

end Totals

/-! ## One build after the other -/

/-- What counts of a build in the end. -/
def FolderBuild.result (b : FolderBuild) : Totals × Disk := (b.totals, b.disk)

/-- A build keeps to the disks of a kind. -/
def Keeps (kind : Disk → Prop) (f : Disk → FolderBuild) : Prop := ∀ d, kind d → kind (f d).disk

/-- On all disks of a kind it makes no difference which of two builds comes first. -/
def Commutes (kind : Disk → Prop) (f g : Disk → FolderBuild) : Prop :=
  ∀ d, kind d → ((f d).andThen g).result = ((g d).andThen f).result

theorem result_andThen (b : FolderBuild) (g : Disk → FolderBuild) :
    (b.andThen g).result = (b.totals + (g b.disk).totals, (g b.disk).disk) := rfl

variable {kind : Disk → Prop}

namespace Commutes

variable {f g : Disk → FolderBuild}

theorem refl (f : Disk → FolderBuild) : Commutes kind f f := fun _ _ => rfl

theorem symm (h : Commutes kind f g) : Commutes kind g f := fun d hd => (h d hd).symm

theorem totals (h : Commutes kind f g) {d : Disk} (hd : kind d) :
    (f d).totals + (g (f d).disk).totals = (g d).totals + (f (g d).disk).totals :=
  congrArg Prod.fst (h d hd)

theorem disk (h : Commutes kind f g) {d : Disk} (hd : kind d) :
    (g (f d).disk).disk = (f (g d).disk).disk := congrArg Prod.snd (h d hd)

/-- A build that always comes to the same totals and changes nothing commutes with any other. -/
theorem of_idle {t : Totals} (hf : ∀ d, kind d → (f d).result = (t, d)) (hg : Keeps kind g) :
    Commutes kind f g := by
  intro d hd
  obtain ⟨htotals, hdisk⟩ := Prod.mk.inj (hf d hd)
  obtain ⟨htotals', hdisk'⟩ := Prod.mk.inj (hf _ (hg d hd))
  rw [result_andThen, result_andThen, htotals, hdisk, htotals', hdisk', Totals.add_comm]

end Commutes

section InTurn

variable {α β : Type} {build : α → Disk → FolderBuild} {build' : β → Disk → FolderBuild}

theorem inTurn_cons (a : α) (l : List α) (d : Disk) :
    inTurn build (a :: l) d = (build a d).andThen (inTurn build l) := rfl

theorem Keeps.inTurn {l : List α} (h : ∀ a ∈ l, Keeps kind (build a)) :
    Keeps kind (inTurn build l) := by
  induction l with
  | nil => exact fun _ hd => hd
  | cons a rest ih =>
    exact fun d hd => ih (fun b hb => h b (List.mem_cons_of_mem _ hb)) _ (h a List.mem_cons_self d hd)

theorem Commutes.inTurn_right {f : Disk → FolderBuild} {l : List α} (hf : Keeps kind f)
    (hkeeps : ∀ a ∈ l, Keeps kind (build a)) (h : ∀ a ∈ l, Commutes kind f (build a)) :
    Commutes kind f (inTurn build l) := by
  induction l with
  | nil => exact (Commutes.of_idle (fun _ _ => rfl) hf).symm
  | cons a rest ih =>
    intro d hd
    have hrest := ih (fun b hb => hkeeps b (List.mem_cons_of_mem _ hb))
      (fun b hb => h b (List.mem_cons_of_mem _ hb))
    have ha := h a List.mem_cons_self
    have hd' : kind (build a d).disk := hkeeps a List.mem_cons_self d hd
    have hdisk := hrest.disk hd'
    have htotals := hrest.totals hd'
    simp only [inTurn_cons, FolderBuild.andThen, FolderBuild.result]
    rw [← Totals.add_assoc, ha.totals hd, ha.disk hd, hdisk, Totals.add_assoc, htotals,
      ← Totals.add_assoc]

/-- **Two runs commute** if the builds of one commute with those of the other. -/
theorem Commutes.inTurn {l : List α} {l' : List β} (hl : ∀ a ∈ l, Keeps kind (build a))
    (hl' : ∀ b ∈ l', Keeps kind (build' b))
    (h : ∀ a ∈ l, ∀ b ∈ l', Commutes kind (build a) (build' b)) :
    Commutes kind (inTurn build l) (inTurn build' l') :=
  .inTurn_right (.inTurn hl) hl' fun b hb =>
    (Commutes.inTurn_right (hl' b hb) hl fun a ha => (h a ha b hb).symm).symm

/-- **Builds that commute may be taken in any order.** The induction is on how the one order comes
from the other; where two neighbours change places they commute. -/
theorem result_inTurn_perm {l l' : List α} (hperm : l.Perm l')
    (hkeeps : ∀ a ∈ l, Keeps kind (build a))
    (h : ∀ a ∈ l, ∀ b ∈ l, Commutes kind (build a) (build b)) {d : Disk} (hd : kind d) :
    (inTurn build l d).result = (inTurn build l' d).result := by
  induction hperm generalizing d with
  | nil => rfl
  | cons a _ ih =>
    have hrest := ih (fun b hb => hkeeps b (List.mem_cons_of_mem _ hb))
      (fun b hb c hc => h b (List.mem_cons_of_mem _ hb) c (List.mem_cons_of_mem _ hc))
      (hkeeps a List.mem_cons_self d hd)
    obtain ⟨htotals, hdisk⟩ := Prod.mk.inj hrest
    rw [inTurn_cons, inTurn_cons, result_andThen, result_andThen, htotals, hdisk]
  | swap a b l =>
    have hcomm := h b List.mem_cons_self a (List.mem_cons_of_mem _ List.mem_cons_self)
    simp only [inTurn_cons, FolderBuild.andThen, FolderBuild.result]
    rw [← Totals.add_assoc, hcomm.totals hd, hcomm.disk hd, Totals.add_assoc]
  | trans hperm _ ih ih' =>
    rw [ih hkeeps h hd]
    exact ih' (fun a ha => hkeeps a (hperm.mem_iff.2 ha))
      (fun a ha b hb => h a (hperm.mem_iff.2 ha) b (hperm.mem_iff.2 hb)) hd

end InTurn

end MessageCompiler.Build
