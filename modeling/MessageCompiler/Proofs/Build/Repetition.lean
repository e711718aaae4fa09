import MessageCompiler.Proofs.Build.Folders
import MessageCompiler.Proofs.Build.Overwriting

/-!
# Builds that are run again

A build whose turn is still to come may be run beforehand, and makes no difference. Two things can
happen to what it leaves: the builds before its turn put their own in its place, as they would have
done without it; or they have nothing to do with it, and then its turn comes all the same. With the
default output the build of a definition is overlaid in this way by every other one of the tree: one
of a message of the same name in the same folder covers its files, and any other delivers elsewhere.

* **`result_inTurn_of_mem`**: a build of a run that is run before the others.
* **`result_inTurn_again`**: builds of a run that are all run before it.
* **`attempt_writings_again`**: files that are written over.
* **`overlays_countFile`, `idempotent_countFile`**: the builds of definitions with the default output.
-/

namespace MessageCompiler.Build

open Disk

variable {kind : Disk → Prop}

/-! ## Runs -/

/-- Run after another build, a build comes to the same totals as without it; and it leaves what it
leaves without it, or what both leave when the other is the later one. -/
def Overlays (kind : Disk → Prop) (f g : Disk → FolderBuild) : Prop := ∀ d, kind d →
  (f (g d).disk).totals = (f d).totals
    ∧ ((f (g d).disk).disk = (f d).disk ∨ (f (g d).disk).disk = (g (f d).disk).disk)

/-- Run twice, a build comes to the same as if run once. -/
def Idempotent (kind : Disk → Prop) (f : Disk → FolderBuild) : Prop :=
  ∀ d, kind d → (f (f d).disk).result = (f d).result

section Idle

variable {f g : Disk → FolderBuild} {t : Totals}

theorem Overlays.of_idle (hf : ∀ d, kind d → (f d).result = (t, d)) (hg : Keeps kind g) :
    Overlays kind f g := by
  intro d hd
  obtain ⟨htotals, hdisk⟩ := Prod.mk.inj (hf d hd)
  obtain ⟨htotals', hdisk'⟩ := Prod.mk.inj (hf _ (hg d hd))
  exact ⟨htotals'.trans htotals.symm, .inr (by rw [hdisk', hdisk])⟩

theorem Overlays.of_idle_right (hg : ∀ d, kind d → (g d).result = (t, d)) : Overlays kind f g := by
  intro d hd
  rw [show (g d).disk = d from (Prod.mk.inj (hg d hd)).2]
  exact ⟨rfl, .inl rfl⟩

theorem Idempotent.of_idle (hf : ∀ d, kind d → (f d).result = (t, d)) : Idempotent kind f := by
  intro d hd
  rw [show (f d).disk = d from (Prod.mk.inj (hf d hd)).2]

end Idle

section InTurn

variable {α : Type} {build : α → Disk → FolderBuild} {l m : List α}

/-- **A build of a run may be run before the others**, if all of them overlay it. The induction is on
the run: up to its turn the build is overlaid, or is put off once more. -/
theorem result_inTurn_of_mem {a : α} (ha : a ∈ l) (hkeeps : ∀ b ∈ l, Keeps kind (build b))
    (hself : Idempotent kind (build a)) (h : ∀ b ∈ l, Overlays kind (build b) (build a)) {d : Disk}
    (hd : kind d) : (inTurn build l (build a d).disk).result = (inTurn build l d).result := by
  induction l generalizing d with
  | nil => exact absurd ha List.not_mem_nil
  | cons b rest ih =>
    rw [inTurn_cons, inTurn_cons, result_andThen, result_andThen]
    rcases List.mem_cons.1 ha with rfl | ha
    · -- its turn is the first one
      obtain ⟨htotals, hdisk⟩ := Prod.mk.inj (hself d hd)
      rw [htotals, hdisk]
    · obtain ⟨htotals, hdisk | hdisk⟩ := h b List.mem_cons_self d hd
      · rw [htotals, hdisk]
      · have hrest := ih ha (fun c hc => hkeeps c (List.mem_cons_of_mem _ hc))
          (fun c hc => h c (List.mem_cons_of_mem _ hc)) (hkeeps b List.mem_cons_self d hd)
        obtain ⟨hmore, hend⟩ := Prod.mk.inj hrest
        rw [htotals, hdisk, hmore, hend]

/-- **Builds of a run may all be run before it**, in any number and any order. -/
theorem result_inTurn_again (hm : ∀ a ∈ m, a ∈ l) (hkeeps : ∀ a ∈ l, Keeps kind (build a))
    (hself : ∀ a ∈ l, Idempotent kind (build a))
    (h : ∀ a ∈ l, ∀ b ∈ l, Overlays kind (build a) (build b)) {d : Disk} (hd : kind d) :
    (inTurn build l (inTurn build m d).disk).result = (inTurn build l d).result := by
  induction m generalizing d with
  | nil => rfl
  | cons a rest ih =>
    have ha := hm a List.mem_cons_self
    have hrest := ih (fun b hb => hm b (List.mem_cons_of_mem _ hb)) (hkeeps a ha d hd)
    exact hrest.trans (result_inTurn_of_mem ha hkeeps (hself a ha) (fun b hb => h b hb a ha) hd)

end InTurn

/-! ## Source files that are written again -/

section Writings

variable {d : Disk} {o r : Place}

theorem put_put_self (d : Disk) (p : Place) (x y : Node) : (d.put p y).put p x = d.put p x :=
  congrArg (fun root => { d with root }) (Node.put_put_self x y p d.root)

/-- **Source files cover those of the same names** that are written before them: as many of them are
written as otherwise, and the disk is the same in the end. -/
theorem attempt_writings_again {files files' : List SourceFile}
    (hnames : files.map (Path.ofText ·.name) = files'.map (Path.ofText ·.name))
    (hnodup : (files.map (Path.ofText ·.name)).Nodup) (d : Disk) :
    attempt (files.map (writing o)) (attempt (files'.map (writing o)) d).2
      = attempt (files.map (writing o)) d := by
  induction files generalizing files' d with
  | nil => rw [List.map_eq_nil_iff.1 hnames.symm]; rfl
  | cons file rest ih =>
    cases files' with
    | nil => cases hnames
    | cons file' rest' =>
      obtain ⟨hname, hnames⟩ := List.cons.inj hnames
      obtain ⟨hfirst, hnodup⟩ := List.nodup_cons.1 hnodup
      have hplace : o ++ [Path.ofText file'.name] = o ++ [Path.ofText file.name] :=
        congrArg (o ++ [·]) hname.symm
      have hapart : ∀ a ∈ rest'.map (writing o), a.place.Apart (o ++ [Path.ofText file.name]) := by
        intro a ha
        obtain ⟨f, hf, rfl⟩ := List.mem_map.1 ha
        exact apart_writing fun heq => hfirst (hnames ▸ List.mem_map.2 ⟨f, hf, heq⟩)
      by_cases hfolder : d.root.IsFolderAt (o ++ [Path.ofText file.name])
      · -- a folder is in the way of both
        have hfolder' : d.root.IsFolderAt (o ++ [Path.ofText file'.name]) := by rwa [hplace]
        rw [attempt_writings_of_isFolderAt hfolder']
      · have hfree : ¬ d.root.IsFolderAt (o ++ [Path.ofText file'.name]) := by rwa [hplace]
        rw [attempt_writings_of_not_isFolderAt hfree, attempt_writings_of_not_isFolderAt hfolder,
          hplace]
        -- the file that was written first is still there when the other takes its place
        have hthere : ¬ (attempt (rest'.map (writing o)) (d.put (o ++ [Path.ofText file.name])
            (.file (Utf8.encode file'.contents)))).2.root.IsFolderAt (o ++ [Path.ofText file.name]) := by
          rintro ⟨es, hes⟩
          rw [get?_attempt hapart] at hes
          cases (Node.get?_put_self _ _ _).symm.trans hes
        have hcover := attempt_put hapart (.file (Utf8.encode file.contents))
          (d.put (o ++ [Path.ofText file.name]) (.file (Utf8.encode file'.contents)))
        rw [put_put_self] at hcover
        rw [attempt_writings_of_not_isFolderAt hthere, ← (Prod.mk.inj hcover).2]
        exact ih hnames hnodup _

theorem isFolderAt_attempt_writings (ho : d.root.IsFolderAt o) (files : List SourceFile) :
    (attempt (files.map (writing o)) d).2.root.IsFolderAt r ↔ d.root.IsFolderAt r := by
  induction files generalizing d with
  | nil => rfl
  | cons file rest ih =>
    by_cases hfree : d.root.IsFolderAt (o ++ [Path.ofText file.name])
    · rw [attempt_writings_of_isFolderAt hfree]
    · have hiff (p : Place) : (d.put (o ++ [Path.ofText file.name])
          (.file (Utf8.encode file.contents))).root.IsFolderAt p ↔ d.root.IsFolderAt p :=
        Node.isFolderAt_put_file_iff ho hfree _
      rw [attempt_writings_of_not_isFolderAt hfree, ih ((hiff o).2 ho), hiff]

end Writings

/-! ## Deliveries in one folder -/

section Deliveries

variable {d : Disk} {q : Place}

theorem attempt_deliveries_of_isFolderAt (h : d.root.IsFolderAt (q ++ [Path.built]))
    (compiled : Compiled) : attempt (deliveries q compiled) d
      = attempt (compiled.files.map (writing (q ++ [Path.built]))) d := by
  obtain ⟨es, hes⟩ := h
  exact attempt_of_keep (by simp only [making, hes])

/-- **What is delivered in a folder** is refused as a whole, or it is written in the output folder,
which may be new. -/
theorem attempt_deliveries (hq : d.root.IsFolderAt q) :
    (∀ compiled, attempt (deliveries q compiled) d = (false, d))
      ∨ ∃ e : Disk, e.root.IsFolderAt (q ++ [Path.built])
        ∧ (∀ r, e.root.IsFolderAt r ↔ d.root.IsFolderAt r ∨ r = q ++ [Path.built])
        ∧ ∀ compiled, attempt (deliveries q compiled) d
          = attempt (compiled.files.map (writing (q ++ [Path.built]))) e := by
  cases hnode : d.root.get? (q ++ [Path.built]) with
  | none =>
    have hfree : ¬ d.root.IsFolderAt (q ++ [Path.built]) := fun ⟨es, hes⟩ => by
      cases hnode.symm.trans hes
    -- the output folder is new and empty, so it is the only folder that comes in
    have hiff (r : Place) : (d.put (making q).place (.folder [])).root.IsFolderAt r
        ↔ d.root.IsFolderAt r ∨ r = q ++ [Path.built] :=
      (Node.isFolderAt_put_iff (fun _ _ => rfl) hq hfree).trans
        (or_congr_right (and_iff_left ⟨[], Node.get?_nil _⟩))
    exact .inr ⟨_, (hiff _).2 (.inr rfl), hiff, fun compiled =>
      attempt_of_put (by simp only [making, hnode])⟩
  | some node =>
    cases node with
    | folder es =>
      have hthere : d.root.IsFolderAt (q ++ [Path.built]) := ⟨es, hnode⟩
      exact .inr ⟨d, hthere, fun r => ⟨.inl, fun h => h.elim id fun heq => heq ▸ hthere⟩,
        attempt_deliveries_of_isFolderAt hthere⟩
    | file contents =>
      exact .inl fun compiled => attempt_of_refuse (by simp only [making, hnode])
    | link target =>
      exact .inl fun compiled => attempt_of_refuse (by simp only [making, hnode])

variable {config : Config} {message message' : Text}

/-- **A message covers what was delivered under its name** in the same folder. -/
theorem attempt_deliveries_again (hq : d.root.IsFolderAt q) (text text' : Text) :
    attempt (deliveries q (compile config message text))
        (attempt (deliveries q (compile config message text')) d).2
      = attempt (deliveries q (compile config message text)) d := by
  rcases attempt_deliveries hq with hrefused | ⟨e, he, -, hdelivered⟩
  · rw [hrefused, hrefused]
  · rw [hdelivered, hdelivered, attempt_deliveries_of_isFolderAt
      ((isFolderAt_attempt_writings he _).2 he)]
    exact attempt_writings_again (by rw [map_name_files, map_name_files])
      (nodup_name_files config message text) e

/-- **Messages of different names** are delivered in the same folder in either order. -/
theorem attempt_deliveries_comm (hq : d.root.IsFolderAt q) (hne : message ≠ message')
    (text text' : Text) :
    let as := deliveries q (compile config message text)
    let bs := deliveries q (compile config message' text')
    (attempt as (attempt bs d).2).1 = (attempt as d).1
      ∧ (attempt as (attempt bs d).2).2 = (attempt bs (attempt as d).2).2 := by
  intro as bs
  rcases attempt_deliveries hq with hrefused | ⟨e, he, -, hdelivered⟩
  · rw [hrefused, hrefused, hrefused]
    exact ⟨rfl, rfl⟩
  · obtain ⟨hdone, -, hend⟩ := attempt_comm
      (fun a ha b hb => apart_of_mem_writings (.inr hne) ha hb) e
    rw [hdelivered, hdelivered,
      attempt_deliveries_of_isFolderAt ((isFolderAt_attempt_writings he _).2 he),
      attempt_deliveries_of_isFolderAt ((isFolderAt_attempt_writings he _).2 he)]
    exact ⟨hdone, hend⟩

end Deliveries

/-! ## Definitions that are built again -/

section Definitions

variable (config : Config) {output : Option Path} {d₀ : Disk} {p p' : Path} {q q' : Place}
  {definition definition' : Utf8.Bytes × Utf8.Bytes}

theorem HasDefinition.isFolderAt (h : HasDefinition d₀ p q definition) : d₀.root.IsFolderAt q :=
  h.mem.imp fun _ hes => hes.1

/-- **A definition may be built twice.** -/
theorem idempotent_countFile (hd₀ : d₀.WellFormed) (houtput : output.getD [] = [])
    (h : HasDefinition d₀ p q definition) :
    Idempotent d₀.Grown (countFile config output (p.join definition.1)) := by
  cases hmessage : message? definition with
  | none =>
    obtain ⟨t, ht⟩ := h.exists_idle config output hd₀ hmessage
    exact .of_idle ht
  | some found =>
    intro d hgrown
    have hfirst := h.result_default config output hd₀ houtput hmessage hgrown
    have hkept := keeps_grown_countFile config output hd₀ (p.join definition.1) d hgrown
    rw [h.result_default config output hd₀ houtput hmessage hkept, hfirst, (Prod.mk.inj hfirst).2,
      attempted, attempted, attempt_deliveries_again (h.of_grown hd₀ hgrown).isFolderAt]

/-- **Every definition of a tree overlays every other**: one of the same folder and the same message
covers what the other has delivered, and any other delivers elsewhere. -/
theorem overlays_countFile (hd₀ : d₀.WellFormed) (houtput : output.getD [] = [])
    (h : HasDefinition d₀ p q definition) (h' : HasDefinition d₀ p' q' definition')
    (hplace : q = q' ∨ Place.Apart (q ++ [Path.built]) (q' ++ [Path.built])) :
    Overlays d₀.Grown (countFile config output (p.join definition.1))
      (countFile config output (p'.join definition'.1)) := by
  cases hmessage : message? definition with
  | none =>
    obtain ⟨t, ht⟩ := h.exists_idle config output hd₀ hmessage
    exact .of_idle ht (keeps_grown_countFile config output hd₀ _)
  | some found =>
    cases hmessage' : message? definition' with
    | none =>
      obtain ⟨t, ht⟩ := h'.exists_idle config output hd₀ hmessage'
      exact .of_idle_right ht
    | some found' =>
      intro d hgrown
      have hq := (h.of_grown hd₀ hgrown).isFolderAt
      have hkept := keeps_grown_countFile config output hd₀ (p.join definition.1) d hgrown
      have hkept' := keeps_grown_countFile config output hd₀ (p'.join definition'.1) d hgrown
      -- on all four disks in question the builds are the same alterations
      obtain ⟨htotals, hdisk⟩ :=
        Prod.mk.inj (h.result_default config output hd₀ houtput hmessage hgrown)
      obtain ⟨-, hdisk'⟩ :=
        Prod.mk.inj (h'.result_default config output hd₀ houtput hmessage' hgrown)
      obtain ⟨hlast, hend⟩ :=
        Prod.mk.inj (h.result_default config output hd₀ houtput hmessage hkept')
      obtain ⟨-, hother⟩ :=
        Prod.mk.inj (h'.result_default config output hd₀ houtput hmessage' hkept)
      rw [htotals, hlast, hend, hother, hdisk, hdisk']
      rcases hplace with rfl | hapart
      · -- in one folder it depends on whether the messages have the same name
        obtain ⟨message, text⟩ := found
        obtain ⟨message', text'⟩ := found'
        by_cases hname : message = message'
        · subst hname
          rw [attempt_deliveries_again hq]
          exact ⟨rfl, .inl rfl⟩
        · obtain ⟨hdone, hsame⟩ := attempt_deliveries_comm hq hname text text'
          exact ⟨congrArg _ hdone, .inr hsame⟩
      · -- in different folders nothing is delivered at the same place
        obtain ⟨hdone, -, hsame⟩ := attempt_comm (fun a ha b hb => by
          obtain ⟨r, hr⟩ := exists_place_of_mem_deliveries ha
          obtain ⟨s, hs⟩ := exists_place_of_mem_deliveries hb
          rw [hr, hs]
          exact hapart.append r s) d
        exact ⟨congrArg _ hdone, .inr hsame⟩

end Definitions

end MessageCompiler.Build
