import MessageCompiler.Proofs.Build.Files
import MessageCompiler.Proofs.Build.Turns

/-!
# Deliveries

Where the generated files of a definition go, and why it makes no difference which of two
definitions is built first. With the default output, two folders keep their generated files apart;
with one output folder for all, it is made once, and messages of different names have files of
different names.

* **`delivery`**: what building a definition does to a disk.
* **`grown_buildFile`**: building a file adds to the disk at most.
* **`commutes_default`, `commutes_given`**: two definitions in either order.
-/

namespace MessageCompiler.Build

open Disk

variable (config : Config) (output : Option Path) {d d₀ : Disk} {p p' : Path} {q q' : Place}

/-- What comes of a compiled definition that is delivered by alterations. -/
def attempted (compiled : Compiled) (as : List Alteration) (d : Disk) : Totals × Disk :=
  (settled compiled (attempt as d).1, (attempt as d).2)

/-! ## Output folders -/

theorem outputFolder_of_default {output : Option Path} (h : output.getD [] = []) (file : Path) :
    outputFolder output file = file.defaultOutput := by
  cases output with
  | none => rfl
  | some folder => rw [show folder = [] from h]; rfl

theorem outputFolder_of_given {output : Option Path} (h : output.getD [] ≠ []) (file : Path) :
    outputFolder output file = output.getD [] := by
  cases output with
  | none => exact absurd rfl h
  | some folder =>
    have hfolder : folder.isEmpty = false := by simpa using h
    rw [outputFolder, hfolder]
    rfl

theorem outputFolder_ne_nil (output : Option Path) (file : Path) : outputFolder output file ≠ [] := by
  by_cases h : output.getD [] = []
  · rw [outputFolder_of_default h]
    exact Path.join_ne_nil _ Path.isName_built
  · rw [outputFolder_of_given h]
    exact h

/-! ## One delivery -/

section Delivery

variable {name contents : Utf8.Bytes} {message text : Text}

/-- **What building a definition does to a disk**: its output folder cannot be made, or it is there
then and the generated files are written in it. -/
theorem delivery (hd : d.WellFormed) (hname : Path.IsName name)
    (hfind : d.find (p.join name) = .ok (.file contents))
    (h : message? (name, contents) = some (message, text)) :
    (∃ e cause, d.makeFolders (outputFolder output (p.join name)) = (e, some cause)
      ∧ (countFile config output (p.join name) d).result = ({ failed := 1 }, e) ∧ d.Grown e)
    ∨ ∃ e o, d.makeFolders (outputFolder output (p.join name)) = (e, none)
      ∧ e.folderAt? (outputFolder output (p.join name)) = some o
      ∧ (countFile config output (p.join name) d).result = attempted (compile config message text)
        ((compile config message text).files.map (writing o)) e
      ∧ d.Grown e
      ∧ e.Grown (attempt ((compile config message text).files.map (writing o)) e).2 := by
  obtain ⟨message', hmessage, h'⟩ := Option.bind_eq_some_iff.1 h
  obtain ⟨text', -, h'⟩ := Option.bind_eq_some_iff.1 h'
  obtain ⟨rfl, rfl⟩ := Prod.mk.inj (Option.some.inj h')
  have hslash := (Path.messageOf?_eq_some hname hmessage).2
  have hresult := result_countFile config output hname hfind h
  rcases hmake : d.makeFolders (outputFolder output (p.join name)) with ⟨e, _ | cause⟩
  · have hgrown := grown_makeFolders hd hmake
    obtain ⟨o, ho⟩ := folderAt?_makeFolders hd (outputFolder_ne_nil output _) hmake
    obtain ⟨hsave, hsaved⟩ := save_eq_attempt config (hgrown.wellFormed hd) ho hslash
      (isGenerated_of_mem_files config message' text')
    refine .inr ⟨e, o, rfl, ho, ?_, hgrown, ?_⟩
    · rw [hresult, hmake, attempted, ← hsave]
    · rw [← hsave]
      exact hsaved
  · refine .inl ⟨e, cause, rfl, ?_, grown_makeFolders hd hmake⟩
    rw [hresult, hmake]

/-- **Building a file adds to the disk** at most. -/
theorem grown_buildFile (hd : d.WellFormed) (file : Path) :
    d.Grown (buildFile config output file d).disk := by
  rcases buildFile_cases config output file d with ⟨hdisk, -⟩ | ⟨e, cause, hmake, hdisk, -⟩
    | ⟨name, text, e, hname, hmake, hdisk, -⟩
  · rw [hdisk]
    exact .refl
  · rw [hdisk]
    exact grown_makeFolders hd hmake
  · have hgrown := grown_makeFolders hd hmake
    obtain ⟨o, ho⟩ := folderAt?_makeFolders hd (outputFolder_ne_nil output file) hmake
    rw [hdisk]
    exact hgrown.trans (save_eq_attempt config (hgrown.wellFormed hd) ho
      (Path.slash_not_mem_messageName? hname) (isGenerated_of_mem_files config name text)).2

theorem keeps_grown_countFile (hd₀ : d₀.WellFormed) (file : Path) :
    Keeps d₀.Grown (countFile config output file) := fun _ hgrown =>
  hgrown.trans (grown_buildFile config output (hgrown.wellFormed hd₀) file)

/-- Makes the default output of the folder at a place, unless it is there. -/
def making (folder : Place) : Alteration where
  place := folder ++ [Path.built]
  decide
    | none => .put (.folder [])
    | some (.folder _) => .keep
    | some _ => .refuse

/-- The alterations that build a definition in the folder at a place, with the default output. -/
def deliveries (folder : Place) (compiled : Compiled) : List Alteration :=
  making folder :: compiled.files.map (writing (folder ++ [Path.built]))

/-- **With the default output** a definition is built by alterations in the output folder of its
folder. -/
theorem delivery_default (hd : d.WellFormed) (houtput : output.getD [] = [])
    (hq : d.folderAt? p = some q) (hname : Path.IsName name)
    (hfind : d.find (p.join name) = .ok (.file contents))
    (h : message? (name, contents) = some (message, text)) :
    (countFile config output (p.join name) d).result = attempted (compile config message text)
      (deliveries q (compile config message text)) d := by
  obtain ⟨folder, hne, habsolute, hsteps, hdefault⟩ :=
    Path.defaultOutput_join (ne_nil_of_folderAt? hq)
  have hfolder : d.folderAt? folder = some q :=
    (folderAt?_congr hne (ne_nil_of_folderAt? hq) habsolute hsteps).trans hq
  have hmake := makeFolders_join hd hfolder Path.isName_built
  have hdelivery := delivery config output hd hname hfind h
  rw [outputFolder_of_default houtput, hdefault hname] at hdelivery
  have hthere : ∀ {e : Disk} {sub : Entries}, d.Grown e →
      e.root.get? (q ++ [Path.built]) = some (.folder sub) →
      e.folderAt? (folder.join Path.built) = some (q ++ [Path.built]) := fun hgrown hsub => by
    rw [folderAt?_join (hgrown.folderAt? hfolder) Path.isName_built, hsub]
  -- whether the folder is made is decided by what is in its place, as the alteration decides it
  cases hnode : d.root.get? (q ++ [Path.built]) with
  | none =>
    rw [hnode] at hmake
    have hdecide : (making q).decide (d.root.get? (making q).place) = .put (.folder []) := by
      simp only [making, hnode]
    rw [attempted, deliveries, attempt_of_put hdecide]
    rcases hdelivery with ⟨e, cause, hmake', -, -⟩ | ⟨e, o, hmake', ho, hresult, hgrown, -⟩
    · cases (Prod.mk.inj (hmake.symm.trans hmake')).2
    · obtain rfl := (Prod.mk.inj (hmake.symm.trans hmake')).1
      rw [hthere hgrown (Node.get?_put_self _ _ _)] at ho
      rw [hresult, ← Option.some.inj ho]
      rfl
  | some node =>
    rw [hnode] at hmake
    have hrefused (hcause : d.makeFolders (folder.join Path.built) = (d, some .exists))
        (hdecide : (making q).decide (d.root.get? (making q).place) = .refuse) :
        (countFile config output (p.join name) d).result = attempted (compile config message text)
          (deliveries q (compile config message text)) d := by
      rw [attempted, deliveries, attempt_of_refuse hdecide]
      rcases hdelivery with ⟨e, cause, hmake', hresult, -⟩ | ⟨e, o, hmake', -⟩
      · rw [hresult, ← (Prod.mk.inj (hcause.symm.trans hmake')).1]
        rfl
      · cases (Prod.mk.inj (hcause.symm.trans hmake')).2
    cases node with
    | file old => exact hrefused hmake (by simp only [making, hnode])
    | link target => exact hrefused hmake (by simp only [making, hnode])
    | folder sub =>
      have hdecide : (making q).decide (d.root.get? (making q).place) = .keep := by
        simp only [making, hnode]
      rw [attempted, deliveries, attempt_of_keep hdecide]
      rcases hdelivery with ⟨e, cause, hmake', -, -⟩ | ⟨e, o, hmake', ho, hresult, hgrown, -⟩
      · cases (Prod.mk.inj (hmake.symm.trans hmake')).2
      · obtain rfl := (Prod.mk.inj (hmake.symm.trans hmake')).1
        rw [hthere hgrown hnode] at ho
        rw [hresult, ← Option.some.inj ho]
        rfl

end Delivery

/-! ## Two deliveries -/

/-- A path leads to a folder at a place that has a definition of this name and contents. -/
structure HasDefinition (d : Disk) (p : Path) (q : Place) (definition : Utf8.Bytes × Utf8.Bytes) :
    Prop where
  folderAt? : d.folderAt? p = some q
  mem : ∃ es : Entries, d.root.get? q = some (.folder es) ∧ definition ∈ es.definitions

namespace HasDefinition

variable {definition : Utf8.Bytes × Utf8.Bytes}

theorem of_grown (h : HasDefinition d₀ p q definition) (hd₀ : d₀.WellFormed) (hgrown : d₀.Grown d) :
    HasDefinition d p q definition := by
  obtain ⟨hq, es, hes, hmem⟩ := h
  obtain ⟨es', hes', hdefinitions, -⟩ := hgrown.entries hd₀ hes
  exact ⟨hgrown.folderAt? hq, es', hes', hdefinitions ▸ hmem⟩

theorem find (h : HasDefinition d p q definition) (hd : d.WellFormed) :
    Path.IsName definition.1 ∧ d.find (p.join definition.1) = .ok (.file definition.2) := by
  obtain ⟨hq, es, hes, hmem⟩ := h
  exact find_definition hd hq hes hmem

/-- A definition without a message that can be compiled always comes to the same totals, and changes
nothing. -/
theorem exists_idle (h : HasDefinition d₀ p q definition) (hd₀ : d₀.WellFormed)
    (hnone : message? definition = none) : ∃ t, ∀ d, d₀.Grown d →
      (countFile config output (p.join definition.1) d).result = (t, d) := by
  obtain ⟨t, ht⟩ := exists_result_of_message?_eq_none config output (p := p) (h.find hd₀).1 hnone
  exact ⟨t, fun d hgrown => ht d ((h.of_grown hd₀ hgrown).find (hgrown.wellFormed hd₀)).2⟩

theorem result_default {found : Text × Text} (h : HasDefinition d₀ p q definition)
    (hd₀ : d₀.WellFormed) (houtput : output.getD [] = []) (hmessage : message? definition = some found)
    (hgrown : d₀.Grown d) : (countFile config output (p.join definition.1) d).result
      = attempted (compile config found.1 found.2) (deliveries q (compile config found.1 found.2)) d := by
  have hd := hgrown.wellFormed hd₀
  have hhere := h.of_grown hd₀ hgrown
  obtain ⟨hname, hfind⟩ := hhere.find hd
  exact delivery_default config output hd houtput hhere.folderAt? hname hfind hmessage

theorem result_refused {found : Text × Text} (h : HasDefinition d₀ p q definition)
    (hd₀ : d₀.WellFormed) (houtput : output.getD [] ≠ []) (hmessage : message? definition = some found)
    (hgrown : d₀.Grown d) {e : Disk} {cause : Cause}
    (hmake : d.makeFolders (output.getD []) = (e, some cause)) :
    (countFile config output (p.join definition.1) d).result = ({ failed := 1 }, e) := by
  obtain ⟨hname, hfind⟩ := (h.of_grown hd₀ hgrown).find (hgrown.wellFormed hd₀)
  rw [result_countFile config output hname hfind hmessage, outputFolder_of_given houtput, hmake]

theorem result_given {found : Text × Text} (h : HasDefinition d₀ p q definition)
    (hd₀ : d₀.WellFormed) (houtput : output.getD [] ≠ []) (hmessage : message? definition = some found)
    (hgrown : d₀.Grown d) {e : Disk} (hmake : d.makeFolders (output.getD []) = (e, none)) {o : Place}
    (ho : e.folderAt? (output.getD []) = some o) :
    (countFile config output (p.join definition.1) d).result = attempted
        (compile config found.1 found.2) ((compile config found.1 found.2).files.map (writing o)) e
      ∧ e.Grown (attempt ((compile config found.1 found.2).files.map (writing o)) e).2 := by
  have hd := hgrown.wellFormed hd₀
  obtain ⟨hname, hfind⟩ := (h.of_grown hd₀ hgrown).find hd
  rcases delivery config output hd hname hfind hmessage with
    ⟨e', cause, hmake', -⟩ | ⟨e', o', hmake', ho', hresult, -, hsaved⟩
  · rw [outputFolder_of_given houtput] at hmake'
    cases (Prod.mk.inj (hmake.symm.trans hmake')).2
  · rw [outputFolder_of_given houtput] at hmake' ho'
    obtain rfl := (Prod.mk.inj (hmake.symm.trans hmake')).1
    obtain rfl := Option.some.inj (ho.symm.trans ho')
    exact ⟨hresult, hsaved⟩

end HasDefinition

theorem result_andThen_comm {f g : Disk → FolderBuild} {compiled compiled' : Compiled}
    {as bs : List Alteration} (hapart : ∀ a ∈ as, ∀ b ∈ bs, a.place.Apart b.place) {e : Disk}
    (hf : (f d).result = attempted compiled as e) (hg : (g d).result = attempted compiled' bs e)
    (hf' : (f (attempt bs e).2).result = attempted compiled as (attempt bs e).2)
    (hg' : (g (attempt as e).2).result = attempted compiled' bs (attempt as e).2) :
    ((f d).andThen g).result = ((g d).andThen f).result := by
  obtain ⟨htotals, hdisk⟩ := Prod.mk.inj hf
  obtain ⟨htotals', hdisk'⟩ := Prod.mk.inj hg
  obtain ⟨hlast, hend⟩ := Prod.mk.inj hf'
  obtain ⟨hlast', hend'⟩ := Prod.mk.inj hg'
  obtain ⟨hfirst, hsecond, hdisks⟩ := attempt_comm hapart e
  rw [result_andThen, result_andThen, htotals, htotals', hdisk, hdisk', hlast, hlast', hend, hend',
    hfirst, hsecond, hdisks, Totals.add_comm]

theorem exists_place_of_mem_deliveries {compiled : Compiled} {a : Alteration}
    (h : a ∈ deliveries q compiled) : ∃ rest, a.place = (q ++ [Path.built]) ++ rest := by
  rcases List.mem_cons.1 h with rfl | h
  · exact ⟨[], (List.append_nil _).symm⟩
  · obtain ⟨file, -, rfl⟩ := List.mem_map.1 h
    exact ⟨[Path.ofText file.name], rfl⟩

/-- Generated files of messages with different names have different places in one folder. -/
theorem apart_of_mem_writings {config : Config} {message message' text text' : Text}
    (hne : config.targets.enabled = [] ∨ message ≠ message') {o : Place} {a b : Alteration}
    (ha : a ∈ (compile config message text).files.map (writing o))
    (hb : b ∈ (compile config message' text').files.map (writing o)) : a.place.Apart b.place := by
  obtain ⟨file, hfile, rfl⟩ := List.mem_map.1 ha
  obtain ⟨file', hfile', rfl⟩ := List.mem_map.1 hb
  rcases hne with hnone | hne
  · -- without targets nothing is generated
    obtain ⟨t, ht, -⟩ := List.mem_map.1 hfile
    rw [hnone] at ht
    cases ht
  obtain ⟨t, ht⟩ := isGenerated_of_mem_files config message text file hfile
  obtain ⟨t', ht'⟩ := isGenerated_of_mem_files config message' text' file' hfile'
  refine Place.Apart.of_ne o fun heq => hne ?_
  rw [ht, ht'] at heq
  exact (Path.fileName_injective heq).1

section Commutes

variable {definition definition' : Utf8.Bytes × Utf8.Bytes}

theorem commutes_of_found (hd₀ : d₀.WellFormed) (h : HasDefinition d₀ p q definition)
    (h' : HasDefinition d₀ p' q' definition')
    (hfound : ∀ found found', message? definition = some found → message? definition' = some found' →
      Commutes d₀.Grown (countFile config output (p.join definition.1))
        (countFile config output (p'.join definition'.1))) :
    Commutes d₀.Grown (countFile config output (p.join definition.1))
      (countFile config output (p'.join definition'.1)) := by
  have hkeeps := keeps_grown_countFile config output hd₀
  cases hmessage : message? definition with
  | none =>
    obtain ⟨t, ht⟩ := h.exists_idle config output hd₀ hmessage
    exact .of_idle ht (hkeeps _)
  | some found =>
    cases hmessage' : message? definition' with
    | none =>
      obtain ⟨t, ht⟩ := h'.exists_idle config output hd₀ hmessage'
      exact (Commutes.of_idle ht (hkeeps _)).symm
    | some found' => exact hfound found found' hmessage hmessage'

/-- **With the default output** definitions in different folders may be built in either order, if
neither of the output folders is inside the other. -/
theorem commutes_default (hd₀ : d₀.WellFormed) (houtput : output.getD [] = [])
    (h : HasDefinition d₀ p q definition) (h' : HasDefinition d₀ p' q' definition')
    (hapart : Place.Apart (q ++ [Path.built]) (q' ++ [Path.built])) :
    Commutes d₀.Grown (countFile config output (p.join definition.1))
      (countFile config output (p'.join definition'.1)) := by
  refine commutes_of_found config output hd₀ h h' fun found found' hmessage hmessage' => ?_
  intro d hgrown
  have hfirst := h.result_default config output hd₀ houtput hmessage hgrown
  have hfirst' := h'.result_default config output hd₀ houtput hmessage' hgrown
  have hkept := keeps_grown_countFile config output hd₀ (p.join definition.1) d hgrown
  have hkept' := keeps_grown_countFile config output hd₀ (p'.join definition'.1) d hgrown
  rw [(Prod.mk.inj hfirst).2] at hkept
  rw [(Prod.mk.inj hfirst').2] at hkept'
  -- the one is delivered by the same alterations on the disk that the other has left
  refine result_andThen_comm (fun a ha b hb => ?_) hfirst hfirst'
    (h.result_default config output hd₀ houtput hmessage hkept')
    (h'.result_default config output hd₀ houtput hmessage' hkept)
  obtain ⟨r, hr⟩ := exists_place_of_mem_deliveries ha
  obtain ⟨s, hs⟩ := exists_place_of_mem_deliveries hb
  rw [hr, hs]
  exact hapart.append r s

/-- **With one output folder** definitions of messages with different names may be built in either
order, and any definitions if nothing is generated from them. The folder is made by whichever comes
first, and is there for the other; or it cannot be made at all. -/
theorem commutes_given (hd₀ : d₀.WellFormed) (houtput : output.getD [] ≠ [])
    (h : HasDefinition d₀ p q definition) (h' : HasDefinition d₀ p' q' definition')
    (hne : ∀ found found', message? definition = some found → message? definition' = some found' →
      config.targets.enabled = [] ∨ found.1 ≠ found'.1) :
    Commutes d₀.Grown (countFile config output (p.join definition.1))
      (countFile config output (p'.join definition'.1)) := by
  refine commutes_of_found config output hd₀ h h' fun found found' hmessage hmessage' => ?_
  intro d hgrown
  have hd := hgrown.wellFormed hd₀
  have hkept := keeps_grown_countFile config output hd₀ (p.join definition.1) d hgrown
  have hkept' := keeps_grown_countFile config output hd₀ (p'.join definition'.1) d hgrown
  rcases hmake : d.makeFolders (output.getD []) with ⟨e, _ | cause⟩
  · -- the folder is at the same place when the other comes to it, so it is as if both had found it
    have he := (grown_makeFolders hd hmake).wellFormed hd
    obtain ⟨o, ho⟩ := folderAt?_makeFolders hd houtput hmake
    obtain ⟨hfirst, hsaved⟩ :=
      h.result_given config output hd₀ houtput hmessage hgrown hmake ho
    obtain ⟨hfirst', hsaved'⟩ :=
      h'.result_given config output hd₀ houtput hmessage' hgrown hmake ho
    rw [(Prod.mk.inj hfirst).2] at hkept
    rw [(Prod.mk.inj hfirst').2] at hkept'
    have hthere := hsaved.folderAt? ho
    have hthere' := hsaved'.folderAt? ho
    exact result_andThen_comm
      (fun a ha b hb => apart_of_mem_writings (hne _ _ hmessage hmessage') ha hb) hfirst hfirst'
      (h.result_given config output hd₀ houtput hmessage hkept'
        (makeFolders_again (hsaved'.wellFormed he) hthere') hthere').1
      (h'.result_given config output hd₀ houtput hmessage' hkept
        (makeFolders_again (hsaved.wellFormed he) hthere) hthere).1
  · -- the cause may be another one the second time, but totals do not tell causes
    obtain ⟨cause', hagain⟩ := makeFolders_fails_again hd houtput hmake
    obtain ⟨htotals, hdisk⟩ := Prod.mk.inj
      (h.result_refused config output hd₀ houtput hmessage hgrown hmake)
    obtain ⟨htotals', hdisk'⟩ := Prod.mk.inj
      (h'.result_refused config output hd₀ houtput hmessage' hgrown hmake)
    rw [hdisk] at hkept
    rw [hdisk'] at hkept'
    obtain ⟨hlast, hend⟩ := Prod.mk.inj
      (h.result_refused config output hd₀ houtput hmessage hkept hagain)
    obtain ⟨hlast', hend'⟩ := Prod.mk.inj
      (h'.result_refused config output hd₀ houtput hmessage' hkept' hagain)
    rw [result_andThen, result_andThen, htotals, htotals', hdisk, hdisk', hlast, hlast', hend,
      hend']

end Commutes

end MessageCompiler.Build
