import MessageCompiler.Command.Occurrence
import Mathlib.Data.List.Basic
import Mathlib.Data.List.TakeDrop
import Mathlib.Data.List.TakeWhile

/-!
# What a scan finds

The two steps in which the words of a command are read, from outside. A scan that comes to the end of
the words finds the parameters that the options among them name, in order, whatever operands and
values stand between. What it finds is settled one by one, and each value that is settled is of the
kind that its parameter takes.

* **`Grammar.finds_scan`**: the parameters in a scan are those that the options name.
* **`exists_parameters_longOption`**, **`short?_of_mem_option`**: what an option can name.
* **`Grammar.finds_of_read`**: what is known of the words of a command that are read.
-/

namespace MessageCompiler.Command

/-! ## Settling -/

section Settling

variable {given given' : List Given} {o : Occurrence} {os : List Occurrence} {ending : Ending}

theorem settleOne_eq_ok (h : settleOne given o = .ok given') :
    o.parameter.takes.check (o.value.getD []) = .ok ()
      ∧ given' = given.filter (fun g => o.parameter.opposite != some g.name)
        ++ [⟨o.parameter.name, o.value.getD []⟩] := by
  unfold settleOne at h
  dsimp only at h
  split at h
  · cases h
  split at h
  · cases h
  split at h
  · cases h
  · next hcheck => exact ⟨hcheck, (Except.ok.inj h).symm⟩

theorem settle_nil (h : settle given [] ending = .ok given') :
    ending = .complete ∧ given' = given := by
  cases ending with
  | complete => exact ⟨rfl, (Except.ok.inj h).symm⟩
  | help => cases h
  | senseless usage => cases h

theorem settle_cons (h : settle given (o :: os) ending = .ok given') :
    ∃ next, settleOne given o = .ok next ∧ settle next os ending = .ok given' := by
  unfold settle at h
  split at h
  · cases h
  · split at h
    · cases h
    · next next hnext => exact ⟨next, hnext, h⟩

theorem ending_of_settle (h : settle given os ending = .ok given') : ending = .complete := by
  induction os generalizing given with
  | nil => exact (settle_nil h).1
  | cons o rest ih =>
    obtain ⟨next, -, hrest⟩ := settle_cons h
    exact ih hrest

theorem check_of_mem_settle {name : Text} {takes : Takes} (h : settle given os ending = .ok given')
    (hgiven : ∀ g ∈ given, g.name = name → takes.check g.value = .ok ())
    (hos : ∀ o ∈ os, o.parameter.name = name → o.parameter.takes = takes) :
    ∀ g ∈ given', g.name = name → takes.check g.value = .ok () := by
  induction os generalizing given with
  | nil =>
    obtain ⟨-, rfl⟩ := settle_nil h
    exact hgiven
  | cons o rest ih =>
    obtain ⟨next, hnext, hrest⟩ := settle_cons h
    obtain ⟨hcheck, rfl⟩ := settleOne_eq_ok hnext
    refine ih hrest (fun g hg hname => ?_) fun o ho => hos o (List.mem_cons_of_mem _ ho)
    rcases List.mem_append.1 hg with hg | hg
    · exact hgiven g (List.mem_filter.1 hg).1 hname
    · obtain rfl := List.mem_singleton.1 hg
      exact hos o List.mem_cons_self hname ▸ hcheck

end Settling

/-! ## Scanning -/

/-- The words that look like options, up to the mark that no more options come. -/
def optionWords (words : List Text) : List Text :=
  (words.takeWhile (· != "--".toList)).filter isOption

/-- The parameters that a word of options names. -/
def Cluster.parameters : Cluster → List Parameter
  | .done os => os.map (·.parameter)
  | .waiting os p => os.map (·.parameter) ++ [p]
  | .ended os _ => os.map (·.parameter)

theorem optionWords_mark (words : List Text) : optionWords (['-', '-'] :: words) = [] := rfl

theorem optionWords_cons_of_isOption {word : Text} (hne : word ≠ ['-', '-'])
    (hword : isOption word = true) (words : List Text) :
    optionWords (word :: words) = word :: optionWords words := by
  have hmark : (word != "--".toList) = true := bne_iff_ne.2 hne
  rw [optionWords, List.takeWhile_cons, hmark]
  exact List.filter_cons_of_pos hword

theorem optionWords_cons_of_not_isOption {word : Text} (hword : ¬ isOption word = true)
    (words : List Text) : optionWords (word :: words) = optionWords words := by
  have hmark : (word != "--".toList) = true := bne_iff_ne.2 fun heq => hword (heq ▸ rfl)
  rw [optionWords, List.takeWhile_cons, hmark]
  exact List.filter_cons_of_neg hword

namespace Grammar

variable (g : Grammar)

/-- What a word of options amounts to. -/
def option (word : Text) : Cluster :=
  match word with
  | '-' :: '-' :: name => g.longOption name
  | _ => g.cluster [] (word.drop 1)

/-- The parameters in a scan, but for the operand. -/
def parametersIn (s : Scan) : List Parameter :=
  (s.occurrences.map (·.parameter)).filter (· != g.operand)

/-- The options among the words make sense, and a scan has found the parameters that they name. -/
structure Finds (words : List Text) (s : Scan) : Prop where
  sensible : ∀ word ∈ optionWords words, ∀ os ending, g.option word ≠ .ended os ending
  found : g.parametersIn s
    = ((optionWords words).flatMap fun word => (g.option word).parameters).filter (· != g.operand)

variable {g} {words : List Text} {s : Scan}

theorem Finds.of_optionWords_eq_nil (h : optionWords words = []) (hs : g.parametersIn s = []) :
    g.Finds words s where
  sensible := by simp [h]
  found := by rw [hs, h]; rfl

/-- An option stands for the occurrences that it amounts to. -/
theorem Finds.prepend (h : g.Finds words s) {word : Text} (hne : word ≠ ['-', '-'])
    (hword : isOption word = true) (hsense : ∀ os ending, g.option word ≠ .ended os ending)
    {os : List Occurrence} (hos : os.map (·.parameter) = (g.option word).parameters) :
    g.Finds (word :: words) (s.prepend os) := by
  have hwords := optionWords_cons_of_isOption hne hword words
  refine ⟨fun other hother => ?_, ?_⟩
  · rw [hwords] at hother
    rcases List.mem_cons.1 hother with rfl | hother
    · exact hsense
    · exact h.sensible other hother
  · have hfound := h.found
    rw [parametersIn] at hfound
    rw [hwords, List.flatMap_cons, List.filter_append, ← hfound, ← hos, parametersIn, Scan.prepend,
      List.map_append, List.filter_append]

/-- A word that is no option makes no difference, as an operand or as the value of an option. -/
theorem Finds.skip (h : g.Finds words s) {word : Text} (hword : ¬ isOption word = true) :
    g.Finds (word :: words) s := by
  have hwords := optionWords_cons_of_not_isOption hword words
  exact ⟨hwords ▸ h.sensible, hwords ▸ h.found⟩

theorem parametersIn_cons_operand (value : Option Text) (prompt : Bool) (s : Scan) :
    g.parametersIn (s.cons ⟨g.operand, value, prompt⟩) = g.parametersIn s := by
  simp [parametersIn, Scan.cons]

theorem parametersIn_operands (free : Bool) (words : List Text) :
    g.parametersIn (g.operands free words) = [] := by
  induction words generalizing free with
  | nil => rfl
  | cons word rest ih =>
    rw [operands]
    split
    · rw [parametersIn_cons_operand, ih]
    · rfl

theorem option_long (name : Text) : g.option ('-' :: '-' :: name) = g.longOption name := rfl

theorem option_of_short {word : Text} (h : ∀ name, word ≠ '-' :: '-' :: name) :
    g.option word = g.cluster [] (word.drop 1) := by
  unfold option
  split
  · next name => exact absurd rfl (h name)
  · rfl

/-! Whatever ends a word of options, it is not the end of all the words. -/

theorem cluster_ne_complete (before os : List Occurrence) (word : Text) :
    g.cluster before word ≠ .ended os .complete := by
  induction word generalizing before with
  | nil => simp [cluster]
  | cons c rest ih =>
    rw [cluster]
    split
    · split <;> simp
    · split
      · exact ih _
      · split <;> simp

theorem longOption_ne_complete (word : Text) (os : List Occurrence) :
    g.longOption word ≠ .ended os .complete := by
  unfold longOption
  dsimp only
  split <;> (repeat' split) <;> simp

theorem option_ne_complete (word : Text) (os : List Occurrence) :
    g.option word ≠ .ended os .complete := by
  by_cases hlong : ∃ name, word = '-' :: '-' :: name
  · obtain ⟨name, rfl⟩ := hlong
    exact longOption_ne_complete name os
  · rw [option_of_short (not_exists.1 hlong)]
    exact cluster_ne_complete [] os _

/-- **A scan that reads all of the words finds the parameters that the options name.** -/
theorem finds_scan (free : Bool) (words : List Text) (h : (g.scan free words).ending = .complete) :
    g.Finds words (g.scan free words) := by
  -- the cases of a scan: the end, the mark, an option (3 to 7, by what it amounts to), an operand
  fun_induction g.scan free words with
  | case1 free => exact .of_optionWords_eq_nil rfl rfl
  | case2 free rest => exact .of_optionWords_eq_nil (optionWords_mark rest) (parametersIn_operands _ _)
  | case3 free word hne hword cluster os rest hcluster ih =>
    change g.option word = .done os at hcluster
    exact (ih h).prepend hne hword (by simp [hcluster]) (by simp [hcluster, Cluster.parameters])
  | case4 free word rest hne hword cluster os ending hcluster =>
    change g.option word = .ended os ending at hcluster
    obtain rfl : ending = .complete := h
    exact absurd hcluster (option_ne_complete word os)
  | case5 free word hne hword cluster os p hcluster =>
    -- an option in want of its value is the last word
    change g.option word = .waiting os p at hcluster
    have hend : g.Finds [] (.ended .complete) := .of_optionWords_eq_nil rfl rfl
    have hlast : g.Finds [word] (Scan.prepend (os ++ [⟨p, none, false⟩]) (.ended .complete)) :=
      hend.prepend hne hword (by simp [hcluster]) (by simp [hcluster, Cluster.parameters])
    simpa [Scan.prepend, Scan.ended] using hlast
  | case6 free word hne hword cluster os p value rest hcluster hvalue ih =>
    change g.option word = .waiting os p at hcluster
    exact (ih h).prepend hne hword (by simp [hcluster]) (by simp [hcluster, Cluster.parameters])
  | case7 free word hne hword cluster os p value rest hcluster hvalue ih =>
    change g.option word = .waiting os p at hcluster
    exact ((ih h).skip hvalue).prepend hne hword (by simp [hcluster])
      (by simp [hcluster, Cluster.parameters])
  | case8 word rest hne hword ih =>
    have hrest := (ih h).skip hword
    exact ⟨hrest.sensible, (parametersIn_cons_operand _ _ _).trans hrest.found⟩
  | case9 => cases h

/-! ## Options -/

section Options

variable {p : Parameter} {word : Text}

theorem mem_named_of_short? {c : Char} (h : g.short? c = some p) : p ∈ g.named ∧ p.short = some c :=
  ⟨List.mem_of_find?_eq_some h, by simpa using List.find?_some h⟩

theorem longOption_eq (word : Text) : g.longOption word
    = match g.long? (word.takeWhile (· != '=')), word.dropWhile (· != '=') with
      | some p, [] => if p.takes = .nothing then .done [⟨p, none, true⟩] else .waiting [] p
      | some p, _ :: value =>
        if p.takes = .nothing then .ended [] (.senseless .unwantedValue)
        else .done [⟨p, some value, true⟩]
      | none, tail =>
        if word.takeWhile (· != '=') = "help".toList then
          .ended [] (if tail.isEmpty then .help else .senseless .unwantedValue)
        else .ended [] (.senseless .unknownArgument) := by
  unfold longOption
  rw [List.span_eq_takeWhile_dropWhile]
  dsimp only
  cases g.long? (word.takeWhile (· != '=')) with
  | none => cases word.dropWhile (· != '=') <;> rfl
  | some p => cases word.dropWhile (· != '=') <;> rfl

/-- **What a long option names**: the parameter of this name, and a switch only without a value. -/
theorem exists_parameters_longOption (h : ∀ os ending, g.longOption word ≠ .ended os ending) :
    ∃ p ∈ g.named, (g.longOption word).parameters = [p] ∧ p.name = word.takeWhile (· != '=')
      ∧ (p.takes = .nothing → p.name = word) := by
  -- the word is the name and what follows from the first equals sign on
  have hcut : word.takeWhile (· != '=') ++ word.dropWhile (· != '=') = word :=
    List.takeWhile_append_dropWhile
  rw [longOption_eq] at h ⊢
  cases hlong : g.long? (word.takeWhile (· != '=')) with
  | none =>
    rw [hlong] at h
    dsimp only at h
    split at h <;> exact absurd rfl (h _ _)
  | some p =>
    have hname : p.name = word.takeWhile (· != '=') := by simpa using List.find?_some hlong
    rw [hlong] at h
    refine ⟨p, List.mem_of_find?_eq_some hlong, ?_, hname, fun htakes => ?_⟩
    · cases htail : word.dropWhile (· != '=') with
      | nil =>
        dsimp only
        split <;> rfl
      | cons c value =>
        rw [htail] at h
        dsimp only at h ⊢
        split
        · next htakes => exact absurd (if_pos htakes) (h _ _)
        · rfl
    · cases htail : word.dropWhile (· != '=') with
      | nil =>
        rw [htail, List.append_nil] at hcut
        exact hname.trans hcut
      | cons c value =>
        rw [htail] at h
        exact absurd (if_pos htakes) (h _ _)

/-- What the first letter of a word of short options stands for: a switch goes on with the rest of the
word, an option with a value takes the rest of it. -/
theorem cluster_cons_of_short? {c : Char} (hp : g.short? c = some p) (before : List Occurrence)
    (rest : Text) :
    if p.takes = .nothing then
      g.cluster before (c :: rest) = g.cluster (before ++ [⟨p, none, true⟩]) rest
    else (g.cluster before (c :: rest)).parameters = before.map (·.parameter) ++ [p] := by
  rw [cluster, hp]
  dsimp only
  split
  · rfl
  · split
    · rfl
    · simp [Cluster.parameters]
    · simp [Cluster.parameters]

theorem cluster_cons_of_short?_eq_none {c : Char} (hc : g.short? c = none)
    (before : List Occurrence) (rest : Text) :
    ∃ ending, g.cluster before (c :: rest) = .ended before ending := by
  rw [cluster, hc]
  dsimp only
  split
  · exact ⟨_, rfl⟩
  · exact ⟨_, rfl⟩

theorem mem_cluster_of_mem {before : List Occurrence} (h : p ∈ before.map (·.parameter)) :
    p ∈ (g.cluster before word).parameters := by
  induction word generalizing before with
  | nil => exact h
  | cons c rest ih =>
    cases hc : g.short? c with
    | none =>
      obtain ⟨ending, hended⟩ := cluster_cons_of_short?_eq_none hc before rest
      rwa [hended]
    | some first =>
      have hfirst := cluster_cons_of_short? hc before rest
      split at hfirst
      · rw [hfirst]
        exact ih (by simpa using Or.inl h)
      · rw [hfirst]
        exact List.mem_append_left _ h

theorem short?_of_mem_cluster {before : List Occurrence}
    (h : p ∈ (g.cluster before word).parameters) :
    p ∈ before.map (·.parameter) ∨ ∃ c, g.short? c = some p := by
  induction word generalizing before with
  | nil => exact .inl h
  | cons c rest ih =>
    cases hc : g.short? c with
    | none =>
      -- an unknown letter ends the reading with what was read before it
      obtain ⟨ending, hended⟩ := cluster_cons_of_short?_eq_none hc before rest
      rw [hended] at h
      exact .inl h
    | some first =>
      have hfirst := cluster_cons_of_short? hc before rest
      split at hfirst
      · rw [hfirst] at h
        rcases ih h with hmem | hshort
        · rw [List.map_append, List.mem_append] at hmem
          rcases hmem with hmem | hmem
          · exact .inl hmem
          · exact .inr ⟨c, List.mem_singleton.1 hmem ▸ hc⟩
        · exact .inr hshort
      · -- a parameter that takes a value takes the rest of the word, so no further letter is read
        rw [hfirst, List.mem_append] at h
        rcases h with hmem | hmem
        · exact .inl hmem
        · exact .inr ⟨c, List.mem_singleton.1 hmem ▸ hc⟩

theorem short?_of_mem_option (hlong : ∀ name, word ≠ '-' :: '-' :: name)
    (h : p ∈ (g.option word).parameters) : ∃ c, g.short? c = some p := by
  rw [option_of_short hlong] at h
  rcases short?_of_mem_cluster h with hmem | hshort
  · cases hmem
  · exact hshort

theorem mem_named_of_mem_option (hsense : ∀ os ending, g.option word ≠ .ended os ending)
    (h : p ∈ (g.option word).parameters) : p ∈ g.named := by
  by_cases hlong : ∃ name, word = '-' :: '-' :: name
  · obtain ⟨name, rfl⟩ := hlong
    rw [option_long] at hsense h
    obtain ⟨p', hp', hparameters, -⟩ := exists_parameters_longOption hsense
    rw [hparameters] at h
    exact List.mem_singleton.1 h ▸ hp'
  · obtain ⟨c, hc⟩ := short?_of_mem_option (not_exists.1 hlong) h
    exact (mem_named_of_short? hc).1

end Options

/-! ## What has been found -/

section Found

variable {p : Parameter} {word : Text} {given : List Given}

theorem takeWhile_eq_iff {name : Text} (hname : '=' ∉ name) :
    word.takeWhile (· != '=') = name ↔ word = name ∨ name ++ ['='] <+: word := by
  have hplain : ∀ c ∈ name, (c != '=') = true := fun c hc =>
    bne_iff_ne.2 fun heq => hname (heq ▸ hc)
  constructor
  · rintro rfl
    have hcut : word.takeWhile (· != '=') ++ word.dropWhile (· != '=') = word :=
      List.takeWhile_append_dropWhile
    cases htail : word.dropWhile (· != '=') with
    | nil =>
      rw [htail, List.append_nil] at hcut
      exact .inl hcut.symm
    | cons c value =>
      -- what follows the name can only begin with the sign at which the word was cut
      have hc := List.head?_dropWhile_not (· != '=') word
      rw [htail] at hc
      obtain rfl : c = '=' := by simpa using hc
      rw [htail] at hcut
      exact .inr ⟨value, by rw [List.append_assoc]; exact hcut⟩
  · rintro (rfl | ⟨value, rfl⟩)
    · exact List.takeWhile_eq_self_iff.2 hplain
    · rw [List.append_assoc, List.takeWhile_append_of_pos hplain]
      exact List.append_nil name

/-- A long option for which only a switch could stand is the switch of that name. -/
theorem name_eq_iff_of_switch {n : Text} (hplain : '=' ∉ n)
    (hname : p.name = word.takeWhile (· != '=')) (hword : p.takes = .nothing → p.name = word)
    (hswitch : p.name = n → p.takes = .nothing) : p.name = n ↔ word = n := by
  constructor
  · intro heq
    exact (hword (hswitch heq)).symm.trans heq
  · rintro rfl
    exact hname.trans ((takeWhile_eq_iff hplain).2 (.inl rfl))

/-- What a scan has found of some parameters, in order, is what the options name of them. -/
theorem Finds.filterMap_eq (h : g.Finds words s) {β : Type} {f : Parameter → Option β}
    (hf : f g.operand = none) : s.occurrences.filterMap (fun o => f o.parameter)
      = (optionWords words).flatMap fun word => (g.option word).parameters.filterMap f := by
  have hoperand (ps : List Parameter) :
      (ps.filter (· != g.operand)).filterMap f = ps.filterMap f := by
    rw [List.filterMap_filter]
    refine List.filterMap_congr fun p _ => ?_
    by_cases hp : p = g.operand
    · simp [hp, hf]
    · simp [hp]
  have hfound := congrArg (List.filterMap f) h.found
  rwa [parametersIn, hoperand, hoperand, List.filterMap_map, List.filterMap_flatMap] at hfound

theorem Finds.mem_named (h : g.Finds words s) {o : Occurrence} (ho : o ∈ s.occurrences) :
    o.parameter ∈ g.operand :: g.named := by
  by_cases hoperand : o.parameter = g.operand
  · exact hoperand ▸ List.mem_cons_self
  · have hmem : o.parameter ∈ g.parametersIn s :=
      List.mem_filter.2 ⟨List.mem_map_of_mem ho, bne_iff_ne.2 hoperand⟩
    rw [h.found, List.mem_filter, List.mem_flatMap] at hmem
    obtain ⟨⟨word, hword, hp⟩, -⟩ := hmem
    exact List.mem_cons_of_mem _ (mem_named_of_mem_option (h.sensible word hword) hp)

theorem Finds.exists_occurrence_iff (h : g.Finds words s) {name : Text}
    (hname : g.operand.name ≠ name) : (∃ o ∈ s.occurrences, o.parameter.name = name)
      ↔ ∃ word ∈ optionWords words, ∃ p ∈ (g.option word).parameters, p.name = name := by
  have hfound (p : Parameter) (hp : p.name = name) : (∃ o ∈ s.occurrences, o.parameter = p)
      ↔ ∃ word ∈ optionWords words, p ∈ (g.option word).parameters := by
    have hne : (p != g.operand) = true := bne_iff_ne.2 fun heq => hname (heq ▸ hp)
    have hmem := congrArg (p ∈ ·) h.found
    simpa [parametersIn, hne] using hmem
  constructor
  · rintro ⟨o, ho, hp⟩
    obtain ⟨word, hword, hmem⟩ := (hfound o.parameter hp).1 ⟨o, ho, rfl⟩
    exact ⟨word, hword, o.parameter, hmem, hp⟩
  · rintro ⟨word, hword, p, hmem, hp⟩
    obtain ⟨o, ho, rfl⟩ := (hfound p hp).2 ⟨word, hword, hmem⟩
    exact ⟨o, ho, hp⟩

/-- A command line that is read has been scanned to its end, and all that was found is settled. -/
theorem finds_of_read (h : g.read words = .ok given) :
    ∃ s, g.Finds words s ∧ settle [] s.occurrences .complete = .ok given := by
  unfold Grammar.read at h
  have hending := ending_of_settle h
  exact ⟨g.scan true words, g.finds_scan true words hending, hending ▸ h⟩

end Found

end Grammar

end MessageCompiler.Command
