import MessageCompiler.Command.Line
import MessageCompiler.Proofs.Command.Occurrences

/-!
# Switches and their opposites

What a build is asked for is told here by the words of its command line, without a scan. Only words
that look like options count, up to the mark that no more options come; of a switch and its opposite
the last one counts, whatever stands before, between and after them.

* **`isGiven_settle`**: of a pair, what is given once all occurrences are settled is the last of them.
* **`HasPair.filterMap_option`**: the words that stand for a switch of a pair.
* **`choice_of_read`**: the choice that a pair makes is that of the last word that stands for it.
* **`BuildOptions.choices_ofWords`**: what is asked for by a command line that is read.
-/

namespace MessageCompiler.Command

/-! ## What is given -/

section Settling

variable {given given' : List Given} {o : Occurrence} {os : List Occurrence} {ending : Ending}

/-- A parameter is given once it is settled, and until its opposite is. -/
theorem isGiven_settleOne (h : settleOne given o = .ok given') (name : Text) :
    isGiven given' name = (isGiven given name && o.parameter.opposite != some name
      || o.parameter.name == name) := by
  obtain ⟨-, rfl⟩ := settleOne_eq_ok h
  have hkept : (given.any fun g => o.parameter.opposite != some g.name && g.name == name)
      = (given.any (·.name == name) && o.parameter.opposite != some name) := by
    rw [Bool.eq_iff_iff]
    simp only [List.any_eq_true, Bool.and_eq_true, beq_iff_eq]
    constructor
    · rintro ⟨g, hg, hopposite, rfl⟩
      exact ⟨⟨g, hg, rfl⟩, hopposite⟩
    · rintro ⟨⟨g, hg, rfl⟩, hopposite⟩
      exact ⟨g, hg, hopposite, rfl⟩
  unfold isGiven
  rw [List.any_append, List.any_filter, hkept, List.any_cons, List.any_nil, Bool.or_false]

/-- Two switches that take back each other, as far as a parameter is concerned. -/
structure Opposed (a b : Text) (p : Parameter) : Prop where
  opposite_eq_right_iff : p.opposite = some b ↔ p.name = a
  opposite_eq_left_iff : p.opposite = some a ↔ p.name = b

instance (a b : Text) : DecidablePred (Opposed a b) := fun p =>
  decidable_of_iff ((p.opposite = some b ↔ p.name = a) ∧ (p.opposite = some a ↔ p.name = b))
    ⟨fun h => ⟨h.1, h.2⟩, fun h => ⟨h.1, h.2⟩⟩

/-- What the name of a parameter says of a choice between two switches. -/
def sideOf (a b name : Text) : Option Bool :=
  if name = a then some true else if name = b then some false else none

theorem isGiven_settleOne_of_opposed {a b : Text} (hne : a ≠ b) (h : settleOne given o = .ok given')
    (ho : Opposed a b o.parameter) :
    isGiven given' a = (sideOf a b o.parameter.name).getD (isGiven given a)
      ∧ isGiven given' b = ((sideOf a b o.parameter.name).map (!·)).getD (isGiven given b) := by
  rw [isGiven_settleOne h, isGiven_settleOne h, sideOf]
  by_cases ha : o.parameter.name = a
  · have hb : o.parameter.name ≠ b := ha ▸ hne
    have hopposite := ho.opposite_eq_right_iff.2 ha
    simp [ha, hne, hopposite]
  · by_cases hb : o.parameter.name = b
    · have hopposite := ho.opposite_eq_left_iff.2 hb
      simp [hb, hne.symm, hopposite]
    · have hleft : (o.parameter.opposite != some a) = true :=
        bne_iff_ne.2 (mt ho.opposite_eq_left_iff.1 hb)
      have hright : (o.parameter.opposite != some b) = true :=
        bne_iff_ne.2 (mt ho.opposite_eq_right_iff.1 ha)
      simp [ha, hb, hleft, hright]

/-- **Of two switches that take back each other the last one is given.** -/
theorem isGiven_settle {a b : Text} (hne : a ≠ b) (h : settle given os ending = .ok given')
    (hos : ∀ o ∈ os, Opposed a b o.parameter) :
    let last := (os.filterMap fun o => sideOf a b o.parameter.name).getLast?
    isGiven given' a = last.getD (isGiven given a)
      ∧ isGiven given' b = (last.map (!·)).getD (isGiven given b) := by
  induction os generalizing given with
  | nil =>
    obtain ⟨-, rfl⟩ := settle_nil h
    exact ⟨rfl, rfl⟩
  | cons o rest ih =>
    obtain ⟨next, hnext, hrest⟩ := settle_cons h
    obtain ⟨hleft, hright⟩ := ih hrest fun o ho => hos o (List.mem_cons_of_mem _ ho)
    obtain ⟨hleft', hright'⟩ := isGiven_settleOne_of_opposed hne hnext (hos o List.mem_cons_self)
    rw [List.filterMap_cons]
    cases hside : sideOf a b o.parameter.name with
    | none =>
      rw [hside] at hleft' hright'
      exact ⟨hleft.trans (by rw [hleft']; rfl), hright.trans (by rw [hright']; rfl)⟩
    | some side =>
      rw [hside] at hleft' hright'
      dsimp only
      -- the last occurrence counts, and this one only if none follows
      rw [List.getLast?_cons, hleft, hright, hleft', hright']
      cases (rest.filterMap fun o => sideOf a b o.parameter.name).getLast? <;> exact ⟨rfl, rfl⟩

theorem isGiven_settle_of_lasting {name : Text} (h : settle given os ending = .ok given')
    (hos : ∀ o ∈ os, o.parameter.opposite ≠ some name) :
    isGiven given' name = (isGiven given name || os.any (·.parameter.name == name)) := by
  induction os generalizing given with
  | nil =>
    obtain ⟨-, rfl⟩ := settle_nil h
    exact (Bool.or_false _).symm
  | cons o rest ih =>
    obtain ⟨next, hnext, hrest⟩ := settle_cons h
    have hlasting : (o.parameter.opposite != some name) = true := by
      simpa using hos o List.mem_cons_self
    rw [ih hrest fun o ho => hos o (List.mem_cons_of_mem _ ho), isGiven_settleOne hnext, hlasting,
      Bool.and_true, List.any_cons, Bool.or_assoc]

end Settling

/-! ## Pairs of switches -/

namespace Grammar

section Pairs

variable {g : Grammar} {words : List Text} {s : Scan} {word : Text}

/-- The grammar has two switches that take back each other, with long names only. -/
structure HasPair (g : Grammar) (a b : Text) : Prop where
  ne : a ≠ b
  plain_left : '=' ∉ a
  plain_right : '=' ∉ b
  opposed : ∀ p ∈ g.operand :: g.named, Opposed a b p
  switch : ∀ p ∈ g.named, p.name = a ∨ p.name = b → p.takes = .nothing ∧ p.short = none
  operand : g.operand.name ≠ a ∧ g.operand.name ≠ b

variable {a b : Text}

/-- **A word stands for one of a pair of switches exactly if it is its name after two dashes.** -/
theorem HasPair.filterMap_option (h : g.HasPair a b)
    (hsense : ∀ os ending, g.option word ≠ .ended os ending) :
    (g.option word).parameters.filterMap (fun p => sideOf a b p.name)
      = (sideOf ("--".toList ++ a) ("--".toList ++ b) word).toList := by
  by_cases hlong : ∃ name, word = '-' :: '-' :: name
  · obtain ⟨name, rfl⟩ := hlong
    rw [option_long] at hsense
    obtain ⟨p, hp, hparameters, hname, hswitch⟩ := exists_parameters_longOption hsense
    have hname_iff {n : Text} (hn : n = a ∨ n = b) (hplain : '=' ∉ n) : p.name = n ↔ name = n :=
      name_eq_iff_of_switch hplain hname hswitch fun heq => (h.switch p hp (heq ▸ hn)).1
    have hside : sideOf a b p.name = sideOf a b name := by
      simp only [sideOf, hname_iff (.inl rfl) h.plain_left, hname_iff (.inr rfl) h.plain_right]
    have hword : sideOf ("--".toList ++ a) ("--".toList ++ b) ('-' :: '-' :: name)
        = sideOf a b name := by
      simp [sideOf]
    rw [option_long, hparameters, hword, ← hside]
    cases hp : sideOf a b p.name <;> simp [hp]
  · -- letters do not give the two names, which have long forms only
    have hshort := not_exists.1 hlong
    have hword : sideOf ("--".toList ++ a) ("--".toList ++ b) word = none := by
      have hleft : word ≠ "--".toList ++ a := hshort a
      have hright : word ≠ "--".toList ++ b := hshort b
      rw [sideOf, if_neg hleft, if_neg hright]
    rw [hword, Option.toList_none, List.filterMap_eq_nil_iff]
    intro p hp
    obtain ⟨c, hc⟩ := short?_of_mem_option hshort hp
    obtain ⟨hnamed, hpshort⟩ := mem_named_of_short? hc
    have hname : ¬ (p.name = a ∨ p.name = b) := fun hname => by
      rw [(h.switch p hnamed hname).2] at hpshort
      cases hpshort
    rw [sideOf, if_neg fun heq => hname (.inl heq), if_neg fun heq => hname (.inr heq)]

theorem Finds.filterMap_sideOf (h : g.Finds words s) (hpair : g.HasPair a b) :
    s.occurrences.filterMap (fun o => sideOf a b o.parameter.name)
      = (optionWords words).filterMap (sideOf ("--".toList ++ a) ("--".toList ++ b)) := by
  have hoperand : sideOf a b g.operand.name = none := by
    rw [sideOf, if_neg hpair.operand.1, if_neg hpair.operand.2]
  rw [h.filterMap_eq (f := fun p => sideOf a b p.name) hoperand,
    List.flatMap_congr fun word hword => hpair.filterMap_option (h.sensible word hword),
    ← List.filterMap_eq_flatMap_toList]

end Pairs

end Grammar

/-! ## The words of a build -/

/-- The last of a switch and its opposite among the words, and what it says. -/
def lastSwitch (name : Text) (words : List Text) : Option Bool :=
  ((optionWords words).filterMap
    (sideOf ("--".toList ++ name) ("--".toList ++ ("no-".toList ++ name)))).getLast?

section Build

variable {words : List Text} {given : List Given}

theorem hasPair_buildGrammar {name : Text}
    (h : name ∈ ["recursive".toList, "csharp".toList, "python".toList]) :
    buildGrammar.HasPair name ("no-".toList ++ name) where
  ne := by revert name; decide
  plain_left := by revert name; decide
  plain_right := by revert name; decide
  opposed := by revert name; decide
  switch := by revert name; decide
  operand := by revert name; decide

/-- **The choice that a pair of switches makes is that of the last of them.** -/
theorem choice_of_read {g : Grammar} {name : Text}
    (hpair : g.HasPair name ("no-".toList ++ name)) (h : g.read words = .ok given) :
    choice given name = lastSwitch name words := by
  obtain ⟨s, hs, hsettle⟩ := Grammar.finds_of_read h
  have hlast := isGiven_settle hpair.ne hsettle fun o ho => hpair.opposed _ (hs.mem_named ho)
  rw [hs.filterMap_sideOf hpair] at hlast
  obtain ⟨hleft, hright⟩ := hlast
  rw [choice, hleft, hright, lastSwitch]
  cases ((optionWords words).filterMap _).getLast? with
  | none => rfl
  | some side => cases side <;> rfl

/-- Asks for every file to be announced. -/
def AsksVerbose (word : Text) : Prop := word = "--verbose".toList ∨ "-v".toList <+: word

/-- Asks for a cap on the folders at work at once. -/
def AsksCap (word : Text) : Prop :=
  word = "--max-concurrent".toList ∨ "--max-concurrent=".toList <+: word

instance : DecidablePred AsksVerbose := fun _ => inferInstanceAs (Decidable (_ ∨ _))

instance : DecidablePred AsksCap := fun _ => inferInstanceAs (Decidable (_ ∨ _))

theorem exists_of_isOption {word : Text} (h : isOption word = true) :
    ∃ c rest, word = '-' :: c :: rest := by
  unfold isOption at h
  split at h
  · exact ⟨_, _, rfl⟩
  · cases h

/-- The only short switch of a build comes first in its word, or after itself. -/
theorem exists_verbose_cluster_iff {c : Char} {rest : Text}
    (hsense : ∀ os ending, buildGrammar.cluster [] (c :: rest) ≠ .ended os ending) :
    (∃ p ∈ (buildGrammar.cluster [] (c :: rest)).parameters, p.name = "verbose".toList)
      ↔ c = 'v' := by
  -- the only letter that takes no value is that of `verbose`, so it stands first or not at all
  have hshorts : ∀ p ∈ buildGrammar.named, p.short.isSome → (p.takes = .nothing ↔ p.short = some 'v')
      ∧ (p.name = "verbose".toList ↔ p.short = some 'v') := by decide
  cases hc : buildGrammar.short? c with
  | none =>
    obtain ⟨ending, hended⟩ := Grammar.cluster_cons_of_short?_eq_none hc [] rest
    exact absurd hended (hsense _ _)
  | some p =>
    obtain ⟨hnamed, hshort⟩ := Grammar.mem_named_of_short? hc
    obtain ⟨htakes, hname⟩ := hshorts p hnamed (by rw [hshort]; rfl)
    have hfirst := Grammar.cluster_cons_of_short? hc [] rest
    have hletter : p.short = some 'v' ↔ c = 'v' := by rw [hshort, Option.some_inj]
    rw [hletter] at htakes hname
    by_cases hv : c = 'v'
    · rw [if_pos (htakes.2 hv)] at hfirst
      refine iff_of_true ⟨p, ?_, hname.2 hv⟩ hv
      rw [hfirst]
      exact Grammar.mem_cluster_of_mem List.mem_cons_self
    · rw [if_neg (mt htakes.1 hv), List.map_nil, List.nil_append] at hfirst
      rw [hfirst]
      simpa using hname

theorem exists_verbose_iff {word : Text} (hword : isOption word = true)
    (hsense : ∀ os ending, buildGrammar.option word ≠ .ended os ending) :
    (∃ p ∈ (buildGrammar.option word).parameters, p.name = "verbose".toList)
      ↔ AsksVerbose word := by
  obtain ⟨c, rest, rfl⟩ := exists_of_isOption hword
  by_cases hc : c = '-'
  · subst hc
    rw [Grammar.option_long] at hsense ⊢
    obtain ⟨p, hp, hparameters, hname, hswitch⟩ := Grammar.exists_parameters_longOption hsense
    have htakes : ∀ p ∈ buildGrammar.named, p.name = "verbose".toList → p.takes = .nothing := by
      decide
    have hrest : p.name = "verbose".toList ↔ rest = "verbose".toList :=
      Grammar.name_eq_iff_of_switch (by decide) hname hswitch (htakes p hp)
    rw [hparameters]
    simpa [AsksVerbose] using hrest
  · have hlong : ∀ name, '-' :: c :: rest ≠ '-' :: '-' :: name := by simp [hc]
    rw [Grammar.option_of_short hlong] at hsense ⊢
    rw [List.drop_one, List.tail_cons] at hsense ⊢
    rw [exists_verbose_cluster_iff hsense]
    simp [AsksVerbose, hc, eq_comm]

theorem exists_cap_iff {word : Text} (hword : isOption word = true)
    (hsense : ∀ os ending, buildGrammar.option word ≠ .ended os ending) :
    (∃ p ∈ (buildGrammar.option word).parameters, p.name = "max-concurrent".toList)
      ↔ AsksCap word := by
  obtain ⟨c, rest, rfl⟩ := exists_of_isOption hword
  by_cases hc : c = '-'
  · subst hc
    rw [Grammar.option_long] at hsense ⊢
    obtain ⟨p, -, hparameters, hname, -⟩ := Grammar.exists_parameters_longOption hsense
    have hrest : p.name = "max-concurrent".toList
        ↔ rest = "max-concurrent".toList ∨ "max-concurrent=".toList <+: rest := by
      rw [hname]
      exact Grammar.takeWhile_eq_iff (by decide)
    rw [hparameters]
    simpa [AsksCap] using hrest
  · -- the cap has no letter
    have hlong : ∀ name, '-' :: c :: rest ≠ '-' :: '-' :: name := by simp [hc]
    have hnot : ¬ AsksCap ('-' :: c :: rest) := by simp [AsksCap, hc, eq_comm]
    refine iff_of_false ?_ hnot
    rintro ⟨p, hp, hname⟩
    obtain ⟨letter, hletter⟩ := Grammar.short?_of_mem_option hlong hp
    obtain ⟨hnamed, hshort⟩ := Grammar.mem_named_of_short? hletter
    have hnone : ∀ p ∈ buildGrammar.named, p.name = "max-concurrent".toList → p.short = none := by
      decide
    rw [hnone p hnamed hname] at hshort
    cases hshort

theorem isGiven_iff_of_read {name : Text} {Asks : Text → Prop}
    (h : buildGrammar.read words = .ok given)
    (hlasting : ∀ p ∈ buildGrammar.operand :: buildGrammar.named, p.opposite ≠ some name)
    (hoperand : buildGrammar.operand.name ≠ name)
    (hasks : ∀ word, isOption word = true →
      (∀ os ending, buildGrammar.option word ≠ .ended os ending) →
      ((∃ p ∈ (buildGrammar.option word).parameters, p.name = name) ↔ Asks word)) :
    isGiven given name = true ↔ ∃ word ∈ optionWords words, Asks word := by
  obtain ⟨s, hs, hsettle⟩ := Grammar.finds_of_read h
  rw [isGiven_settle_of_lasting hsettle fun o ho => hlasting _ (hs.mem_named ho)]
  have hfound := hs.exists_occurrence_iff hoperand
  have hwords : (∃ o ∈ s.occurrences, o.parameter.name = name)
      ↔ ∃ word ∈ optionWords words, Asks word := by
    refine hfound.trans (exists_congr fun word => and_congr_right fun hword => ?_)
    exact hasks word (List.mem_filter.1 hword).2 (hs.sensible word hword)
  rw [← hwords]
  simp [isGiven]

theorem isSome_cap_iff_of_read (h : buildGrammar.read words = .ok given) :
    (BuildOptions.ofGiven given).cap.isSome = true
      ↔ isGiven given "max-concurrent".toList = true := by
  obtain ⟨s, hs, hsettle⟩ := Grammar.finds_of_read h
  have htakes : ∀ p ∈ buildGrammar.operand :: buildGrammar.named,
      p.name = "max-concurrent".toList → p.takes = .count := by decide
  have hcheck := check_of_mem_settle hsettle (by simp) fun o ho => htakes _ (hs.mem_named ho)
  dsimp only [BuildOptions.ofGiven, valuesOf]
  rw [isGiven, List.any_eq_true]
  cases hcaps : given.filter (·.name == "max-concurrent".toList) with
  | nil => simpa using hcaps
  | cons g rest =>
    obtain ⟨hg, hname⟩ := List.mem_filter.1 (hcaps ▸ List.mem_cons_self : g ∈ given.filter _)
    have hvalue := hcheck g hg (beq_iff_eq.1 hname)
    refine iff_of_true ?_ ⟨g, hg, hname⟩
    by_contra hnone
    exact absurd hvalue (by simpa [Takes.check] using hnone)

theorem ofWords_build (words : List Text) :
    Command.ofWords ("msg".toList :: "build".toList :: words)
      = (BuildOptions.ofWords words).map .build := by
  simp [Command.ofWords, next, namesAfter, isOption]

/-- **What a command line says of a build**, word by word: of a switch and its opposite the last one
counts, whatever stands around it, and what no word speaks of stays as it is configured. -/
theorem BuildOptions.choices_ofWords {o : BuildOptions}
    (h : Command.ofWords ("msg".toList :: "build".toList :: words) = .ok (.build o)) :
    o.isRecursive = (lastSwitch "recursive".toList words).getD true
      ∧ ∀ config : Config,
        (o.apply config).targets.csharp
            = (lastSwitch "csharp".toList words).getD config.targets.csharp
          ∧ (o.apply config).targets.python
            = (lastSwitch "python".toList words).getD config.targets.python
          ∧ (o.apply config).verbose
            = (if ∃ word ∈ optionWords words, AsksVerbose word then true else config.verbose)
          ∧ (o.apply config).cap
            = if ∃ word ∈ optionWords words, AsksCap word then o.cap else config.cap := by
  rw [ofWords_build, BuildOptions.ofWords] at h
  cases hread : buildGrammar.read words with
  | error usage => rw [hread] at h; cases h
  | ok given =>
    rw [hread] at h
    obtain rfl : ofGiven given = o := Command.build.inj (Except.ok.inj h)
    -- each switch with an opposite is settled by the last of the two, whatever stands between
    have hchoice (name : Text)
        (hname : name ∈ ["recursive".toList, "csharp".toList, "python".toList]) :
        choice given name = lastSwitch name words :=
      choice_of_read (hasPair_buildGrammar hname) hread
    have hverbose : isGiven given "verbose".toList = true ↔ _ :=
      isGiven_iff_of_read hread (by decide) (by decide) fun _ => exists_verbose_iff
    have hcap : (ofGiven given).cap.isSome = true ↔ _ :=
      (isSome_cap_iff_of_read hread).trans
        (isGiven_iff_of_read hread (by decide) (by decide) fun _ => exists_cap_iff)
    refine ⟨?_, fun config => ⟨?_, ?_, ?_, ?_⟩⟩
    · rw [← hchoice "recursive".toList (by decide)]
      rfl
    · rw [← hchoice "csharp".toList (by decide)]
      rfl
    · rw [← hchoice "python".toList (by decide)]
      rfl
    · simp only [← hverbose, apply, ofGiven]
      cases isGiven given "verbose".toList <;> rfl
    · simp only [← hcap, apply]
      cases (ofGiven given).cap <;> rfl

/-- Switches among options with values, and one after the mark that no more options come, which is a
path. -/
def interleavedWords : List Text :=
  ["--python", "--no-recursive", "-vo", "out", "--no-python", "--recursive", "--", "--no-csharp"].map
    String.toList

/-- What these words ask for. -/
def interleavedBuild : BuildOptions where
  path := .ofText "--no-csharp".toList
  output := some (.ofText "out".toList)
  settings := none
  recursive := some true
  csharp := none
  python := some false
  verbose := true
  cap := none

theorem BuildOptions.choices_interleaved :
    Command.ofWords ("msg".toList :: "build".toList :: interleavedWords)
        = .ok (.build interleavedBuild)
      ∧ interleavedBuild.isRecursive = (lastSwitch "recursive".toList interleavedWords).getD true
      ∧ lastSwitch "recursive".toList interleavedWords = some true := by
  have h : Command.ofWords ("msg".toList :: "build".toList :: interleavedWords)
      = .ok (.build interleavedBuild) := by decide +kernel
  exact ⟨h, (BuildOptions.choices_ofWords h).1, by decide⟩

end Build

end MessageCompiler.Command
