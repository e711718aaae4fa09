import MessageCompiler.Definition.Name
import MessageCompiler.Proofs.Text.Lines
import MessageCompiler.Proofs.Text.UpperCase

/-!
# The laws of message names

What a text is made into as the name of a message, told by its spaces, letter by letter, and by what
is made of it when it is taken for a text again.

* **`pascal_append_space`**: the parts on either side of a space make their names apart.
* **`mem_of_mem_pascal`**: a name has no space, and no slash that the text does not have.
* **`pascal_eq_nil_iff`**: which texts make no name.
* **`pascal_eq_flatten`**: what each letter becomes, given the one before it.
* **`pascal_pascal`**: a name makes itself.
-/

namespace MessageCompiler.Text

/-! ## Spaces -/

/-- **The parts on either side of a space make their names apart.** -/
theorem pascal_append_space (s t : Text) : pascal (s ++ ' ' :: t) = pascal s ++ pascal t := by
  simp only [pascal]
  rw [splitWhen_append_cons (by decide), List.flatMap_append]

theorem pascal_of_not_mem {t : Text} (h : ' ' ∉ t) : pascal t = upperFirst t := by
  have hword : splitWhen (· == ' ') t = [t] :=
    splitWhen_eq_singleton fun c hc => beq_false_of_ne fun heq => h (heq ▸ hc)
  rw [pascal, hword, List.flatMap_singleton]

/-- **What comes before the letters is in a name only if it is in the text, and is no space.** -/
theorem mem_of_mem_pascal {t : Text} {d : Char} (hd : d.toNat ≠ 0 ∧ d.toNat ≤ 0x40)
    (h : d ∈ pascal t) : d ∈ t ∧ d ≠ ' ' := by
  obtain ⟨word, hword, hmem⟩ := List.mem_flatMap.1 h
  have hin : d ∈ word := by
    cases word with
    | nil => cases hmem
    | cons c rest =>
      rcases List.mem_append.1 hmem with hupper | hrest
      · exact eq_of_mem_upper hd hupper ▸ List.mem_cons_self
      · exact List.mem_cons_of_mem _ hrest
  obtain ⟨htext, hspace⟩ := of_mem_splitWhen hword d hin
  exact ⟨htext, by simpa using hspace⟩

theorem space_not_mem_pascal (t : Text) : ' ' ∉ pascal t :=
  fun h => (mem_of_mem_pascal (by decide) h).2 rfl

theorem slash_not_mem_pascal {t : Text} (h : '/' ∉ t) : '/' ∉ pascal t :=
  fun hmem => h (mem_of_mem_pascal (by decide) hmem).1

/-! ## Empty names -/

theorem upperFirst_eq_nil_iff {t : Text} : upperFirst t = [] ↔ t = [] := by
  cases t with
  | nil => exact iff_of_true rfl rfl
  | cons c rest =>
    have hne : upper c ++ rest ≠ [] := fun h => upper_ne_nil c (List.append_eq_nil_iff.1 h).1
    exact iff_of_false hne (List.cons_ne_nil c rest)

/-- **A text gives no name exactly if it is empty or spaces only.** -/
theorem pascal_eq_nil_iff {t : Text} : pascal t = [] ↔ ∀ c ∈ t, c = ' ' := by
  rw [pascal, List.flatMap_eq_nil_iff]
  simp only [upperFirst_eq_nil_iff]
  constructor
  · intro h c hc
    by_contra hne
    obtain ⟨piece, hpiece, hmem⟩ :=
      exists_mem_splitWhen (p := (· == ' ')) hc (beq_false_of_ne hne)
    rw [h piece hpiece] at hmem
    cases hmem
  · intro h piece hpiece
    refine List.eq_nil_iff_forall_not_mem.2 fun c hc => ?_
    have hfalse : (c == ' ') = false := eq_false_of_mem_splitWhen hpiece c hc
    rw [h c (mem_of_mem_splitWhen hpiece c hc)] at hfalse
    cases hfalse

/-! ## Letter by letter -/

/-- What a character becomes in a name, given the one before it. -/
def spelled (previous c : Char) : Text :=
  if c = ' ' then [] else if previous = ' ' then upper c else [c]

/-- The letters below a character: after a space they begin with a word, else with the rest of one. -/
theorem flatten_spelled (previous : Char) (t : Text) :
    (List.zipWith spelled (previous :: t) t).flatten
      = match splitWhen (· == ' ') t with
        | [] => []
        | first :: others =>
          (if previous = ' ' then upperFirst first else first) ++ others.flatMap upperFirst := by
  induction t generalizing previous with
  | nil => simp [splitWhen, upperFirst]
  | cons c rest ih =>
    rw [List.zipWith_cons_cons, List.flatten_cons, ih c, splitWhen]
    cases hwords : splitWhen (· == ' ') rest with
    | nil => exact absurd hwords (splitWhen_ne_nil _ rest)
    | cons first others =>
      by_cases hc : c = ' '
      · simp [hc, spelled, upperFirst]
      · by_cases hprevious : previous = ' '
        · simp [hc, hprevious, spelled, upperFirst]
        · simp [hc, hprevious, spelled]

/-- **Letter by letter**: a space becomes nothing, the first character of a word its upper case, and
every other one itself. -/
theorem pascal_eq_flatten (t : Text) :
    pascal t = (List.zipWith spelled (' ' :: t) t).flatten := by
  rw [flatten_spelled, pascal]
  cases hwords : splitWhen (· == ' ') t with
  | nil => rfl
  | cons first others =>
    dsimp only
    rw [if_pos rfl, List.flatMap_cons]

theorem tails_sublist_pascal (t : Text) :
    ((splitWhen (· == ' ') t).flatMap List.tail).Sublist (pascal t) := by
  rw [pascal]
  induction splitWhen (· == ' ') t with
  | nil => exact .slnil
  | cons word rest ih =>
    have hword : word.tail.Sublist (upperFirst word) := by
      cases word with
      | nil => exact .slnil
      | cons c others => exact List.sublist_append_right _ _
    exact hword.append ih

/-! ## Names of names -/

theorem exists_of_head?_pascal {t : Text} {d : Char} (h : (pascal t).head? = some d) :
    ∃ c, (upper c).head? = some d := by
  rw [pascal] at h
  generalize splitWhen (· == ' ') t = words at h
  induction words with
  | nil => cases h
  | cons word rest ih =>
    cases word with
    | nil => exact ih h
    | cons c others =>
      obtain ⟨first, more, hupper⟩ := List.exists_cons_of_ne_nil (upper_ne_nil c)
      refine ⟨c, ?_⟩
      rw [List.flatMap_cons, upperFirst, hupper] at h
      rw [hupper]
      exact h

/-- **A name makes itself.** -/
theorem pascal_pascal (t : Text) : pascal (pascal t) = pascal t := by
  rw [pascal_of_not_mem (space_not_mem_pascal t)]
  cases hname : pascal t with
  | nil => rfl
  | cons d rest =>
    obtain ⟨c, hc⟩ := exists_of_head?_pascal (congrArg List.head? hname)
    rw [upperFirst, upper_of_head?_upper hc, List.singleton_append]

/-- **The laws of names.** Texts on either side of a space make their names apart. A name has no space,
it is empty only if it is made of nothing but spaces, each letter becomes what its place in its word
asks for, so that those behind the first one of a word stay as they are, in their order, and a name
makes itself. -/
theorem pascal_laws :
    (∀ s t, pascal (s ++ ' ' :: t) = pascal s ++ pascal t)
      ∧ ∀ t, ' ' ∉ pascal t
        ∧ (pascal t = [] ↔ ∀ c ∈ t, c = ' ')
        ∧ pascal t = (List.zipWith spelled (' ' :: t) t).flatten
        ∧ ((splitWhen (· == ' ') t).flatMap List.tail).Sublist (pascal t)
        ∧ pascal (pascal t) = pascal t :=
  ⟨pascal_append_space, fun t => ⟨space_not_mem_pascal t, pascal_eq_nil_iff, pascal_eq_flatten t,
    tails_sublist_pascal t, pascal_pascal t⟩⟩

/-- A letter may become two, and only the first one of a word does. -/
example : pascal "ßa  ßb".toList = "SSaSSb".toList := by decide +kernel

end MessageCompiler.Text
