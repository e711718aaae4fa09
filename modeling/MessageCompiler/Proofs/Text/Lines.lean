import Mathlib.Data.List.Basic
import Mathlib.Data.List.TakeDrop
import Mathlib.Data.List.TakeWhile
import MessageCompiler.Text.Basic

/-!
# Cutting a text into lines and joining lines

`Text.splitWhen` is the library's `List.splitOnP`, so that what is known of the one holds of the
other. From there:

* **`lines_unlines`, `lines_intercalate`**: the lines of joined lines are those lines, as long as
  none of them has a line feed of its own.
* **`not_mem_of_mem_lines`**: no line has a line feed.
* **`between?`**: a text that has to start and end with given texts, and what stands between.
* **`decimal?`**: a number read back from its decimal digits.
-/

namespace MessageCompiler.Text

/-- The test whether texts are equal is a lawful one, which decides whether a text is among others. -/
instance : LawfulBEq Text := inferInstance

/-! ## Splitting -/

/-- Splitting is the library's splitting: the two recursions agree at every step. -/
theorem splitWhen_eq_splitOnP {α : Type} (p : α → Bool) (t : List α) :
    splitWhen p t = t.splitOnP p := by
  induction t with
  | nil => rfl
  | cons a rest ih =>
    rw [List.splitOnP_cons_eq_if_modifyHead, splitWhen, ih]
    split
    · rfl
    · cases h : rest.splitOnP p with
      | nil => exact absurd h (List.splitOnP_ne_nil p rest)
      | cons piece pieces => rfl

theorem splitWhen_ne_nil {α : Type} (p : α → Bool) (t : List α) : splitWhen p t ≠ [] := by
  rw [splitWhen_eq_splitOnP]
  exact List.splitOnP_ne_nil p t

theorem splitWhen_eq_singleton {α : Type} {p : α → Bool} {t : List α}
    (h : ∀ a ∈ t, p a = false) : splitWhen p t = [t] := by
  rw [splitWhen_eq_splitOnP]
  exact List.splitOnP_eq_singleton h

/-- **Splitting goes through a separator.** Everything about lines and words follows from this one
equation. -/
theorem splitWhen_append_cons {α : Type} {p : α → Bool} {sep : α} (hsep : p sep = true)
    (s t : List α) : splitWhen p (s ++ sep :: t) = splitWhen p s ++ splitWhen p t := by
  simp only [splitWhen_eq_splitOnP]
  exact List.splitOnP_append_cons s t hsep

theorem splitWhen_intercalate {α : Type} {p : α → Bool} {sep : α} (hsep : p sep = true)
    {pieces : List (List α)} (hne : pieces ≠ [])
    (h : ∀ piece ∈ pieces, ∀ a ∈ piece, p a = false) :
    splitWhen p ([sep].intercalate pieces) = pieces := by
  induction pieces with
  | nil => exact absurd rfl hne
  | cons piece rest ih =>
    have hpiece : splitWhen p piece = [piece] :=
      splitWhen_eq_singleton (h piece List.mem_cons_self)
    cases rest with
    | nil => simpa using hpiece
    | cons next rest =>
      have hrest := ih (List.cons_ne_nil _ _) fun q hq => h q (List.mem_cons_of_mem _ hq)
      rw [List.intercalate_cons_cons, List.append_assoc, List.singleton_append,
        splitWhen_append_cons hsep, hpiece, hrest]
      rfl

theorem of_mem_splitWhen {α : Type} {p : α → Bool} {t piece : List α} (h : piece ∈ splitWhen p t) :
    ∀ a ∈ piece, a ∈ t ∧ p a = false := by
  induction t generalizing piece with
  | nil =>
    have : piece = [] := by simpa [splitWhen] using h
    simp [this]
  | cons a rest ih =>
    have hmore : ∀ {other : List α}, other ∈ splitWhen p rest →
        ∀ b ∈ other, b ∈ a :: rest ∧ p b = false := fun hother b hb =>
      ⟨List.mem_cons_of_mem _ (ih hother b hb).1, (ih hother b hb).2⟩
    rw [splitWhen] at h
    split at h
    · rcases List.mem_cons.1 h with rfl | h
      · simp
      · exact hmore h
    · next ha =>
      -- the head belongs to the first piece of the rest
      cases hs : splitWhen p rest with
      | nil => exact absurd hs (splitWhen_ne_nil p rest)
      | cons first others =>
        rw [hs] at h
        rcases List.mem_cons.1 h with rfl | h
        · intro b hb
          rcases List.mem_cons.1 hb with rfl | hb
          · exact ⟨List.mem_cons_self, Bool.eq_false_iff.2 ha⟩
          · exact hmore (hs ▸ List.mem_cons_self) b hb
        · exact hmore (hs ▸ List.mem_cons_of_mem _ h)

theorem eq_false_of_mem_splitWhen {α : Type} {p : α → Bool} {t piece : List α}
    (h : piece ∈ splitWhen p t) : ∀ a ∈ piece, p a = false :=
  fun a ha => (of_mem_splitWhen h a ha).2

theorem mem_of_mem_splitWhen {α : Type} {p : α → Bool} {t piece : List α}
    (h : piece ∈ splitWhen p t) : ∀ a ∈ piece, a ∈ t :=
  fun a ha => (of_mem_splitWhen h a ha).1

theorem exists_mem_splitWhen {α : Type} {p : α → Bool} {t : List α} {a : α} (ha : a ∈ t)
    (hp : p a = false) : ∃ piece ∈ splitWhen p t, a ∈ piece := by
  obtain ⟨before, after, rfl⟩ := List.append_of_mem ha
  induction before with
  | nil =>
    rw [List.nil_append, splitWhen, hp, if_neg Bool.false_ne_true]
    cases splitWhen p after with
    | nil => exact ⟨[a], List.mem_cons_self, List.mem_cons_self⟩
    | cons first others => exact ⟨a :: first, List.mem_cons_self, List.mem_cons_self⟩
  | cons b rest ih =>
    obtain ⟨piece, hpiece, hmem⟩ := ih (by simp)
    rw [List.cons_append, splitWhen]
    split
    · exact ⟨piece, List.mem_cons_of_mem _ hpiece, hmem⟩
    · cases hs : splitWhen p (rest ++ a :: after) with
      | nil => exact absurd hs (splitWhen_ne_nil p _)
      | cons first others =>
        -- the piece is another one, or the first one, which has one element more now
        rw [hs] at hpiece
        rcases List.mem_cons.1 hpiece with rfl | hpiece
        · exact ⟨b :: piece, List.mem_cons_self, List.mem_cons_of_mem _ hmem⟩
        · exact ⟨piece, List.mem_cons_of_mem _ hpiece, hmem⟩

/-! ## Lines -/

theorem not_mem_of_mem_lines {t line : Text} (h : line ∈ lines t) : '\n' ∉ line := by
  intro hmem
  have := eq_false_of_mem_splitWhen h '\n' hmem
  simp at this

theorem lines_append_lf (s t : Text) : lines (s ++ '\n' :: t) = lines s ++ lines t :=
  splitWhen_append_cons rfl s t

theorem lines_eq_singleton {t : Text} (h : '\n' ∉ t) : lines t = [t] :=
  splitWhen_eq_singleton fun _ hc => beq_false_of_ne fun heq => h (heq ▸ hc)

/-- What is written before the first line feed of a text starts its first line. -/
theorem exists_lines_append {s : Text} (h : '\n' ∉ s) (t : Text) :
    ∃ first rest, lines (s ++ t) = (s ++ first) :: rest := by
  by_cases hlf : '\n' ∈ t
  · obtain ⟨first, rest, rfl, hfirst⟩ := List.eq_append_cons_of_mem hlf
    have hline : lines (s ++ first) = [s ++ first] :=
      lines_eq_singleton (by simpa using ⟨h, hfirst⟩)
    refine ⟨first, lines rest, ?_⟩
    rw [← List.append_assoc, lines_append_lf, hline, List.singleton_append]
  · exact ⟨t, [], lines_eq_singleton (by simpa using ⟨h, hlf⟩)⟩

theorem lines_unlines_append {ls : List Text} (h : ∀ l ∈ ls, '\n' ∉ l) (t : Text) :
    lines (unlines ls ++ t) = ls ++ lines t := by
  induction ls with
  | nil => rfl
  | cons l rest ih =>
    have hl : lines l = [l] := lines_eq_singleton (h l List.mem_cons_self)
    have hcut : unlines (l :: rest) ++ t = l ++ '\n' :: (unlines rest ++ t) := by simp [unlines]
    rw [hcut, lines_append_lf, hl, ih fun l' hl' => h l' (List.mem_cons_of_mem _ hl')]
    rfl

/-- **Closed lines are read back**, and after the last line feed there is nothing. -/
theorem lines_unlines {ls : List Text} (h : ∀ l ∈ ls, '\n' ∉ l) : lines (unlines ls) = ls ++ [[]] := by
  have hlines := lines_unlines_append h []
  rwa [List.append_nil] at hlines

/-- **Joined lines are read back.** -/
theorem lines_intercalate {ls : List Text} (hne : ls ≠ []) (h : ∀ l ∈ ls, '\n' ∉ l) :
    lines (['\n'].intercalate ls) = ls :=
  splitWhen_intercalate rfl hne fun l hl _ hc =>
    beq_false_of_ne fun heq => h l hl (heq ▸ hc)

/-- The lines of a text in which every line is closed by a line feed. -/
def closedLines? (t : Text) : Option (List Text) :=
  if (lines t).getLast? = some [] then some (lines t).dropLast else none

/-- **Closed lines are read back as they were.** -/
theorem closedLines?_unlines {ls : List Text} (h : ∀ l ∈ ls, '\n' ∉ l) :
    closedLines? (unlines ls) = some ls := by
  rw [closedLines?, lines_unlines h, List.getLast?_concat, List.dropLast_concat]
  exact if_pos rfl

/-- Pieces that each follow a separator are found again, after the empty one before the first. -/
theorem splitWhen_flatMap_cons {α β : Type} {p : α → Bool} {sep : α} (hsep : p sep = true)
    (piece : β → List α) {bs : List β} (h : ∀ b ∈ bs, ∀ a ∈ piece b, p a = false) :
    splitWhen p (bs.flatMap fun b => sep :: piece b) = [] :: bs.map piece := by
  induction bs with
  | nil => rfl
  | cons b rest ih =>
    have hb : splitWhen p (piece b) = [piece b] := splitWhen_eq_singleton (h b List.mem_cons_self)
    have hrest := ih fun b' hb' => h b' (List.mem_cons_of_mem _ hb')
    rw [List.flatMap_cons, List.cons_append, splitWhen, if_pos hsep]
    -- what follows the first piece is nothing, or starts with the next separator
    cases rest with
    | nil => simpa using hb
    | cons next others =>
      rw [List.flatMap_cons, List.cons_append] at hrest ⊢
      rw [splitWhen, if_pos hsep] at hrest
      rw [splitWhen_append_cons hsep, hb, (List.cons.inj hrest).2]
      rfl

/-! ## The last separator -/

section SplitLast

variable {α : Type} [BEq α] [LawfulBEq α] {sep : α}

theorem splitLast_eq_none {t : List α} (h : sep ∉ t) : splitLast sep t = none := by
  have hall : ∀ a ∈ t.reverse, (a != sep) = true := fun a ha => by
    simpa using fun heq : a = sep => h (heq ▸ List.mem_reverse.1 ha)
  rw [splitLast, List.span_eq_takeWhile_dropWhile]
  rw [List.dropWhile_eq_nil_iff.2 hall]

/-- **A text is cut at its last separator.** -/
theorem splitLast_append_cons {last : List α} (h : sep ∉ last) (initial : List α) :
    splitLast sep (initial ++ sep :: last) = some (initial, last) := by
  have hall : ∀ a ∈ last.reverse, (a != sep) = true := fun a ha => by
    simpa using fun heq : a = sep => h (heq ▸ List.mem_reverse.1 ha)
  have hrev : (initial ++ sep :: last).reverse = last.reverse ++ sep :: initial.reverse := by simp
  rw [splitLast, List.span_eq_takeWhile_dropWhile, hrev, List.takeWhile_append_of_pos hall,
    List.dropWhile_append_of_pos hall]
  simp

omit [BEq α] [LawfulBEq α] in
theorem exists_eq_append_cons_of_mem {t : List α} (h : sep ∈ t) :
    ∃ initial last, t = initial ++ sep :: last ∧ sep ∉ last := by
  obtain ⟨last, initial, ht, hlast⟩ := List.eq_append_cons_of_mem (List.mem_reverse.2 h)
  refine ⟨initial.reverse, last.reverse, ?_, by simpa using hlast⟩
  rw [← List.reverse_reverse t, ht]
  simp

theorem eq_of_splitLast_eq_some {t initial last : List α}
    (h : splitLast sep t = some (initial, last)) : t = initial ++ sep :: last := by
  by_cases hsep : sep ∈ t
  · obtain ⟨initial', last', rfl, hlast⟩ := exists_eq_append_cons_of_mem hsep
    rw [splitLast_append_cons hlast] at h
    obtain ⟨rfl, rfl⟩ := Prod.mk.inj (Option.some.inj h)
    rfl
  · rw [splitLast_eq_none hsep] at h
    cases h

end SplitLast

/-! ## What stands between two texts -/

/-- What is left of a text that starts with `opening` and ends with `closing`. -/
def between? (opening closing t : Text) : Option Text :=
  (t.dropPrefix? opening).bind (·.dropSuffix? closing)

theorem between?_eq_some_iff {opening closing t middle : Text} :
    between? opening closing t = some middle ↔ t = opening ++ middle ++ closing := by
  simp only [between?, Option.bind_eq_some_iff, List.dropPrefix?_eq_some_iff,
    List.dropSuffix?_eq_some_iff, beq_iff_eq]
  constructor
  · rintro ⟨rest, ⟨_, rfl, rfl⟩, _, rfl, rfl⟩
    rw [List.append_assoc]
  · rintro rfl
    exact ⟨middle ++ closing, ⟨opening, List.append_assoc .., rfl⟩, closing, rfl, rfl⟩

theorem between?_eq_none {opening closing t : Text} (h : ¬ opening <+: t) :
    between? opening closing t = none := by
  refine Option.eq_none_iff_forall_not_mem.2 fun middle hmiddle => h ?_
  have ht := between?_eq_some_iff.1 hmiddle
  exact ⟨middle ++ closing, by rw [ht, List.append_assoc]⟩

@[simp] theorem between?_append (opening closing middle : Text) :
    between? opening closing (opening ++ middle ++ closing) = some middle :=
  between?_eq_some_iff.2 rfl

/-! ## Numbers -/

/-- The number whose decimal digits a text is. -/
def decimal? (t : Text) : Option Nat :=
  let n := Nat.ofDigitChars 10 t 0
  if decimal n = t then some n else none

@[simp] theorem decimal?_decimal (n : Nat) : decimal? (decimal n) = some n := by
  have h : Nat.ofDigitChars 10 (decimal n) 0 = n := Nat.ofDigitChars_ten_toDigits
  rw [decimal?, h]
  exact if_pos rfl

end MessageCompiler.Text
