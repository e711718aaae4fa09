import Mathlib.Data.List.DropRight
import MessageCompiler.Definition.Line
import MessageCompiler.Proofs.Text.Lines

/-!
# Words, blanks and what counts of a line

A *word* is a text that is not empty and has no blank. The words of a text are cut out by its
blanks; this module says how they are found from the left, which is how a line is classified, and
what trimming leaves.

* **`words_eq_cons`**: a text that starts with no blank starts with its first word.
* **`words_intercalate`**: words joined by single spaces are found again.
* **`significant_eq_self`**: a line without blanks around it and without a final semicolon counts
  as it stands.
* **`headNotBlank_significant`**: what counts of a line starts with no blank.
* **`isSpaced_intercalate`**: what is made of words and spaces has no other blank.
-/

namespace MessageCompiler.Text

/-- The text has no blank. -/
def IsSolid (t : Text) : Prop := ∀ c ∈ t, isBlank c = false

/-- The text is a word: not empty, and without a blank. -/
structure IsWord (t : Text) : Prop where
  ne_nil : t ≠ []
  solid : IsSolid t

-- the characters of the text are looked at, not all characters there are
instance : DecidablePred IsSolid := fun t => List.decidableBAll (isBlank · = false) t

instance : DecidablePred IsWord := fun t =>
  decidable_of_iff (t ≠ [] ∧ IsSolid t) ⟨fun h => ⟨h.1, h.2⟩, fun h => ⟨h.ne_nil, h.solid⟩⟩

/-- The text does not start with a blank. -/
def HeadNotBlank (t : Text) : Prop := ∀ c, t.head? = some c → isBlank c = false

theorem IsSolid.not_mem {t : Text} (h : IsSolid t) {c : Char} (hc : isBlank c = true) :
    c ∉ t := fun hmem => by
  rw [h c hmem] at hc
  exact Bool.false_ne_true hc

/-! ## Blanks that are spaces -/

/-- The only blanks of the text are spaces. -/
def IsSpaced (t : Text) : Prop := ∀ c ∈ t, isBlank c = true → c = ' '

instance : DecidablePred IsSpaced := fun t =>
  List.decidableBAll (fun c => isBlank c = true → c = ' ') t

theorem IsSpaced.not_mem {t : Text} (h : IsSpaced t) {c : Char} (hblank : isBlank c = true)
    (hspace : c ≠ ' ') : c ∉ t := fun hc => hspace (h c hc hblank)

theorem IsSolid.isSpaced {t : Text} (h : IsSolid t) : IsSpaced t := fun _ hc hblank =>
  absurd hc (h.not_mem hblank)

theorem IsSpaced.append {s t : Text} (hs : IsSpaced s) (ht : IsSpaced t) : IsSpaced (s ++ t) :=
  fun c hc hblank => (List.mem_append.1 hc).elim (hs c · hblank) (ht c · hblank)

theorem isSpaced_intercalate {ws : List Text} (h : ∀ w ∈ ws, IsSolid w) :
    IsSpaced ([' '].intercalate ws) := by
  induction ws with
  | nil => exact fun _ hc => absurd hc List.not_mem_nil
  | cons w rest ih =>
    have hw := (h w List.mem_cons_self).isSpaced
    have hrest := ih fun v hv => h v (List.mem_cons_of_mem _ hv)
    cases rest with
    | nil =>
      rw [List.intercalate_singleton]
      exact hw
    | cons v others =>
      rw [List.intercalate_cons_cons]
      exact (hw.append (by decide)).append hrest

/-! ## Words -/

theorem words_append_blank {c : Char} (hc : isBlank c = true) (s t : Text) :
    words (s ++ c :: t) = words s ++ words t := by
  rw [words, splitWhen_append_cons hc, List.filter_append]
  rfl

theorem words_cons_blank {c : Char} (hc : isBlank c = true) (t : Text) :
    words (c :: t) = words t :=
  words_append_blank hc [] t

theorem words_eq_singleton {w : Text} (hw : IsWord w) : words w = [w] := by
  have hne : w.isEmpty = false := by simpa using hw.ne_nil
  rw [words, splitWhen_eq_singleton hw.solid]
  simp [hne]

theorem isWord_of_mem_words {t w : Text} (h : w ∈ words t) : IsWord w := by
  obtain ⟨hmem, hne⟩ := List.mem_filter.1 h
  exact ⟨by simpa using hne, eq_false_of_mem_splitWhen hmem⟩

@[simp] theorem words_trimStart (t : Text) : words (trimStart t) = words t := by
  induction t with
  | nil => rfl
  | cons c rest ih =>
    rw [trimStart, List.dropWhile_cons]
    split
    · next hc => rw [words_cons_blank hc, ← ih, trimStart]
    · rfl

theorem headNotBlank_trimStart (t : Text) : HeadNotBlank (trimStart t) := by
  intro c hc
  have := List.head?_dropWhile_not isBlank t
  rw [show t.dropWhile isBlank = trimStart t from rfl, hc] at this
  simpa using this

/-- **A text that starts with no blank starts with its first word.** -/
theorem words_eq_cons {t : Text} (hne : t ≠ []) (hhead : HeadNotBlank t) :
    words t = t.takeWhile (!isBlank ·) :: words (t.dropWhile (!isBlank ·)) := by
  have hsolid : IsSolid (t.takeWhile (!isBlank ·)) := fun c hc => by
    simpa using List.mem_takeWhile_imp hc
  have hfirst : IsWord (t.takeWhile (!isBlank ·)) := by
    refine ⟨?_, hsolid⟩
    obtain ⟨c, rest, rfl⟩ := List.exists_cons_of_ne_nil hne
    simp [hhead c rfl]
  have hcut : t = t.takeWhile (!isBlank ·) ++ t.dropWhile (!isBlank ·) :=
    List.takeWhile_append_dropWhile.symm
  -- what follows the first word is nothing or starts with a blank, where the words are cut
  cases hrest : t.dropWhile (!isBlank ·) with
  | nil =>
    rw [hrest, List.append_nil] at hcut
    rw [← hcut, words_eq_singleton (hcut ▸ hfirst)]
    rfl
  | cons c rest =>
    have hc : isBlank c = true := by
      have := List.head?_dropWhile_not (!isBlank ·) t
      rw [hrest] at this
      simpa using this
    conv_lhs => rw [hcut, hrest]
    rw [words_append_blank hc, words_eq_singleton hfirst, words_cons_blank hc]
    rfl

theorem trimStart_eq_nil_iff {t : Text} : trimStart t = [] ↔ words t = [] := by
  constructor
  · intro h
    rw [← words_trimStart, h]
    rfl
  · intro h
    by_contra hne
    rw [← words_trimStart, words_eq_cons hne (headNotBlank_trimStart t)] at h
    exact List.cons_ne_nil _ _ h

/-- **Words joined by single spaces are found again.** -/
theorem words_intercalate {ws : List Text} (h : ∀ w ∈ ws, IsWord w) :
    words ([' '].intercalate ws) = ws := by
  cases ws with
  | nil => rfl
  | cons w rest =>
    have hsolid : ∀ v ∈ w :: rest, IsSolid v := fun v hv => (h v hv).solid
    have hne : ∀ v ∈ w :: rest, (!v.isEmpty) = true := fun v hv => by
      simpa using (h v hv).ne_nil
    rw [words, splitWhen_intercalate rfl (List.cons_ne_nil _ _) hsolid, List.filter_eq_self]
    exact hne

theorem headNotBlank_intercalate {ws : List Text} (h : ∀ w ∈ ws, IsWord w) :
    HeadNotBlank ([' '].intercalate ws) := by
  intro c hc
  cases ws with
  | nil => exact absurd hc (by simp)
  | cons w rest =>
    have hw := h w List.mem_cons_self
    obtain ⟨first, others, rfl⟩ := List.exists_cons_of_ne_nil hw.ne_nil
    have hfirst : c = first := by
      cases rest with
      | nil => simpa [eq_comm] using hc
      | cons v rest =>
        rw [List.intercalate_cons_cons] at hc
        simpa [eq_comm] using hc
    rw [hfirst]
    exact hw.solid first List.mem_cons_self

theorem isBlank_of_getLast?_intercalate {ws : List Text} (h : ∀ w ∈ ws, IsWord w) {c : Char}
    (hc : ([' '].intercalate ws).getLast? = some c) : isBlank c = false := by
  induction ws with
  | nil => exact absurd hc (by simp)
  | cons w rest ih =>
    have hw := h w List.mem_cons_self
    have hrest : ∀ v ∈ rest, IsWord v := fun v hv => h v (List.mem_cons_of_mem _ hv)
    cases rest with
    | nil =>
      rw [List.intercalate_singleton] at hc
      exact hw.solid c (List.mem_of_getLast? hc)
    | cons v others =>
      have hne : [' '].intercalate (v :: others) ≠ [] := fun heq => by
        have hwords := words_intercalate hrest
        rw [heq] at hwords
        exact List.cons_ne_nil _ _ hwords.symm
      rw [List.intercalate_cons_cons, List.getLast?_append_of_ne_nil _ hne] at hc
      exact ih hrest hc

/-! ## Trimming -/

theorem dropEndWhile_eq_self {p : Char → Bool} {t : Text}
    (h : ∀ c, t.getLast? = some c → p c = false) : dropEndWhile p t = t := by
  refine List.rdropWhile_eq_self_iff.2 fun hne => ?_
  have := h _ (List.getLast?_eq_some_getLast hne)
  simp [this]

theorem dropEndWhile_isPrefix (p : Char → Bool) (t : Text) : dropEndWhile p t <+: t :=
  List.rdropWhile_prefix p t

theorem trimStart_eq_self {t : Text} (h : HeadNotBlank t) : trimStart t = t := by
  cases t with
  | nil => rfl
  | cons c rest => simp [trimStart, h c rfl]

theorem trim_eq_self {t : Text} (hhead : HeadNotBlank t)
    (hlast : ∀ c, t.getLast? = some c → isBlank c = false) : trim t = t := by
  rw [trim, trimStart_eq_self hhead, trimEnd, dropEndWhile_eq_self hlast]

theorem mem_of_mem_trim {t : Text} {c : Char} (h : c ∈ trim t) : c ∈ t :=
  (List.dropWhile_suffix isBlank).subset ((dropEndWhile_isPrefix isBlank _).subset h)

theorem HeadNotBlank.of_isPrefix {s t : Text} (h : HeadNotBlank t) (hs : s <+: t) :
    HeadNotBlank s := by
  intro c hc
  obtain ⟨rest, rfl⟩ := hs
  exact h c (by rw [List.head?_append, hc]; rfl)

end MessageCompiler.Text

namespace MessageCompiler.Line

open Text

theorem mem_of_mem_significant {raw : Text} {c : Char} (h : c ∈ significant raw) : c ∈ raw :=
  mem_of_mem_trim <| (dropEndWhile_isPrefix _ _).subset <| (dropEndWhile_isPrefix _ _).subset h

/-- **What counts of a line starts with no blank**, since only its end is cut after trimming. -/
theorem headNotBlank_significant (raw : Text) : HeadNotBlank (significant raw) :=
  (headNotBlank_trimStart raw).of_isPrefix <|
    ((dropEndWhile_isPrefix _ _).trans (dropEndWhile_isPrefix _ _)).trans (dropEndWhile_isPrefix _ _)

/-- **A line without blanks around it and without a final semicolon counts as it stands.** -/
theorem significant_eq_self {raw : Text} (hhead : HeadNotBlank raw)
    (hlast : ∀ c, raw.getLast? = some c → isBlank c = false ∧ c ≠ ';') :
    significant raw = raw := by
  have hblank : ∀ c, raw.getLast? = some c → isBlank c = false := fun c hc => (hlast c hc).1
  have hsemi : ∀ c, raw.getLast? = some c → (c == ';') = false := fun c hc =>
    beq_false_of_ne (hlast c hc).2
  rw [significant, trim_eq_self hhead hblank, dropEndWhile_eq_self hsemi, trimEnd,
    dropEndWhile_eq_self hblank]

end MessageCompiler.Line
