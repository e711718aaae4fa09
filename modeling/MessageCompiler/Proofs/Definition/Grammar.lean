import MessageCompiler.Proofs.Definition.Layout

/-!
# The grammar of source lines

The lines of a definition are told here by a grammar that cuts nothing: a text is *made of* words if it
consists of them with blanks around and between them (`Text.MadeOf`), and what counts of a line *says*
something by the way it begins or by the words it is made of (`Line.Says`).

* **`Text.words_eq_iff`**: the words of a text are those that it is made of.
* **`Line.classify_eq_iff`**: a line is taken for what it says, and it says one thing.
* **`Line.scan_append_lf`**: the lines of two texts, one above the other.
* **`Line.scan_grammar`**: what the lines of a text are.
-/

namespace MessageCompiler

open Text

/-! ## Words -/

namespace Text

/-- The text consists of these words, in this order, and of blanks: some between one word and the next,
and perhaps some around them. -/
inductive MadeOf : List Text → Text → Prop where
  | blank {gap : Text} (hgap : AllBlank gap) : MadeOf [] gap
  | word {gap w rest : Text} {ws : List Text} (hgap : AllBlank gap) (hw : IsWord w)
      (hend : ∀ c, rest.head? = some c → isBlank c = true) (hrest : MadeOf ws rest) :
      MadeOf (w :: ws) (gap ++ w ++ rest)

theorem MadeOf.words_eq {ws : List Text} {t : Text} (h : MadeOf ws t) : words t = ws := by
  induction h with
  | blank hgap => exact words_append_of_allBlank hgap []
  | @word gap w rest ws hgap hw hend _ ih =>
    rw [List.append_assoc, words_blank_append hgap]
    cases rest with
    | nil => rw [List.append_nil, words_eq_singleton hw, ← ih]; rfl
    | cons c rest =>
      have hc : isBlank c = true := hend c rfl
      rw [words_append_blank hc, words_eq_singleton hw, ← ih, words_cons_blank hc]
      rfl

theorem exists_madeOf (t : Text) : ∃ ws, MadeOf ws t := by
  induction h : t.length using Nat.strong_induction_on generalizing t with
  | _ n ih =>
    obtain ⟨gap, hgap, hcut⟩ : ∃ gap, AllBlank gap ∧ gap ++ trimStart t = t :=
      ⟨t.takeWhile isBlank, fun _ => List.mem_takeWhile_imp, List.takeWhile_append_dropWhile⟩
    cases hrest : trimStart t with
    | nil =>
      rw [hrest, List.append_nil] at hcut
      exact ⟨[], hcut ▸ .blank hgap⟩
    | cons c others =>
      -- the first word goes up to the next blank, and the rest of the text is shorter
      have hc : isBlank c = false := headNotBlank_trimStart t c (by rw [hrest]; rfl)
      have hw : IsWord (c :: others.takeWhile (!isBlank ·)) := by
        refine ⟨List.cons_ne_nil _ _, fun c' hc' => ?_⟩
        rcases List.mem_cons.1 hc' with rfl | hc'
        · exact hc
        · simpa using List.mem_takeWhile_imp hc'
      have hend : ∀ c', (others.dropWhile (!isBlank ·)).head? = some c' → isBlank c' = true := by
        intro c' hc'
        have hnot := List.head?_dropWhile_not (!isBlank ·) others
        rw [hc'] at hnot
        simpa using hnot
      have hall : gap ++ (c :: others.takeWhile (!isBlank ·)) ++ others.dropWhile (!isBlank ·) = t := by
        rw [List.append_assoc, List.cons_append, List.takeWhile_append_dropWhile, ← hrest, hcut]
      have hshort : (others.dropWhile (!isBlank ·)).length < n := by
        have hlength := congrArg List.length hall
        simp only [List.length_append, List.length_cons] at hlength
        omega
      obtain ⟨ws, hws⟩ := ih _ hshort _ rfl
      exact ⟨_, hall ▸ MadeOf.word hgap hw hend hws⟩

/-- **The words of a text are those that it is made of.** -/
theorem words_eq_iff {ws : List Text} {t : Text} : words t = ws ↔ MadeOf ws t := by
  refine ⟨fun h => ?_, MadeOf.words_eq⟩
  obtain ⟨ws', hws'⟩ := exists_madeOf t
  rwa [← h, hws'.words_eq]

theorem intercalate_lines (t : Text) : ['\n'].intercalate (lines t) = t := by
  rw [lines, splitWhen_eq_splitOnP]
  exact List.intercalate_splitOn '\n'

theorem length_lines (t : Text) : (lines t).length = t.count '\n' + 1 := by
  induction h : t.count '\n' generalizing t with
  | zero =>
    rw [lines_eq_singleton (List.count_eq_zero.1 h)]
    rfl
  | succ n ih =>
    have hmem : '\n' ∈ t := List.count_pos_iff.1 (h ▸ Nat.succ_pos n)
    obtain ⟨first, rest, rfl, hfirst⟩ := List.eq_append_cons_of_mem hmem
    rw [List.count_append, List.count_eq_zero.2 hfirst, Nat.zero_add, List.count_cons_self,
      Nat.add_left_inj] at h
    rw [lines_append_lf, lines_eq_singleton hfirst, List.length_append, ih rest h]
    exact Nat.add_comm 1 (n + 1)

end Text

/-- The parts of a line, but for the text of a comment. -/
def Content.parts : Content → List Text
  | .directive d => [d.argument]
  | .field type name => [type, name]
  | _ => []

namespace Line

/-! ## What a line says -/

/-- The line begins as a comment does. -/
def IsMarked (line : Text) : Prop := ['#'] <+: line ∨ ['/', '/'] <+: line

instance : DecidablePred IsMarked := fun _ => inferInstanceAs (Decidable (_ ∨ _))

/-- What counts of a line says this. -/
inductive Says : Text → Content → Prop where
  | hash (text : Text) : Says ('#' :: text) (.comment (trim text))
  | slashes (text : Text) : Says ('/' :: '/' :: text) (.comment (trim text))
  | malformed {line w : Text} (hmark : ¬ IsMarked line) (h : MadeOf [w] line) : Says line .malformed
  | kind {line w : Text} {ws : List Text} (hmark : ¬ IsMarked line)
      (h : MadeOf ("type".toList :: w :: ws) line) :
      Says line (.directive (.kind ([' '].intercalate (w :: ws))))
  | home {line w : Text} {ws : List Text} (hmark : ¬ IsMarked line)
      (h : MadeOf ("namespace".toList :: w :: ws) line) :
      Says line (.directive (.home ([' '].intercalate (w :: ws))))
  | uses {line w : Text} {ws : List Text} (hmark : ¬ IsMarked line)
      (h : MadeOf ("using".toList :: w :: ws) line) :
      Says line (.directive (.uses ([' '].intercalate (w :: ws))))
  | field {line type name : Text} {ws : List Text} (hmark : ¬ IsMarked line)
      (htype : type ∉ Directive.heads) (h : MadeOf (type :: name :: ws) line) :
      Says line (.field type name)

variable {line : Text} {content : Content}

theorem comment?_eq_none_iff_not_isMarked : comment? line = none ↔ ¬ IsMarked line := by
  rw [Option.eq_none_iff_forall_ne_some, IsMarked, not_or]
  simp only [ne_eq, comment?_eq_some_iff, not_or, forall_and]
  constructor
  · rintro ⟨hhash, hslashes⟩
    exact ⟨fun ⟨text, h⟩ => hhash text h.symm, fun ⟨text, h⟩ => hslashes text h.symm⟩
  · rintro ⟨hhash, hslashes⟩
    exact ⟨fun text h => hhash ⟨text, h.symm⟩, fun text h => hslashes ⟨text, h.symm⟩⟩

/-- A line that is no comment says what the words say that it is made of. -/
theorem says_ofWords (hmark : ¬ IsMarked line) {head : Text} {rest : List Text}
    (h : MadeOf (head :: rest) line) : Says line (Content.ofWords (head :: rest)) := by
  cases rest with
  | nil => exact .malformed hmark h
  | cons name others =>
    rw [Content.ofWords]
    split
    · next htype => exact .kind hmark (htype ▸ h)
    split
    · next hnamespace => exact .home hmark (hnamespace ▸ h)
    split
    · next husing => exact .uses hmark (husing ▸ h)
    · next htype hnamespace husing =>
      refine .field hmark ?_ h
      simp only [Directive.heads, List.mem_cons, List.not_mem_nil, or_false, not_or]
      exact ⟨htype, hnamespace, husing⟩

/-- **A line is taken for what it says**, and so it says one thing. -/
theorem classify_eq_iff (hne : line ≠ []) (hhead : HeadNotBlank line) :
    classify line = content ↔ Says line content := by
  constructor
  · rintro rfl
    cases hcomment : comment? line with
    | some text =>
      rw [classify, hcomment]
      rcases comment?_eq_some_iff.1 hcomment with rfl | rfl
      · exact .hash text
      · exact .slashes text
    | none =>
      have hmark := comment?_eq_none_iff_not_isMarked.1 hcomment
      have hwords := words_eq_cons hne hhead
      rw [classify_eq_ofWords hne hhead hcomment, hwords]
      exact says_ofWords hmark (words_eq_iff.1 hwords)
  · -- a line that is no comment is told by its words, so one equation serves the last four forms
    have hwords {ws : List Text} (hmark : ¬ IsMarked line) (h : MadeOf ws line) :
        classify line = Content.ofWords ws := by
      rw [classify_eq_ofWords hne hhead (comment?_eq_none_iff_not_isMarked.2 hmark), h.words_eq]
    intro h
    cases h with
    | hash text => rfl
    | slashes text => rfl
    | malformed hmark h => exact hwords hmark h
    | kind hmark h => exact hwords hmark h
    | home hmark h => exact hwords hmark h
    | uses hmark h => exact hwords hmark h
    | field hmark htype h => rw [hwords hmark h, Content.ofWords_of_not_mem_heads htype]

theorem not_says_nil : ¬ Says [] content := by
  have hwords {ws : List Text} (h : MadeOf ws []) : ws = [] := h.words_eq.symm
  rintro (_ | _ | ⟨-, h⟩ | ⟨-, h⟩ | ⟨-, h⟩ | ⟨-, h⟩ | ⟨-, -, h⟩)
  all_goals cases hwords h

/-- **Of a raw line there is a record exactly if something of it counts**, and it says what that says. -/
theorem ofRaw?_eq_some_iff {number : Nat} {raw : Text} {l : Line} : ofRaw? number raw = some l
    ↔ l.number = number ∧ Says (significant raw) l.content := by
  rw [ofRaw?]
  by_cases hne : significant raw = []
  · simp [hne, not_says_nil]
  · have hempty : (significant raw).isEmpty = false := by simpa using hne
    simp only [hempty, Bool.false_eq_true, if_false, Option.some.injEq,
      ← classify_eq_iff hne (headNotBlank_significant raw)]
    constructor
    · rintro rfl
      exact ⟨rfl, rfl⟩
    · rintro ⟨rfl, hcontent⟩
      rw [hcontent]

/-! ## The two ends of a branch -/

theorem isBlank_of_getLast?_significant {raw : Text} {c : Char}
    (hc : (significant raw).getLast? = some c) : isBlank c = false :=
  eq_false_of_getLast?_dropEndWhile hc

/-- **What counts of a line goes on after its first blank**: there is another word behind it, which says
what the line says if it is no comment. -/
theorem classify_of_cut {raw head rest : Text} {c : Char} (hmark : ¬ IsMarked (significant raw))
    (hcut : significant raw = head ++ c :: rest) (hhead : IsSolid head) (hc : isBlank c = true) :
    classify (significant raw) = ofWords head (trimStart rest)
      ∧ trimStart rest ≠ [] ∧ words (trimStart rest) ≠ [] := by
  have hsolid : ∀ c' ∈ head, (!isBlank c') = true := fun c' hc' => by simpa using hhead c' hc'
  have hne : trimStart rest ≠ [] := by
    intro hnil
    have hblank : ∀ c' ∈ c :: rest, isBlank c' = true := by
      simpa [hc] using List.dropWhile_eq_nil_iff.1 hnil
    -- a significant line ends in no blank, so something stands after the blank of the cut
    have hlast : (significant raw).getLast? = some ((c :: rest).getLast (List.cons_ne_nil _ _)) := by
      rw [hcut, List.getLast?_append_of_ne_nil _ (List.cons_ne_nil _ _), List.getLast?_eq_some_getLast]
    have hfalse := isBlank_of_getLast?_significant hlast
    rw [hblank _ (List.getLast_mem _)] at hfalse
    cases hfalse
  have htake : (significant raw).takeWhile (!isBlank ·) = head := by
    rw [hcut, List.takeWhile_append_of_pos hsolid, List.takeWhile_cons_of_neg (by simp [hc]),
      List.append_nil]
  have hdrop : (significant raw).dropWhile (!isBlank ·) = c :: rest := by
    rw [hcut, List.dropWhile_append_of_pos hsolid, List.dropWhile_cons_of_neg (by simp [hc])]
  have hrest : trimStart (c :: rest) = trimStart rest := List.dropWhile_cons_of_pos hc
  refine ⟨?_, hne, fun hwords => hne ?_⟩
  · rw [classify, comment?_eq_none_iff_not_isMarked.2 hmark, hdrop, htake, hrest]
    simp [hne]
  · rwa [words_trimStart, ← trimStart_eq_nil_iff] at hwords

theorem classify_of_isSolid {raw : Text} (hmark : ¬ IsMarked (significant raw))
    (h : IsSolid (significant raw)) : classify (significant raw) = .malformed := by
  rw [classify, comment?_eq_none_iff_not_isMarked.2 hmark]
  have hrest : (significant raw).dropWhile (!isBlank ·) = [] :=
    List.dropWhile_eq_nil_iff.2 fun c hc => by simpa using h c hc
  simp [hrest, trimStart]

/-! ## Numbers -/

theorem scanFrom_add (number n : Nat) (raws : List Text) :
    scanFrom (number + n) raws = (scanFrom number raws).map (renumber (· + n)) := by
  induction raws generalizing number with
  | nil => rfl
  | cons raw rest ih =>
    rw [scanFrom, scanFrom, List.map_append, ← ih, Nat.add_right_comm, ofRaw?_eq_map, ofRaw?_eq_map]
    cases Content.ofRaw? raw <;> rfl

/-- **Lines below a text are scanned as they are alone**, and count on from the lines of the text. -/
theorem scan_append_lf (s t : Text) :
    scan (s ++ '\n' :: t) = scan s ++ (scan t).map (renumber (· + (lines s).length)) := by
  rw [scan, lines_append_lf, scanFrom_append, scanFrom_add]
  rfl

theorem ne_nil_of_mem_parts (h : Says line content) {part : Text} (hpart : part ∈ content.parts) :
    part ≠ [] := by
  have hwords {ws : List Text} (h : MadeOf ws line) : ∀ w ∈ ws, IsWord w := fun w hw =>
    isWord_of_mem_words (h.words_eq ▸ hw)
  have hjoined {w w' : Text} {ws : List Text} (h : MadeOf (w' :: w :: ws) line) :
      [' '].intercalate (w :: ws) ≠ [] := by
    intro hnil
    have hjoin := words_intercalate fun v hv => hwords h v (List.mem_cons_of_mem _ hv)
    rw [hnil] at hjoin
    cases hjoin
  cases h with
  | hash | slashes | malformed => cases hpart
  | kind _ h | home _ h | uses _ h =>
    obtain rfl := List.mem_singleton.1 hpart
    exact hjoined h
  | @field _ type name ws _ _ h =>
    refine (hwords h part ?_).ne_nil
    simp only [Content.parts, List.mem_cons, List.not_mem_nil, or_false] at hpart
    rcases hpart with rfl | rfl <;> simp

/-! ## The lines of a text -/

theorem mem_scan_iff {text : Text} {l : Line} : l ∈ scan text ↔ ∃ k raw, l.number = k + 1
    ∧ (lines text)[k]? = some raw ∧ Says (significant raw) l.content := by
  simp only [scan_eq_filterMap, List.mem_filterMap, Prod.exists, ofRaw?_eq_some_iff,
    List.mk_mem_zipIdx_iff_le_and_getElem?_sub]
  constructor
  · rintro ⟨raw, number, ⟨hle, hraw⟩, hnumber, hsays⟩
    exact ⟨number - 1, raw, by omega, hraw, hsays⟩
  · rintro ⟨k, raw, hnumber, hraw, hsays⟩
    exact ⟨raw, k + 1, ⟨Nat.le_add_left 1 k, hraw⟩, hnumber, hsays⟩

/-- **The lines of a text are those that the grammar tells.** The text is cut at its line feeds and
nowhere else. What counts of a raw line is what its blanks leave on both sides, then the semicolons at
the end of that and then the blanks before these. Of every raw line of which something counts there is
one record: it has the number of the raw line, counted from one, and it is what that line says, which is
one thing. The records are in the order of their numbers. If a line that is no comment has a blank, there
is a word behind its first one; if it has none, it is malformed. Types, names and arguments are not empty.
A text below another is scanned as it is alone, and counts on from the lines above it. -/
theorem scan_grammar (text : Text) :
    let kept : Text → Text := fun raw => trimEnd (dropEndWhile (· == ';') (trim raw))
    (['\n'].intercalate (lines text) = text ∧ ∀ raw ∈ lines text, '\n' ∉ raw)
      ∧ (∀ l, l ∈ scan text ↔ ∃ k raw, l.number = k + 1 ∧ (lines text)[k]? = some raw
        ∧ Says (kept raw) l.content)
      ∧ (scan text).Pairwise (·.number < ·.number)
      ∧ (∀ raw ∈ lines text, kept raw ≠ [] ↔ ∃! content, Says (kept raw) content)
      ∧ (∀ raw ∈ lines text, ¬ IsMarked (kept raw) → ∀ head c rest, IsSolid head →
        isBlank c = true → kept raw = head ++ c :: rest →
        classify (kept raw) = ofWords head (trimStart rest)
          ∧ trimStart rest ≠ [] ∧ words (trimStart rest) ≠ [])
      ∧ (∀ raw ∈ lines text, ¬ IsMarked (kept raw) → IsSolid (kept raw) →
        classify (kept raw) = .malformed)
      ∧ (∀ l ∈ scan text, ∀ part ∈ l.content.parts, part ≠ [])
      ∧ ∀ below, scan (text ++ '\n' :: below)
          = scan text ++ (scan below).map (renumber (· + (lines text).length))
        ∧ (lines text).length = text.count '\n' + 1 := by
  intro kept
  refine ⟨⟨intercalate_lines text, fun raw => not_mem_of_mem_lines⟩, fun l => mem_scan_iff, ?_,
    fun raw _ => ⟨fun hne => ?_, ?_⟩, fun raw _ hmark head c rest hhead hc hcut =>
      classify_of_cut hmark hcut hhead hc, fun raw _ => classify_of_isSolid, fun l hl part hpart => ?_,
    fun below => ⟨scan_append_lf text below, length_lines text⟩⟩
  · rw [scan_eq_ofText]
    exact pairwise_number_ofText text
  · have hclassify (content : Content) : classify (kept raw) = content ↔ Says (kept raw) content :=
      classify_eq_iff hne (headNotBlank_significant raw)
    exact ⟨_, (hclassify _).1 rfl, fun content hsays => ((hclassify content).2 hsays).symm⟩
  · rintro ⟨content, hsays, -⟩ hnil
    rw [hnil] at hsays
    exact not_says_nil hsays
  · obtain ⟨k, raw, -, -, hsays⟩ := mem_scan_iff.1 hl
    exact ne_nil_of_mem_parts hsays hpart

/-- A line of each form. Semicolons are dropped once, so the one before the blank stays with the name; a
line of semicolons has no record, but counts. -/
theorem scan_grammar_forms :
    let text := "type  Data\tType ;\nint32  x; ;\n;;\n// up ;\nx".toList
    (∀ l ∈ [⟨1, .directive (.kind "Data Type".toList)⟩, ⟨2, .field "int32".toList "x;".toList⟩,
        ⟨4, .comment "up".toList⟩, ⟨5, .malformed⟩], l ∈ scan text)
      ∧ (∀ l ∈ scan text, l.number ≠ 3)
      ∧ scan (text ++ '\n' :: "# low".toList) = scan text ++ [⟨6, .comment "low".toList⟩] := by
  intro text
  obtain ⟨-, hmem, -, -, -, -, -, hbelow⟩ := scan_grammar text
  refine ⟨fun l hl => ?_, fun l hl hthree => ?_, (hbelow "# low".toList).1⟩
  · simp only [List.mem_cons, List.not_mem_nil, or_false] at hl
    rcases hl with rfl | rfl | rfl | rfl
    · exact (hmem _).2 ⟨0, _, rfl, rfl,
        @Says.kind _ "Data".toList ["Type".toList] (by decide) (words_eq_iff.1 (by decide))⟩
    · exact (hmem _).2 ⟨1, _, rfl, rfl,
        @Says.field _ _ _ [] (by decide) (by decide) (words_eq_iff.1 (by decide))⟩
    · exact (hmem _).2 ⟨3, _, rfl, rfl, .slashes " up".toList⟩
    · exact (hmem _).2 ⟨4, _, rfl, rfl, @Says.malformed _ "x".toList (by decide)
        (words_eq_iff.1 (by decide))⟩
  · obtain ⟨k, raw, hnumber, hraw, hsays⟩ := (hmem l).1 hl
    obtain rfl : k = 2 := by omega
    obtain rfl : ";;".toList = raw := Option.some.inj hraw
    exact not_says_nil hsays

end Line

end MessageCompiler
