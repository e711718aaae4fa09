import Mathlib.Data.List.ModifyLast
import Mathlib.Logic.Relation
import MessageCompiler.Proofs.Definition.Endings
import MessageCompiler.Proofs.Definition.Renumbering
import MessageCompiler.Proofs.Source.Parts

/-!
# Layout does not matter

Which blanks stand around a line and between its words, which line ends have a carriage return, and
how many blank lines there are makes no difference, except to the numbers of lines. A line that is no
comment is told by its words: the last of them loses its semicolons, and nothing is left of it if it
has nothing else (`Line.unterminated`). A comment is told by its trimmed line.

* **`Line.words_significant`**: the words of what counts of a line, by the words of the line.
* **`Line.filterMap_ofRaw?_of_relaid`**: one change to the layout leaves what the lines say.
* **`Line.exists_follow`**: where lines that say the same stand in either text.
* **`Definition.ofText_of_relaid`**: any number of changes, from the text to the file.
-/

namespace MessageCompiler

open Text

/-! ## Blanks and words -/

namespace Text

/-- The text is made of blanks. -/
def AllBlank (t : Text) : Prop := ∀ c ∈ t, isBlank c = true

instance : DecidablePred AllBlank := fun t => List.decidableBAll (isBlank · = true) t

theorem words_blank_append {b : Text} (hb : AllBlank b) (t : Text) : words (b ++ t) = words t := by
  rw [← words_trimStart, trimStart, List.dropWhile_append_of_pos hb]
  exact words_trimStart t

theorem words_append_blank_append {b : Text} (hne : b ≠ []) (hb : AllBlank b) (s t : Text) :
    words (s ++ b ++ t) = words s ++ words t := by
  obtain ⟨c, rest, rfl⟩ := List.exists_cons_of_ne_nil hne
  have hrest : AllBlank rest := fun c' hc' => hb c' (List.mem_cons_of_mem c hc')
  rw [List.append_assoc, List.cons_append, words_append_blank (hb c List.mem_cons_self),
    words_blank_append hrest]

theorem words_append_of_allBlank {b : Text} (hb : AllBlank b) (s : Text) :
    words (s ++ b) = words s := by
  by_cases hne : b = []
  · rw [hne, List.append_nil]
  · have h := words_append_blank_append hne hb s []
    rw [List.append_nil] at h
    exact h.trans (List.append_nil _)

@[simp] theorem words_trimEnd (t : Text) : words (trimEnd t) = words t := by
  obtain ⟨b, ht, hb⟩ := exists_eq_dropEndWhile_append isBlank t
  conv_rhs => rw [ht]
  exact (words_append_of_allBlank hb _).symm

@[simp] theorem words_trim (t : Text) : words (trim t) = words t := by
  rw [trim, words_trimEnd, words_trimStart]

theorem words_append_word {s w : Text} (hs : ∀ c, s.getLast? = some c → isBlank c = true)
    (hw : IsWord w) : words (s ++ w) = words s ++ [w] := by
  cases s using List.reverseRecOn with
  | nil => exact words_eq_singleton hw
  | append_singleton s c =>
    have hc : AllBlank [c] := by simpa [AllBlank] using hs c List.getLast?_concat
    rw [words_append_blank_append (List.cons_ne_nil c []) hc, words_append_of_allBlank hc,
      words_eq_singleton hw]

theorem exists_append_word {t : Text} (hne : t ≠ [])
    (hlast : ∀ c, t.getLast? = some c → isBlank c = false) :
    ∃ s w, t = s ++ w ∧ IsWord w ∧ ∀ c, s.getLast? = some c → isBlank c = true := by
  obtain ⟨w, hcut, hw⟩ := exists_eq_dropEndWhile_append (!isBlank ·) t
  have hstart : ∀ c, (dropEndWhile (!isBlank ·) t).getLast? = some c → isBlank c = true :=
    fun c hc => by simpa using eq_false_of_getLast?_dropEndWhile hc
  refine ⟨dropEndWhile (!isBlank ·) t, w, hcut, ⟨?_, fun c hc => by simpa using hw c hc⟩, hstart⟩
  rintro rfl
  rw [List.append_nil] at hcut
  rw [← hcut] at hstart
  have hblank := hstart _ (List.getLast?_eq_some_getLast hne)
  rw [hlast _ (List.getLast?_eq_some_getLast hne)] at hblank
  exact Bool.false_ne_true hblank

theorem trim_blank_append {b b' : Text} (hb : AllBlank b) (hb' : AllBlank b') (t : Text) :
    trim (b ++ t ++ b') = trim t := by
  have hstart : trimStart (b ++ t ++ b') = trimStart (t ++ b') := by
    rw [List.append_assoc, trimStart, List.dropWhile_append_of_pos hb]
    rfl
  unfold trim
  rw [hstart, trimStart_append]
  split
  · next hblank =>
    rw [List.isEmpty_iff.1 hblank, trimStart, List.dropWhile_eq_nil_iff.2 hb']
  · exact dropEndWhile_append hb' _

end Text

/-! ## Lines, by their words -/

namespace Line

/-- The words without the semicolons at the end of the last one, which is dropped if it has nothing
else. -/
def unterminated (ws : List Text) : List Text :=
  (ws.modifyLast (dropEndWhile (· == ';'))).filter (!·.isEmpty)

/-- **What counts of a line are its words, without the semicolons at the end of the last one.** -/
theorem words_significant (raw : Text) :
    words (significant raw) = unterminated (words raw) := by
  have htrim : words raw = words (trim raw) := (words_trim raw).symm
  rw [significant, words_trimEnd, htrim]
  by_cases hne : trim raw = []
  · rw [hne]
    rfl
  have hlast : ∀ c, (trim raw).getLast? = some c → isBlank c = false := fun c hc =>
    eq_false_of_getLast?_dropEndWhile hc
  obtain ⟨s, w, hcut, hw, hs⟩ := exists_append_word hne hlast
  have hsolid : IsSolid (dropEndWhile (· == ';') w) := fun c hc =>
    hw.solid c ((dropEndWhile_isPrefix _ w).subset hc)
  have hwords : (words s).filter (!·.isEmpty) = words s :=
    List.filter_eq_self.2 fun v hv => by simpa using (isWord_of_mem_words hv).ne_nil
  rw [hcut, dropEndWhile_append_ite, words_append_word hs hw, unterminated, List.modifyLast_concat,
    List.filter_append, hwords]
  -- the last word is made of semicolons, or something of it is left
  split
  · next hempty =>
    have hself : dropEndWhile (· == ';') s = s := dropEndWhile_eq_self fun c hc => by
      refine beq_false_of_ne fun heq => ?_
      rw [heq] at hc
      exact absurd (hs ';' hc) (by decide)
    rw [hself]
    simp [hempty]
  · next hempty =>
    have hleft : IsWord (dropEndWhile (· == ';') w) := ⟨by simpa using hempty, hsolid⟩
    rw [words_append_word hs hleft]
    simp [hempty]

/-- The marker of a comment stands within the first word. -/
theorem comment?_eq_none_iff_headD {line : Text} (hhead : HeadNotBlank line) :
    comment? line = none ↔ comment? ((words line).headD []) = none := by
  cases line with
  | nil => rfl
  | cons c rest =>
    have hc : isBlank c = false := hhead c rfl
    -- the two marks are looked for in the first two characters, and the first word has them or ends
    have hsecond : ['/'].isPrefixOf (rest.takeWhile (!isBlank ·)) = ['/'].isPrefixOf rest := by
      cases rest with
      | nil => rfl
      | cons c' rest =>
        rw [List.takeWhile_cons]
        split
        · rfl
        · next hblank =>
          have hslash : ('/' == c') = false := beq_false_of_ne fun heq => hblank (by rw [← heq]; rfl)
          simp [List.isPrefixOf, hslash]
    rw [words_eq_cons (List.cons_ne_nil c rest) hhead, List.headD_cons, List.takeWhile_cons, hc,
      comment?_eq_none_iff, comment?_eq_none_iff]
    show ("#".toList.isPrefixOf (c :: rest) || ('/' == c && ['/'].isPrefixOf rest)) = false
      ↔ ("#".toList.isPrefixOf (c :: rest.takeWhile (!isBlank ·))
        || ('/' == c && ['/'].isPrefixOf (rest.takeWhile (!isBlank ·)))) = false
    rw [hsecond]
    rfl

/-- **A line that is no comment is told by its words.** -/
theorem ofRaw?_congr_words {raw raw' : Text} (hwords : words raw = words raw')
    (hcomment : comment? (significant raw) = none) :
    Content.ofRaw? raw = Content.ofRaw? raw' := by
  have hsignificant : words (significant raw) = words (significant raw') := by
    rw [words_significant, words_significant, hwords]
  have hcomment' : comment? (significant raw') = none := by
    rw [comment?_eq_none_iff_headD (headNotBlank_significant raw'), ← hsignificant]
    exact (comment?_eq_none_iff_headD (headNotBlank_significant raw)).1 hcomment
  obtain ⟨hhash, hslash⟩ := Bool.or_eq_false_iff.1 (comment?_eq_none_iff.1 hcomment)
  obtain ⟨hhash', hslash'⟩ := Bool.or_eq_false_iff.1 (comment?_eq_none_iff.1 hcomment')
  unfold Content.ofRaw?
  rw [← significant, ← significant]
  simp only [hhash, hslash, hhash', hslash', Bool.false_eq_true, if_false, hsignificant]

theorem ofRaw?_blank_append {b b' : Text} (hb : AllBlank b) (hb' : AllBlank b') (raw : Text) :
    Content.ofRaw? (b ++ raw ++ b') = Content.ofRaw? raw := by
  apply ofRaw?_congr
  unfold significant
  rw [trim_blank_append hb hb']

theorem ofRaw?_eq_none_of_allBlank {b : Text} (hb : AllBlank b) : Content.ofRaw? b = none := by
  have hnil : AllBlank [] := by decide
  have h := ofRaw?_blank_append hb hnil []
  rw [List.append_nil, List.append_nil] at h
  exact h.trans rfl

end Line

/-! ## Changes to the layout -/

/-- One change to the layout of a text: a line end gets a carriage return, blanks come to stand around
a line, one run of blanks takes the place of another within a line that is no comment, or a blank
line is put in. -/
inductive Text.Relaid : Text → Text → Prop where
  | lineEnd (before after : Text) : Relaid (before ++ '\n' :: after) (before ++ '\r' :: '\n' :: after)
  | margin {text text' : Text} (above below : List Text) (raw b b' : Text) (hb : AllBlank b)
      (hb' : AllBlank b') (h : lines text = above ++ raw :: below)
      (h' : lines text' = above ++ (b ++ raw ++ b') :: below) : Relaid text text'
  | gap {text text' : Text} (above below : List Text) (s t b b' : Text) (hne : b ≠ [])
      (hb : AllBlank b) (hne' : b' ≠ []) (hb' : AllBlank b')
      (hcomment : Line.comment? (Line.significant (s ++ b ++ t)) = none)
      (h : lines text = above ++ (s ++ b ++ t) :: below)
      (h' : lines text' = above ++ (s ++ b' ++ t) :: below) : Relaid text text'
  | blankLine {text text' : Text} (above below : List Text) (raw : Text) (hraw : AllBlank raw)
      (h : lines text = above ++ below) (h' : lines text' = above ++ raw :: below) : Relaid text text'

theorem Text.exists_lines_append_last (s : Text) : ∃ above last, ∀ t, '\n' ∉ t →
    lines (s ++ t) = above ++ [last ++ t] := by
  by_cases hlf : '\n' ∈ s
  · obtain ⟨initial, last, rfl, hlast⟩ := exists_eq_append_cons_of_mem hlf
    refine ⟨lines initial, last, fun t ht => ?_⟩
    have hline : lines (last ++ t) = [last ++ t] := lines_eq_singleton (by simpa using ⟨hlast, ht⟩)
    rw [List.append_assoc, List.cons_append, lines_append_lf, hline]
  · refine ⟨[], s, fun t ht => lines_eq_singleton ?_⟩
    simpa using ⟨hlf, ht⟩

namespace Line

/-- **One change to the layout leaves what the lines say.** -/
theorem filterMap_ofRaw?_of_relaid {text text' : Text} (h : Relaid text text') :
    (lines text').filterMap Content.ofRaw? = (lines text).filterMap Content.ofRaw? := by
  have hline {raw raw' : Text} (above below : List Text)
      (hraw : Content.ofRaw? raw' = Content.ofRaw? raw) :
      (above ++ raw' :: below).filterMap Content.ofRaw?
        = (above ++ raw :: below).filterMap Content.ofRaw? := by
    simp [List.filterMap_cons, hraw]
  cases h with
  | lineEnd before after =>
    -- the carriage return is one more blank at the end of the line that it closes
    obtain ⟨above, last, hlast⟩ := exists_lines_append_last before
    have hbefore : lines before = above ++ [last] := by simpa using hlast [] (by simp)
    have hreturn : before ++ '\r' :: '\n' :: after = (before ++ ['\r']) ++ '\n' :: after := by simp
    rw [hreturn, lines_append_lf, lines_append_lf, hbefore, hlast ['\r'] (by decide),
      List.append_assoc, List.append_assoc]
    have hnil : AllBlank [] := by decide
    have hblank : AllBlank ['\r'] := by decide
    exact hline above _ (ofRaw?_blank_append hnil hblank last)
  | margin above below raw b b' hb hb' h h' =>
    rw [h, h']
    exact hline above below (ofRaw?_blank_append hb hb' raw)
  | gap above below s t b b' hne hb hne' hb' hcomment h h' =>
    rw [h, h']
    -- a gap of another width leaves the words as they are
    apply hline
    refine (ofRaw?_congr_words ?_ hcomment).symm
    rw [words_append_blank_append hne hb, words_append_blank_append hne' hb']
  | blankLine above below raw hraw h h' =>
    rw [h, h']
    simp [ofRaw?_eq_none_of_allBlank hraw]

theorem filterMap_ofRaw?_of_eqvGen {text text' : Text} (h : Relation.EqvGen Relaid text text') :
    (lines text').filterMap Content.ofRaw? = (lines text).filterMap Content.ofRaw? := by
  induction h with
  | rel text text' h => exact filterMap_ofRaw?_of_relaid h
  | refl text => rfl
  | symm text text' _ ih => exact ih.symm
  | trans text text' text'' _ _ ih ih' => exact ih'.trans ih

/-! ## Where lines go -/

theorem map_content_ofText (text : Text) :
    (ofText text).map Line.content = (lines text).filterMap Content.ofRaw? := by
  have hraws : (lines text).filterMap Content.ofRaw?
      = ((lines text).zipIdx 1).filterMap (Content.ofRaw? ∘ Prod.fst) := by
    rw [← List.filterMap_map, List.zipIdx_map_fst]
  rw [hraws, ofText, List.map_filterMap]
  apply List.filterMap_congr
  intro p _
  show ((Content.ofRaw? p.1).map (Line.mk p.2)).map Line.content = Content.ofRaw? p.1
  cases Content.ofRaw? p.1 <;> rfl

theorem pairwise_number_ofText (text : Text) : (ofText text).Pairwise (·.number < ·.number) := by
  have hplaces : ((lines text).zipIdx 1).Pairwise (·.2 < ·.2) := by
    rw [← List.pairwise_map, List.zipIdx_map_snd]
    exact List.pairwise_lt_range'
  refine List.pairwise_filterMap.2 (hplaces.imp fun {p q} h line hline line' hline' => ?_)
  obtain ⟨content, -, rfl⟩ := Option.map_eq_some_iff.1 hline
  obtain ⟨content', -, rfl⟩ := Option.map_eq_some_iff.1 hline'
  exact h

/-- **Lines that say the same differ in their numbers only.** -/
theorem exists_follow {ls ls' : List Line} (hls : ls.Pairwise (·.number < ·.number))
    (h : ls'.map Line.content = ls.map Line.content) :
    ∃ follow, ls' = ls.map (renumber follow) := by
  induction ls generalizing ls' with
  | nil => exact ⟨id, by simpa using h⟩
  | cons line rest ih =>
    cases ls' with
    | nil => simp at h
    | cons line' rest' =>
      obtain ⟨hcontent, hrest⟩ := List.cons.inj h
      obtain ⟨hfirst, hpairwise⟩ := List.pairwise_cons.1 hls
      obtain ⟨follow, rfl⟩ := ih hpairwise hrest
      -- the numbers ascend, so the number of the head is none of the tail's and moves on its own
      refine ⟨Function.update follow line.number line'.number, ?_⟩
      rw [List.map_cons]
      congr 1
      · obtain ⟨number, content⟩ := line
        obtain ⟨number', content'⟩ := line'
        obtain rfl : content' = content := hcontent
        simp [renumber]
      · refine List.map_congr_left fun l hl => ?_
        simp [renumber, Function.update_of_ne (hfirst l hl).ne']

end Line

/-! ## From the text to the file -/

theorem Source.lines_renumber {d : Definition} (hd : ∀ m ∈ d.members, m.field?.isSome)
    (follow : Nat → Nat) (t : Target) :
    lines t ((d.renumber follow).spelled t) = lines t (d.spelled t) := by
  have hmember : ∀ m ∈ d.members, memberLines t ((m.renumber follow).spelled t)
      = memberLines t (m.spelled t) := by
    intro m hm
    cases m with
    | field f => cases t <;> rfl
    | invalid line => exact absurd (hd _ hm) Bool.false_ne_true
  have hmembers : ((d.renumber follow).spelled t).members.flatMap (memberLines t)
      = (d.spelled t).members.flatMap (memberLines t) := by
    simp only [Definition.spelled, Definition.renumber, List.flatMap_map]
    exact List.flatMap_congr hmember
  rw [lines_eq, lines_eq, hmembers]
  cases t <;> rfl

/-- **Layout does not matter.** After any number of changes to the layout of a text, made or taken
back, the lines of which something is left say what they said, each at a new place. The definition
and what is found wrong with it follow them: there are other numbers, and no other difference. If no
line is malformed, generated files are the same, since only placeholders show numbers. -/
theorem Definition.ofText_of_relaid {text text' : Text} (h : Relation.EqvGen Relaid text text')
    (name : Text) : ∃ follow : Nat → Nat,
      Line.ofText text' = (Line.ofText text).map (Line.renumber follow)
        ∧ (ofText name text').1 = (ofText name text).1.renumber follow
        ∧ (ofText name text').2.diagnostics
          = (ofText name text).2.diagnostics.map (Diagnostic.renumber follow)
        ∧ ∀ config : Config,
          (compile config name text').diagnostics
              = (compile config name text).diagnostics.map (Diagnostic.renumber follow)
            ∧ (compile config name text').files = config.targets.enabled.map
                (SourceFile.ofDefinition ((ofText name text).1.renumber follow))
            ∧ ((∀ m ∈ (ofText name text).1.members, m.field?.isSome) →
              (compile config name text').files = (compile config name text).files) := by
  have hcontents : (Line.ofText text').map Line.content = (Line.ofText text).map Line.content := by
    rw [Line.map_content_ofText, Line.map_content_ofText, Line.filterMap_ofRaw?_of_eqvGen h]
  obtain ⟨follow, hlines⟩ := Line.exists_follow (Line.pairwise_number_ofText text) hcontents
  obtain ⟨hdefinition, hdiagnostics⟩ := renumber_ofText hlines name
  have hfiles (config : Config) : (compile config name text').files = config.targets.enabled.map
      (SourceFile.ofDefinition ((ofText name text).1.renumber follow)) := by
    rw [← hdefinition]
    rfl
  refine ⟨follow, hlines, hdefinition, hdiagnostics, fun config => ⟨?_, hfiles config, fun hd => ?_⟩⟩
  · rw [Compiled.diagnostics_eq, Compiled.diagnostics_eq, hdiagnostics, hdefinition, List.map_append,
      List.map_flatMap]
    congr 1
    exact List.flatMap_congr fun t _ => hidingFields_renumber follow _ t
  · rw [hfiles config]
    refine List.map_congr_left fun t _ => ?_
    unfold SourceFile.ofDefinition Source.render
    rw [Source.lines_renumber hd]
    rfl

/-- A text and what it is in another layout: with carriage returns, an empty line, and other blanks
around words. -/
theorem Definition.ofText_of_relaid_spaced :
    let text := "# a\nint x ;".toList
    let text' := "# a\r\n \n\tint\u3000 x ; ".toList
    Relation.EqvGen Relaid text text'
      ∧ (compile {} "M".toList text').files = (compile {} "M".toList text).files := by
  have hreturn : Relaid "# a\nint x ;".toList "# a\r\nint x ;".toList :=
    .lineEnd "# a".toList "int x ;".toList
  have hblank : Relaid "# a\r\nint x ;".toList "# a\r\n \nint x ;".toList :=
    .blankLine ["# a\r".toList] ["int x ;".toList] [' '] (by decide) (by decide) (by decide)
  have hmargin : Relaid "# a\r\n \nint x ;".toList "# a\r\n \n\tint x ; ".toList :=
    .margin ["# a\r".toList, [' ']] [] "int x ;".toList ['\t'] [' '] (by decide) (by decide)
      (by decide) (by decide)
  have hgap : Relaid "# a\r\n \n\tint x ; ".toList "# a\r\n \n\tint\u3000 x ; ".toList :=
    .gap ["# a\r".toList, [' ']] [] "\tint".toList "x ; ".toList [' '] "\u3000 ".toList (by decide)
      (by decide) (by decide) (by decide) (by decide) (by decide) (by decide)
  have h : Relation.EqvGen Relaid "# a\nint x ;".toList "# a\r\n \n\tint\u3000 x ; ".toList :=
    .trans _ _ _ (.rel _ _ hreturn) <| .trans _ _ _ (.rel _ _ hblank) <|
      .trans _ _ _ (.rel _ _ hmargin) (.rel _ _ hgap)
  obtain ⟨_, -, -, -, hcompile⟩ := ofText_of_relaid h "M".toList
  obtain ⟨-, -, hfiles⟩ := hcompile {}
  exact ⟨h, hfiles (by decide)⟩

end MessageCompiler
