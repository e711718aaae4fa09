import MessageCompiler.Proofs.Definition.Lines

/-!
# What is cut off the end of a line

A line loses the blanks at its end, then the semicolons before them, then the blanks before those.
That is one run of semicolons with blanks around it (`Line.IsCutOff`), and it is cut once. Semicolons
that stand before such a run, with a blank in between, stay where they are and count.

The cut is done on a text without blanks at its start (`Line.cutEnd`), where three facts say all
there is to say: what is cut off is such a run, as much is cut off as can be, and a longer text keeps
at least what a shorter one keeps.

* **`significant_append_iff`**: text at the end of a line does not count exactly if it makes one run
  with what the line loses without it.
* **`exists_significant_append`**: other text counts up to its last semicolon.
* **`scan_appendToLine`**: what this means for the lines of a text.
-/

namespace MessageCompiler

open Text

namespace Text

theorem dropEndWhile_append_ite (p : Char → Bool) (s t : Text) : dropEndWhile p (s ++ t)
    = if (dropEndWhile p t).isEmpty then dropEndWhile p s else s ++ dropEndWhile p t := by
  unfold dropEndWhile
  rw [List.reverse_append, List.dropWhile_append, List.isEmpty_reverse]
  split
  · rfl
  · rw [List.reverse_append, List.reverse_reverse]

theorem dropEndWhile_append {p : Char → Bool} {s : Text} (hs : ∀ c ∈ s, p c = true) (t : Text) :
    dropEndWhile p (t ++ s) = dropEndWhile p t := by
  have hnil : dropEndWhile p s = [] := List.rdropWhile_eq_nil_iff.2 hs
  rw [dropEndWhile_append_ite, hnil]
  rfl

theorem dropEndWhile_mono {p : Char → Bool} {s t : Text} (h : s <+: t) :
    dropEndWhile p s <+: dropEndWhile p t := by
  obtain ⟨u, rfl⟩ := h
  rw [dropEndWhile_append_ite]
  split
  · exact List.prefix_rfl
  · exact (dropEndWhile_isPrefix p s).trans (List.prefix_append _ _)

theorem exists_eq_dropEndWhile_append (p : Char → Bool) (t : Text) :
    ∃ s, t = dropEndWhile p t ++ s ∧ ∀ c ∈ s, p c = true :=
  ⟨t.rtakeWhile p, List.rdropWhile_append_rtakeWhile.symm, fun _ => List.mem_rtakeWhile_imp⟩

theorem eq_false_of_getLast?_dropEndWhile {p : Char → Bool} {t : Text} {c : Char}
    (hc : (dropEndWhile p t).getLast? = some c) : p c = false := by
  have hne : dropEndWhile p t ≠ [] := fun h => by simp [h] at hc
  have hlast := List.rdropWhile_last_not p t hne
  rw [List.getLast?_eq_some_getLast hne] at hc
  rw [← Option.some.inj hc]
  exact Bool.eq_false_iff.2 hlast

theorem trimStart_append (s t : Text) : trimStart (s ++ t)
    = if (trimStart s).isEmpty then trimStart t else trimStart s ++ t :=
  List.dropWhile_append

end Text

namespace Line

/-! ## The cut -/

/-- Blanks, semicolons and blanks again, any of them missing. -/
def IsCutOff (s : Text) : Prop :=
  ∃ before semicolons after, s = before ++ semicolons ++ after ∧ (∀ c ∈ before, isBlank c = true)
    ∧ (∀ c ∈ semicolons, c = ';') ∧ ∀ c ∈ after, isBlank c = true

/-- What is left of a text whose end is cut off. -/
def cutEnd (t : Text) : Text := trimEnd (dropEndWhile (· == ';') (trimEnd t))

theorem cutEnd_isPrefix (t : Text) : cutEnd t <+: t :=
  ((dropEndWhile_isPrefix _ _).trans (dropEndWhile_isPrefix _ _)).trans (dropEndWhile_isPrefix _ _)

theorem cutEnd_mono {s t : Text} (h : s <+: t) : cutEnd s <+: cutEnd t :=
  dropEndWhile_mono (dropEndWhile_mono (dropEndWhile_mono h))

theorem exists_eq_cutEnd_append (t : Text) : ∃ s, t = cutEnd t ++ s ∧ IsCutOff s := by
  obtain ⟨after, hafter, hblank⟩ := exists_eq_dropEndWhile_append isBlank t
  obtain ⟨semicolons, hsemicolons, hsemi⟩ :=
    exists_eq_dropEndWhile_append (· == ';') (trimEnd t)
  obtain ⟨before, hbefore, hblank'⟩ :=
    exists_eq_dropEndWhile_append isBlank (dropEndWhile (· == ';') (trimEnd t))
  refine ⟨before ++ semicolons ++ after, ?_, before, semicolons, after, rfl, hblank', ?_, hblank⟩
  · change t = trimEnd t ++ after at hafter
    change _ = cutEnd t ++ before at hbefore
    rw [← List.append_assoc, ← List.append_assoc, ← hbefore, ← hsemicolons, ← hafter]
  · simpa using hsemi

theorem cutEnd_append_isPrefix {s : Text} (hs : IsCutOff s) (t : Text) : cutEnd (t ++ s) <+: t := by
  obtain ⟨before, semicolons, after, rfl, hbefore, hsemicolons, hafter⟩ := hs
  have hsemi : ∀ c ∈ semicolons, (c == ';') = true := by simpa using hsemicolons
  -- each of the three steps takes at least its part of the run
  have hfirst : trimEnd (t ++ (before ++ semicolons ++ after)) <+: t ++ before ++ semicolons := by
    rw [← List.append_assoc, ← List.append_assoc, trimEnd, dropEndWhile_append hafter]
    exact dropEndWhile_isPrefix _ _
  have hsecond : dropEndWhile (· == ';') (trimEnd (t ++ (before ++ semicolons ++ after)))
      <+: t ++ before := by
    have h := dropEndWhile_mono (p := (· == ';')) hfirst
    rw [dropEndWhile_append hsemi] at h
    exact h.trans (dropEndWhile_isPrefix _ _)
  have hthird := dropEndWhile_mono (p := isBlank) hsecond
  rw [dropEndWhile_append hbefore] at hthird
  exact hthird.trans (dropEndWhile_isPrefix _ _)

/-! ## What may be cut off -/

theorem eq_semicolon_or_isBlank {s : Text} (hs : IsCutOff s) {c : Char} (hc : c ∈ s) :
    c = ';' ∨ isBlank c = true := by
  obtain ⟨before, semicolons, after, rfl, hbefore, hsemicolons, hafter⟩ := hs
  simp only [List.mem_append] at hc
  rcases hc with (hc | hc) | hc
  · exact .inr (hbefore c hc)
  · exact .inl (hsemicolons c hc)
  · exact .inr (hafter c hc)

theorem IsCutOff.trimStart {s : Text} (hs : IsCutOff s) : IsCutOff (trimStart s) := by
  obtain ⟨before, semicolons, after, rfl, hbefore, hsemicolons, hafter⟩ := hs
  rw [List.append_assoc, Text.trimStart, List.dropWhile_append_of_pos hbefore]
  cases semicolons with
  | nil =>
    refine ⟨[], [], [], ?_, by simp, by simp, by simp⟩
    simpa using hafter
  | cons c rest =>
    obtain rfl : c = ';' := hsemicolons c List.mem_cons_self
    exact ⟨[], ';' :: rest, after, rfl, by simp, hsemicolons, hafter⟩

theorem isCutOff_trimStart {s : Text} : IsCutOff (Text.trimStart s) ↔ IsCutOff s := by
  refine ⟨fun h => ?_, IsCutOff.trimStart⟩
  obtain ⟨before, semicolons, after, hs, hbefore, hsemicolons, hafter⟩ := h
  have hstart : ∀ c ∈ s.takeWhile isBlank, isBlank c = true := fun _ => List.mem_takeWhile_imp
  refine ⟨s.takeWhile isBlank ++ before, semicolons, after, ?_, ?_, hsemicolons, hafter⟩
  · rw [List.append_assoc, List.append_assoc, ← List.append_assoc before, ← hs]
    exact List.takeWhile_append_dropWhile.symm
  · simpa [or_imp, forall_and] using ⟨hstart, hbefore⟩

/-! ## Lines -/

theorem significant_eq (raw : Text) : significant raw = cutEnd (trimStart raw) := rfl

/-- What stands in a line after what counts of it. -/
def cutOff (raw : Text) : Text := (trimStart raw).drop (significant raw).length

theorem trimStart_eq_append (raw : Text) : trimStart raw = significant raw ++ cutOff raw := by
  obtain ⟨rest, hrest⟩ := cutEnd_isPrefix (trimStart raw)
  change significant raw ++ rest = trimStart raw at hrest
  rw [cutOff, ← hrest, List.drop_left]

/-- **Nothing counts of a line exactly if it may be cut off as a whole.** -/
theorem significant_eq_nil_iff {raw : Text} : significant raw = [] ↔ IsCutOff raw := by
  rw [← isCutOff_trimStart, significant_eq]
  constructor
  · intro h
    obtain ⟨rest, hrest, hoff⟩ := exists_eq_cutEnd_append (Text.trimStart raw)
    rw [h, List.nil_append] at hrest
    rwa [hrest]
  · intro hoff
    exact List.prefix_nil.1 (cutEnd_append_isPrefix hoff [])

theorem significant_isPrefix_append (raw s : Text) : significant raw <+: significant (raw ++ s) := by
  apply cutEnd_mono
  rw [trimStart_append]
  split
  · next hblank => simp [List.isEmpty_iff.1 hblank]
  · exact List.prefix_append _ _

/-- What counts of a line stands before the text at its end, which loses the blanks at its own start
if the line is blank. -/
theorem exists_trimStart_append (raw s : Text) : ∃ rest,
    Text.trimStart (raw ++ s) = significant raw ++ rest ∧ rest <:+ cutOff raw ++ s
      ∧ (IsCutOff rest ↔ IsCutOff (cutOff raw ++ s)) := by
  rw [trimStart_append]
  split
  · next hblank =>
    rw [List.isEmpty_iff] at hblank
    have hnil : significant raw = [] := by
      rw [significant_eq, hblank]
      rfl
    have hsuffix : Text.trimStart s <:+ s := List.dropWhile_suffix isBlank
    refine ⟨Text.trimStart s, by simp [hnil], ?_, ?_⟩
    · simpa [cutOff, hblank] using hsuffix
    · simpa [cutOff, hblank] using isCutOff_trimStart
  · refine ⟨cutOff raw ++ s, ?_, List.suffix_rfl, Iff.rfl⟩
    rw [← List.append_assoc, ← trimStart_eq_append]

/-- **Text at the end of a line does not count exactly if it makes one run with what the line loses
without it.** -/
theorem significant_append_iff (raw s : Text) :
    significant (raw ++ s) = significant raw ↔ IsCutOff (cutOff raw ++ s) := by
  obtain ⟨rest, hrest, -, hiff⟩ := exists_trimStart_append raw s
  rw [← hiff]
  constructor
  · intro h
    obtain ⟨cut, hcut, hoff⟩ := exists_eq_cutEnd_append (Text.trimStart (raw ++ s))
    rw [← significant_eq, h, hrest] at hcut
    rwa [List.append_cancel_left hcut]
  · intro hoff
    have hless : significant (raw ++ s) <+: significant raw := by
      rw [significant_eq, hrest]
      exact cutEnd_append_isPrefix hoff _
    exact hless.eq_of_length_le (significant_isPrefix_append raw s).length_le

theorem isCutOff_cutOff (raw : Text) : IsCutOff (cutOff raw) := by
  have h := (significant_append_iff raw []).1 (by rw [List.append_nil])
  rwa [List.append_nil] at h

/-- **Semicolons and blanks that are not cut off count up to the last semicolon.** -/
theorem exists_significant_append {raw s : Text} (hs : ∀ c ∈ s, c = ';' ∨ isBlank c = true)
    (hoff : ¬ IsCutOff (cutOff raw ++ s)) : ∃ kept, significant (raw ++ s) = significant raw ++ kept
      ∧ kept <:+: cutOff raw ++ s ∧ kept.getLast? = some ';' := by
  obtain ⟨rest, hrest, hsuffix, -⟩ := exists_trimStart_append raw s
  obtain ⟨kept, hkept⟩ := significant_isPrefix_append raw s
  have hinfix : kept <:+: cutOff raw ++ s := by
    have hprefix : significant (raw ++ s) <+: Text.trimStart (raw ++ s) := cutEnd_isPrefix _
    rw [← hkept, hrest, List.prefix_append_right_inj] at hprefix
    exact hprefix.isInfix.trans hsuffix.isInfix
  have hne : kept ≠ [] := by
    rintro rfl
    rw [List.append_nil] at hkept
    exact hoff ((significant_append_iff raw s).1 hkept.symm)
  refine ⟨kept, hkept.symm, hinfix, ?_⟩
  -- the last character is not blank, since blanks are cut last
  have hlast : (significant (raw ++ s)).getLast? = some (kept.getLast hne) := by
    rw [← hkept, List.getLast?_append_of_ne_nil _ hne, List.getLast?_eq_some_getLast hne]
  have hblank : isBlank (kept.getLast hne) = false := eq_false_of_getLast?_dropEndWhile hlast
  have hmem : kept.getLast hne ∈ cutOff raw ++ s := hinfix.subset (List.getLast_mem hne)
  have hchar : kept.getLast hne = ';' ∨ isBlank (kept.getLast hne) = true := by
    rcases List.mem_append.1 hmem with hmem | hmem
    · exact eq_semicolon_or_isBlank (isCutOff_cutOff raw) hmem
    · exact hs _ hmem
  rw [hblank] at hchar
  simpa [List.getLast?_eq_some_getLast hne] using hchar

end Line

/-! ## The lines of a text -/

/-- The text with `s` at the end of one of its lines, which are counted from zero here. -/
def Text.appendToLine (text : Text) (k : Nat) (s : Text) : Text :=
  ['\n'].intercalate ((lines text).modify k (· ++ s))

theorem Text.lines_appendToLine (text : Text) {k : Nat} {s : Text} (hs : '\n' ∉ s) :
    lines (appendToLine text k s) = (lines text).modify k (· ++ s) := by
  apply lines_intercalate
  · rw [ne_eq, List.modify_eq_nil_iff]
    exact splitWhen_ne_nil _ text
  · intro l hl
    obtain ⟨i, hi, rfl⟩ := List.mem_iff_getElem.1 hl
    rw [List.length_modify] at hi
    have hline : '\n' ∉ (lines text)[i] := not_mem_of_mem_lines (List.getElem_mem hi)
    rw [List.getElem_modify]
    split <;> simp [hs, hline]

namespace Line

theorem ofRaw?_eq_none_iff {raw : Text} : Content.ofRaw? raw = none ↔ IsCutOff raw := by
  rw [← significant_eq_nil_iff, ← Option.map_eq_none_iff, ← ofRaw?_eq_map 1, ofRaw?]
  simp

theorem ofRaw?_congr {raw raw' : Text} (h : significant raw = significant raw') :
    Content.ofRaw? raw = Content.ofRaw? raw' := by
  unfold Content.ofRaw?
  rw [← significant, ← significant, h]

theorem scanFrom_modify (number : Nat) {ls : List Text} {k : Nat} (hk : k < ls.length)
    (f : Text → Text) : scanFrom number (ls.modify k f) = scanFrom number (ls.take k)
      ++ ((ofRaw? (number + k) (f ls[k])).toList
        ++ scanFrom (number + k + 1) (ls.drop (k + 1))) := by
  rw [List.modify_eq_take_cons_drop hk, scanFrom_append, List.length_take_of_le hk.le]
  rfl

/-- What is appended to a line makes a difference by what that line says, and no other. -/
theorem scan_appendToLine_iff (text : Text) {k : Nat} (hk : k < (lines text).length) {s : Text}
    (hs : '\n' ∉ s) : scan (appendToLine text k s) = scan text
      ↔ Content.ofRaw? ((lines text)[k] ++ s) = Content.ofRaw? (lines text)[k] := by
  have hself : lines text = (lines text).modify k id := by simp
  have htoList {α : Type} {a b : Option α} : a.toList = b.toList ↔ a = b := by
    cases a <;> cases b <;> simp
  rw [scan, scan, lines_appendToLine text hs]
  conv_lhs => rhs; rw [hself]
  rw [scanFrom_modify 1 hk, scanFrom_modify 1 hk, List.append_right_inj, List.append_left_inj,
    htoList, ofRaw?_eq_map, ofRaw?_eq_map]
  exact (Option.map_injective fun a b h => (Line.mk.inj h).2).eq_iff

/-- **Semicolons and blanks at the end of a line.** The lines of a text are scanned as before if what
is appended to one of them makes one run with what that line loses without it. Otherwise it counts
up to its last semicolon, and makes a difference unless the line says the same all the same, as a
field does with further words behind its name. A line is dropped exactly if it is such a run. -/
theorem scan_appendToLine (text : Text) {k : Nat} (hk : k < (lines text).length) {s : Text}
    (hs : ∀ c ∈ s, c = ';' ∨ isBlank c = true ∧ c ≠ '\n') :
    let raw := (lines text)[k]
    let text' := appendToLine text k s
    lines text' = (lines text).modify k (· ++ s)
      ∧ (IsCutOff (cutOff raw ++ s) → scan text' = scan text)
      ∧ (¬ IsCutOff (cutOff raw ++ s) → ∃ kept, significant (raw ++ s) = significant raw ++ kept
        ∧ kept <:+: cutOff raw ++ s ∧ kept.getLast? = some ';')
      ∧ (scan text' = scan text ↔ Content.ofRaw? (raw ++ s) = Content.ofRaw? raw)
      ∧ (Content.ofRaw? raw = none ↔ IsCutOff raw) := by
  intro raw text'
  have hlf : '\n' ∉ s := fun h => by simpa using hs _ h
  have hchars : ∀ c ∈ s, c = ';' ∨ isBlank c = true := fun c hc => (hs c hc).imp_right And.left
  refine ⟨lines_appendToLine text hlf, fun hoff => ?_, exists_significant_append hchars,
    scan_appendToLine_iff text hk hlf, ofRaw?_eq_none_iff⟩
  apply (scan_appendToLine_iff text hk hlf).2
  exact ofRaw?_congr ((significant_append_iff raw s).2 hoff)

/-- The first line has a blank and a semicolon at its end already; more semicolons and a carriage
return change nothing. -/
theorem scan_appendToLine_terminated :
    scan (appendToLine "int x ;\n#".toList 0 ";; \r".toList) = scan "int x ;\n#".toList := by
  have hlength : 0 < (lines "int x ;\n#".toList).length := by decide
  have hchars : ∀ c ∈ ";; \r".toList, c = ';' ∨ isBlank c = true ∧ c ≠ '\n' := by simp [isBlank]
  obtain ⟨-, hscan, -⟩ := scan_appendToLine "int x ;\n#".toList hlength hchars
  have hrun : cutOff "int x ;".toList ++ ";; \r".toList
      = " ".toList ++ ";;;".toList ++ " \r".toList := by decide
  exact hscan ⟨_, _, _, hrun, by simp [isBlank], by simp, by simp [isBlank]⟩

/-- **A semicolon stays with a blank and another one behind it**: as a part of a name, of an argument
and of a comment, and as the one word of a line that has nothing else. -/
theorem scan_appendToLine_ne :
    let text := "int x\nusing A\n# a\n".toList
    (∀ c ∈ "; ;".toList, c = ';' ∨ isBlank c = true ∧ c ≠ '\n')
      ∧ (∀ k < (lines text).length, scan (appendToLine text k "; ;".toList) ≠ scan text)
      ∧ scan "int x; ;\nusing A; ;\n# a; ;\n; ;".toList
        = [⟨1, .field "int".toList "x;".toList⟩, ⟨2, .directive (.uses "A;".toList)⟩,
          ⟨3, .comment "a;".toList⟩, ⟨4, .malformed⟩] := by
  refine ⟨by simp [isBlank], ?_, ?_⟩ <;> decide

end Line

end MessageCompiler
