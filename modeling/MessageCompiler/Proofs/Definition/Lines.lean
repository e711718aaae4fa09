import MessageCompiler.Proofs.Text.Words

/-!
# What a source line says, by its words

`Line.classify` cuts a line at its first blank and goes on from there. Here the same is said of the
words of the line (`Content.ofWords`), and the lines of a definition are said to be its raw lines,
numbered and classified one by one.

* **`classify_eq_ofWords`**: a line that is no comment says what its words say.
* **`ofRaw?_eq_map`**: a raw line is told by the way it begins and by its words (`Content.ofRaw?`).
* **`scan_eq_filterMap`**: scanning is line by line, and the numbers are those of the raw lines.
* **`sound_of_mem_scan`**: what a scanned line says is made of words, or of text within a line.
-/

namespace MessageCompiler

open Text

/-- What a line says that is no comment, told by its words: the first decides, the second has to be
there, and those after the second count in a directive only. -/
def Content.ofWords : List Text → Content
  | head :: name :: rest =>
    if head = "type".toList then .directive (.kind ([' '].intercalate (name :: rest)))
    else if head = "namespace".toList then .directive (.home ([' '].intercalate (name :: rest)))
    else if head = "using".toList then .directive (.uses ([' '].intercalate (name :: rest)))
    else .field head name
  | _ => .malformed

/-- The words that make a line of two words or more a directive. -/
def Directive.heads : List Text := ["type".toList, "namespace".toList, "using".toList]

def Directive.argument : Directive → Text
  | .kind argument => argument
  | .home argument => argument
  | .uses argument => argument

/-- What a line says is made of whole words, or is text within one line. -/
def Content.Sound : Content → Prop
  | .comment text => '\n' ∉ text
  | .directive d => '\n' ∉ d.argument
  | .field type name => IsWord type ∧ IsWord name
  | .malformed => True

namespace Content

theorem ofWords_of_mem_heads {type : Text} (h : type ∈ Directive.heads) (name : Text)
    (others : List Text) : ∃ d, ofWords (type :: name :: others) = .directive d := by
  rw [ofWords]
  split
  · exact ⟨_, rfl⟩
  split
  · exact ⟨_, rfl⟩
  split
  · exact ⟨_, rfl⟩
  · next htype hnamespace husing =>
    simp only [Directive.heads, List.mem_cons, List.not_mem_nil, or_false] at h
    rcases h with h | h | h
    · exact absurd h htype
    · exact absurd h hnamespace
    · exact absurd h husing

theorem ofWords_of_not_mem_heads {type : Text} (h : type ∉ Directive.heads) (name : Text)
    (others : List Text) : ofWords (type :: name :: others) = .field type name := by
  have htype : type ≠ "type".toList := fun heq => h (by simp [heq, Directive.heads])
  have hnamespace : type ≠ "namespace".toList := fun heq => h (by simp [heq, Directive.heads])
  have husing : type ≠ "using".toList := fun heq => h (by simp [heq, Directive.heads])
  rw [ofWords, if_neg htype, if_neg hnamespace, if_neg husing]

/-- What a raw line says, told by the way it begins and by its words. Where nothing counts of it, it
says nothing. -/
def ofRaw? (raw : Text) : Option Content :=
  let line := trimEnd (dropEndWhile (· == ';') (trim raw))
  if "#".toList.isPrefixOf line then some (.comment (trim (line.drop 1)))
  else if "//".toList.isPrefixOf line then some (.comment (trim (line.drop 2)))
  else
    match words line with
    | [] => none
    | head :: rest => some (ofWords (head :: rest))

end Content

namespace Line

/-! ## Comments -/

theorem comment?_eq_none_iff {line : Text} : comment? line = none
    ↔ ("#".toList.isPrefixOf line || "//".toList.isPrefixOf line) = false := by
  unfold comment?
  split
  · simp [List.isPrefixOf]
  · simp [List.isPrefixOf]
  · next hslash hhash =>
    cases line with
    | nil => simp
    | cons c rest =>
      have hc : c ≠ '#' := fun h => hhash rest (by rw [h])
      cases rest with
      | nil => simp [List.isPrefixOf, hc.symm]
      | cons c' rest =>
        have hc' : ¬ (c = '/' ∧ c' = '/') := fun ⟨h, h'⟩ => hslash rest (by rw [h, h'])
        simp [List.isPrefixOf, hc.symm]
        exact fun h h' => hc' ⟨h.symm, h'.symm⟩

theorem mem_of_mem_comment? {line text : Text} (h : comment? line = some text) {c : Char}
    (hc : c ∈ text) : c ∈ line := by
  unfold comment? at h
  split at h
  · rw [← Option.some.inj h] at hc
    exact List.mem_cons_of_mem _ (List.mem_cons_of_mem _ hc)
  · rw [← Option.some.inj h] at hc
    exact List.mem_cons_of_mem _ hc
  · exact absurd h (Option.some_ne_none text).symm

/-! ## Words -/

/-- **A line that is no comment says what its words say.** -/
theorem classify_eq_ofWords {line : Text} (hne : line ≠ []) (hhead : HeadNotBlank line)
    (hcomment : comment? line = none) : classify line = Content.ofWords (words line) := by
  -- the blanks between the first word and the rest of the line belong to no word
  have hrest : words (line.dropWhile (!isBlank ·))
      = words (trimStart (line.dropWhile (!isBlank ·))) := (words_trimStart _).symm
  rw [classify, hcomment, words_eq_cons hne hhead, hrest]
  have hnil : trimStart (line.dropWhile (!isBlank ·)) = []
      ↔ words (trimStart (line.dropWhile (!isBlank ·))) = [] := by
    rw [words_trimStart, trimStart_eq_nil_iff]
  generalize trimStart (line.dropWhile (!isBlank ·)) = rest at hnil ⊢
  show (if rest.isEmpty then _ else _) = _
  cases hwords : words rest with
  | nil =>
    rw [hnil.2 hwords]
    rfl
  | cons name others =>
    have hne : ¬ rest.isEmpty = true := fun h => by
      rw [hnil.1 (List.isEmpty_iff.1 h)] at hwords
      exact List.cons_ne_nil _ _ hwords.symm
    rw [if_neg hne, ofWords, Content.ofWords, collapse, hwords]
    rfl

/-- **A line of words joined by single spaces says what the words say**, if it does not start as a
comment does and does not end in a semicolon. -/
theorem ofRaw?_intercalate (number : Nat) {ws : List Text} (hne : ws ≠ [])
    (hws : ∀ w ∈ ws, IsWord w) (hcomment : comment? ([' '].intercalate ws) = none)
    (hlast : ([' '].intercalate ws).getLast? ≠ some ';') :
    ofRaw? number ([' '].intercalate ws) = some ⟨number, Content.ofWords ws⟩ := by
  have hwords := words_intercalate hws
  have hhead := headNotBlank_intercalate hws
  have hself : significant ([' '].intercalate ws) = [' '].intercalate ws :=
    significant_eq_self hhead fun c hc =>
      ⟨isBlank_of_getLast?_intercalate hws hc, fun heq => hlast (heq ▸ hc)⟩
  have hline : [' '].intercalate ws ≠ [] := fun heq => by
    rw [heq] at hwords
    exact hne hwords.symm
  rw [ofRaw?, hself]
  show (if ([' '].intercalate ws).isEmpty then none else _) = _
  rw [if_neg (by simpa using hline), classify_eq_ofWords hline hhead hcomment, hwords]

theorem comment?_eq_some_iff {line text : Text} : comment? line = some text
    ↔ line = '#' :: text ∨ line = '/' :: '/' :: text := by
  unfold comment?
  split
  · simp
  · simp
  · next hslash hhash =>
    constructor
    · intro h
      cases h
    · rintro (rfl | rfl)
      · exact absurd rfl (hhash text)
      · exact absurd rfl (hslash text)

/-- **A raw line says what its words say**, and keeps its number. -/
theorem ofRaw?_eq_map (number : Nat) (raw : Text) :
    ofRaw? number raw = (Content.ofRaw? raw).map (Line.mk number) := by
  have hhead := headNotBlank_significant raw
  rw [ofRaw?, Content.ofRaw?, ← significant]
  generalize significant raw = line at hhead ⊢
  cases hcomment : comment? line with
  | some text =>
    rcases comment?_eq_some_iff.1 hcomment with rfl | rfl
    · rfl
    · rfl
  | none =>
    obtain ⟨hhash, hslash⟩ := Bool.or_eq_false_iff.1 (comment?_eq_none_iff.1 hcomment)
    rw [hhash, hslash, if_neg Bool.false_ne_true, if_neg Bool.false_ne_true]
    by_cases hne : line = []
    · subst hne
      rfl
    · rw [if_neg (by simpa using hne), classify_eq_ofWords hne hhead hcomment, words_eq_cons hne hhead]
      rfl

/-- The lines of a text, each told by its words and numbered from one. -/
def ofText (text : Text) : List Line :=
  ((lines text).zipIdx 1).filterMap fun (raw, number) => (Content.ofRaw? raw).map (Line.mk number)

/-! ## Scanning -/

theorem scanFrom_append (number : Nat) (raws raws' : List Text) :
    scanFrom number (raws ++ raws')
      = scanFrom number raws ++ scanFrom (number + raws.length) raws' := by
  induction raws generalizing number with
  | nil => rfl
  | cons raw rest ih =>
    rw [List.cons_append, scanFrom, scanFrom, ih, List.append_assoc, List.length_cons,
      Nat.add_right_comm number 1 rest.length, Nat.add_assoc number rest.length 1]

theorem scanFrom_cons_of_some {number : Nat} {raw : Text} {line : Line}
    (h : ofRaw? number raw = some line) (raws : List Text) :
    scanFrom number (raw :: raws) = line :: scanFrom (number + 1) raws := by
  rw [scanFrom, h]
  rfl

theorem scanFrom_eq_filterMap (number : Nat) (raws : List Text) :
    scanFrom number raws = (raws.zipIdx number).filterMap fun p => ofRaw? p.2 p.1 := by
  induction raws generalizing number with
  | nil => rfl
  | cons raw rest ih =>
    rw [scanFrom, List.zipIdx_cons, List.filterMap_cons, ih]
    cases ofRaw? number raw <;> rfl

/-- **Scanning is line by line**, and the numbers are those of the raw lines. -/
theorem scan_eq_filterMap (text : Text) :
    scan text = ((lines text).zipIdx 1).filterMap fun p => ofRaw? p.2 p.1 :=
  scanFrom_eq_filterMap 1 (lines text)

/-- **Scanning tells the lines of a text by their words.** -/
theorem scan_eq_ofText (text : Text) : scan text = ofText text := by
  rw [scan_eq_filterMap, ofText]
  exact List.filterMap_congr fun p _ => ofRaw?_eq_map p.2 p.1

/-! ## What scanned lines are made of -/

theorem lf_not_mem_intercalate {ws : List Text} (h : ∀ w ∈ ws, IsWord w) :
    '\n' ∉ [' '].intercalate ws := by
  induction ws with
  | nil => simp
  | cons w rest ih =>
    have hw : '\n' ∉ w := (h w List.mem_cons_self).solid.not_mem rfl
    have hrest := ih fun v hv => h v (List.mem_cons_of_mem _ hv)
    cases rest with
    | nil => simpa using hw
    | cons v others =>
      rw [List.intercalate_cons_cons]
      simp [hw, hrest]

theorem sound_ofWords {ws : List Text} (h : ∀ w ∈ ws, IsWord w) : (Content.ofWords ws).Sound := by
  match ws with
  | [] => trivial
  | [_] => trivial
  | head :: name :: rest =>
    have hargument : '\n' ∉ [' '].intercalate (name :: rest) :=
      lf_not_mem_intercalate fun w hw => h w (List.mem_cons_of_mem _ hw)
    rw [Content.ofWords]
    split
    · exact hargument
    split
    · exact hargument
    split
    · exact hargument
    · exact ⟨h head (by simp), h name (by simp)⟩

theorem sound_classify {line : Text} (hline : '\n' ∉ line) (hne : line ≠ [])
    (hhead : HeadNotBlank line) : (classify line).Sound := by
  cases hcomment : comment? line with
  | some text =>
    rw [classify, hcomment]
    exact fun hmem => hline (mem_of_mem_comment? hcomment (mem_of_mem_trim hmem))
  | none =>
    rw [classify_eq_ofWords hne hhead hcomment]
    exact sound_ofWords fun w => isWord_of_mem_words

/-- **What a scanned line says is sound**: a raw line has no line feed, and what counts of it is a
part of it. -/
theorem sound_of_mem_scan {text : Text} {line : Line} (h : line ∈ scan text) :
    line.content.Sound := by
  rw [scan_eq_filterMap] at h
  obtain ⟨⟨raw, number⟩, hmem, hraw⟩ := List.mem_filterMap.1 h
  have hlf : '\n' ∉ raw := not_mem_of_mem_lines (List.fst_mem_of_mem_zipIdx hmem)
  simp only [ofRaw?] at hraw
  split at hraw
  · exact absurd hraw (Option.some_ne_none line).symm
  · next hne =>
    rw [← Option.some.inj hraw]
    exact sound_classify (fun hmem => hlf (mem_of_mem_significant hmem)) (by simpa using hne)
      (headNotBlank_significant raw)

end Line

end MessageCompiler
