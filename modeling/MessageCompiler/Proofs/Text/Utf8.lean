import Mathlib.Data.List.Basic
import MessageCompiler.Text.Utf8

/-!
# UTF-8 and back

Decoding undoes encoding, and a slash is the byte of the character `/` in both directions: no other
character has it among its bytes, and no bytes without it are read as one.

* **`lead?_cases`, `startAt_cases`, `step_last`, `step_more`, `step_broken`**: all that reading a byte
  can do.
* **`decode?_encode`**: an encoded text is decoded as it was; `encode_injective` follows.
* **`mem_of_mem_encode`**, **`mem_of_mem_decode?`**: where a byte and a character in the range of
  ASCII come from.
-/

namespace MessageCompiler.Utf8

theorem toNat_toUInt8 {n : Nat} (h : n < 0x100) : n.toUInt8.toNat = n :=
  UInt8.toNat_ofNat_of_lt' h

theorem toNat_ofNat_of_isValidChar {n : Nat} (h : n.isValidChar) : (Char.ofNat n).toNat = n := by
  rw [Char.ofNat, dif_pos h]
  rfl

theorem toNat_ofNat (n : Nat) : (Char.ofNat n).toNat = n ∨ (Char.ofNat n).toNat = 0 := by
  by_cases h : n.isValidChar
  · exact .inl (toNat_ofNat_of_isValidChar h)
  · rw [Char.ofNat, dif_neg h]
    exact .inr rfl

/-! ## Reading byte by byte -/

/-- **What a first byte announces**: the byte is its mark and the payload, and the bounds of the next
one shut out what is no character of that length. -/
theorem lead?_cases {b : UInt8} {l : Lead} (h : lead? b = some l) :
    (l.following = 0 ∧ l.payload = b.toNat ∧ b.toNat < 0x80)
    ∨ (l.following = 1 ∧ b.toNat = 0xC0 + l.payload ∧ 2 ≤ l.payload ∧ l.payload < 0x20
      ∧ l.low = 0x80 ∧ l.high = 0xBF)
    ∨ (l.following = 2 ∧ b.toNat = 0xE0 + l.payload ∧ l.payload < 0x10
      ∧ 0x80 ≤ l.low ∧ l.high ≤ 0xBF ∧ (l.payload = 0 → 0xA0 ≤ l.low)
      ∧ (l.payload = 13 → l.high ≤ 0x9F))
    ∨ (l.following = 3 ∧ b.toNat = 0xF0 + l.payload ∧ l.payload ≤ 4
      ∧ 0x80 ≤ l.low ∧ l.high ≤ 0xBF ∧ (l.payload = 0 → 0x90 ≤ l.low)
      ∧ (l.payload = 4 → l.high ≤ 0x8F)) := by
  simp only [lead?, beq_iff_eq] at h
  repeat' split at h
  all_goals
    cases h
    try (dsimp only; omega)

/-- **What a byte may start**: nothing, a character that it is all of, or one that goes on. -/
theorem startAt_cases (b : UInt8) :
    startAt b = ([.stray [b]], none)
    ∨ (b.toNat < 0x80 ∧ startAt b = ([.char (Char.ofNat b.toNat)], none))
    ∨ ∃ l, lead? b = some l ∧ l.following ≠ 0
      ∧ startAt b = ([], some ⟨[b], l.following, l.payload, l.low, l.high⟩) := by
  unfold startAt
  cases hl : lead? b with
  | none => exact .inl rfl
  | some l =>
    refine .inr ?_
    by_cases hfollowing : l.following = 0
    · obtain ⟨hpayload, hb⟩ : l.payload = b.toNat ∧ b.toNat < 0x80 := by
        have := lead?_cases hl
        omega
      exact .inl ⟨hb, by simp [hfollowing, hpayload]⟩
    · exact .inr ⟨l, rfl, hfollowing, by simp [hfollowing]⟩

section Step

variable {p : Begun} {b : UInt8}

/-- The last byte of a character completes it. -/
theorem step_last (hlow : p.low ≤ b.toNat) (hhigh : b.toNat ≤ p.high) (hmissing : p.missing ≤ 1) :
    step (some p) b = ([.char (Char.ofNat (p.number * 0x40 + (b.toNat - 0x80)))], none) := by
  simp [step, hlow, hhigh, hmissing]

/-- A byte before the last one goes on with a character. -/
theorem step_more (hlow : p.low ≤ b.toNat) (hhigh : b.toNat ≤ p.high) (hmissing : 1 < p.missing) :
    step (some p) b = ([], some ⟨p.seen ++ [b], p.missing - 1,
      p.number * 0x40 + (b.toNat - 0x80), 0x80, 0xBF⟩) := by
  simp [step, hlow, hhigh, Nat.not_le.2 hmissing]

/-- A byte out of bounds breaks a character off, and is read as a first byte. -/
theorem step_broken (h : ¬ (p.low ≤ b.toNat ∧ b.toNat ≤ p.high)) :
    step (some p) b = (.stray p.seen :: (startAt b).1, (startAt b).2) := by
  have hout : (decide (p.low ≤ b.toNat) && decide (b.toNat ≤ p.high)) = false := by simpa using h
  rw [step, hout, if_neg Bool.false_ne_true]

theorem piecesFrom_cons (begun : Option Begun) (b : UInt8) (rest : Bytes) :
    piecesFrom begun (b :: rest) = (step begun b).1 ++ piecesFrom (step begun b).2 rest := by
  cases begun <;> rfl

theorem piecesFrom_lead {l : Lead} (h : lead? b = some l) (hfollowing : l.following ≠ 0)
    (rest : Bytes) : piecesFrom none (b :: rest)
      = piecesFrom (some ⟨[b], l.following, l.payload, l.low, l.high⟩) rest := by
  have hstep : step none b = ([], some ⟨[b], l.following, l.payload, l.low, l.high⟩) := by
    simp [step, startAt, h, hfollowing]
  rw [piecesFrom_cons, hstep, List.nil_append]

theorem piecesFrom_more (hlow : p.low ≤ b.toNat) (hhigh : b.toNat ≤ p.high)
    (hmissing : 1 < p.missing) (rest : Bytes) : piecesFrom (some p) (b :: rest)
      = piecesFrom (some ⟨p.seen ++ [b], p.missing - 1, p.number * 0x40 + (b.toNat - 0x80), 0x80,
          0xBF⟩) rest := by
  rw [piecesFrom_cons, step_more hlow hhigh hmissing, List.nil_append]

theorem piecesFrom_last (hlow : p.low ≤ b.toNat) (hhigh : b.toNat ≤ p.high)
    (hmissing : p.missing ≤ 1) (rest : Bytes) : piecesFrom (some p) (b :: rest)
      = .char (Char.ofNat (p.number * 0x40 + (b.toNat - 0x80))) :: piecesFrom none rest := by
  rw [piecesFrom_cons, step_last hlow hhigh hmissing, List.singleton_append]

end Step

/-! ## Decoding what was encoded -/

section Encoded

variable {n : Nat}

theorem piecesFrom_one (h : n < 0x80) (rest : Bytes) :
    piecesFrom none (n.toUInt8 :: rest) = .char (Char.ofNat n) :: piecesFrom none rest := by
  have hbyte : n.toUInt8.toNat = n := toNat_toUInt8 (by omega)
  have hstep : step none n.toUInt8 = ([.char (Char.ofNat n)], none) := by
    simp [step, startAt, lead?, hbyte, h]
  rw [piecesFrom_cons, hstep, List.singleton_append]

theorem piecesFrom_two (h : 0x80 ≤ n) (h' : n < 0x800) (rest : Bytes) :
    piecesFrom none ((0xC0 + n / 0x40).toUInt8 :: (0x80 + n % 0x40).toUInt8 :: rest)
      = .char (Char.ofNat n) :: piecesFrom none rest := by
  have hb1 : (0xC0 + n / 0x40).toUInt8.toNat = 0xC0 + n / 0x40 := toNat_toUInt8 (by omega)
  have hb2 : (0x80 + n % 0x40).toUInt8.toNat = 0x80 + n % 0x40 := toNat_toUInt8 (by omega)
  have hlead : lead? (0xC0 + n / 0x40).toUInt8 = some ⟨1, n / 0x40, 0x80, 0xBF⟩ := by
    rw [lead?, hb1]
    grind
  have hn : n / 0x40 * 0x40 + (0x80 + n % 0x40 - 0x80) = n := by omega
  rw [piecesFrom_lead hlead Nat.one_ne_zero,
    piecesFrom_last (by rw [hb2]; show 0x80 ≤ _; omega) (by rw [hb2]; show _ ≤ 0xBF; omega)
      (Nat.le_refl 1), hb2, hn]

theorem piecesFrom_three (h : 0x800 ≤ n) (h' : n < 0x10000) (hvalid : n < 0xD800 ∨ 0xDFFF < n)
    (rest : Bytes) :
    piecesFrom none ((0xE0 + n / 0x1000).toUInt8 :: (0x80 + n / 0x40 % 0x40).toUInt8
        :: (0x80 + n % 0x40).toUInt8 :: rest)
      = .char (Char.ofNat n) :: piecesFrom none rest := by
  have hb1 : (0xE0 + n / 0x1000).toUInt8.toNat = 0xE0 + n / 0x1000 := toNat_toUInt8 (by omega)
  have hb2 : (0x80 + n / 0x40 % 0x40).toUInt8.toNat = 0x80 + n / 0x40 % 0x40 :=
    toNat_toUInt8 (by omega)
  have hb3 : (0x80 + n % 0x40).toUInt8.toNat = 0x80 + n % 0x40 := toNat_toUInt8 (by omega)
  obtain ⟨low, high, hlead, hlow, hhigh⟩ : ∃ low high,
      lead? (0xE0 + n / 0x1000).toUInt8 = some ⟨2, n / 0x1000, low, high⟩
        ∧ low ≤ 0x80 + n / 0x40 % 0x40 ∧ 0x80 + n / 0x40 % 0x40 ≤ high := by
    -- overlong forms and surrogates are what the bounds after E0 and ED shut out
    by_cases hfirst : n / 0x1000 = 0
    · exact ⟨0xA0, 0xBF, by rw [lead?, hb1, hfirst]; rfl, by omega, by omega⟩
    by_cases hsurrogate : n / 0x1000 = 13
    · exact ⟨0x80, 0x9F, by rw [lead?, hb1, hsurrogate]; rfl, by omega, by omega⟩
    · refine ⟨0x80, 0xBF, ?_, by omega, by omega⟩
      rw [lead?, hb1]
      grind
  rw [piecesFrom_lead hlead (Nat.succ_ne_zero 1),
    piecesFrom_more (by rw [hb2]; exact hlow) (by rw [hb2]; exact hhigh) (Nat.lt_succ_self 1),
    piecesFrom_last (by rw [hb3]; show 0x80 ≤ _; omega) (by rw [hb3]; show _ ≤ 0xBF; omega)
      (Nat.le_refl 1), hb2, hb3]
  have hn : (n / 0x1000 * 0x40 + (0x80 + n / 0x40 % 0x40 - 0x80)) * 0x40
      + (0x80 + n % 0x40 - 0x80) = n := by omega
  rw [hn]

theorem piecesFrom_four (h : 0x10000 ≤ n) (h' : n < 0x110000) (rest : Bytes) :
    piecesFrom none ((0xF0 + n / 0x40000).toUInt8 :: (0x80 + n / 0x1000 % 0x40).toUInt8
        :: (0x80 + n / 0x40 % 0x40).toUInt8 :: (0x80 + n % 0x40).toUInt8 :: rest)
      = .char (Char.ofNat n) :: piecesFrom none rest := by
  have hb1 : (0xF0 + n / 0x40000).toUInt8.toNat = 0xF0 + n / 0x40000 := toNat_toUInt8 (by omega)
  have hb2 : (0x80 + n / 0x1000 % 0x40).toUInt8.toNat = 0x80 + n / 0x1000 % 0x40 :=
    toNat_toUInt8 (by omega)
  have hb3 : (0x80 + n / 0x40 % 0x40).toUInt8.toNat = 0x80 + n / 0x40 % 0x40 :=
    toNat_toUInt8 (by omega)
  have hb4 : (0x80 + n % 0x40).toUInt8.toNat = 0x80 + n % 0x40 := toNat_toUInt8 (by omega)
  -- the second byte is bounded by the first: the lowest one excludes overlong forms, the highest one
  -- what is past the last character
  obtain ⟨low, high, hlead, hlow, hhigh⟩ : ∃ low high,
      lead? (0xF0 + n / 0x40000).toUInt8 = some ⟨3, n / 0x40000, low, high⟩
        ∧ low ≤ 0x80 + n / 0x1000 % 0x40 ∧ 0x80 + n / 0x1000 % 0x40 ≤ high := by
    by_cases hfirst : n / 0x40000 = 0
    · exact ⟨0x90, 0xBF, by rw [lead?, hb1, hfirst]; rfl, by omega, by omega⟩
    by_cases hlast : n / 0x40000 = 4
    · exact ⟨0x80, 0x8F, by rw [lead?, hb1, hlast]; rfl, by omega, by omega⟩
    · refine ⟨0x80, 0xBF, ?_, by omega, by omega⟩
      rw [lead?, hb1]
      grind
  rw [piecesFrom_lead hlead (Nat.succ_ne_zero 2),
    piecesFrom_more (by rw [hb2]; exact hlow) (by rw [hb2]; exact hhigh) (show 1 < 3 by omega),
    piecesFrom_more (by rw [hb3]; show 0x80 ≤ _; omega) (by rw [hb3]; show _ ≤ 0xBF; omega)
      (show 1 < 2 by omega),
    piecesFrom_last (by rw [hb4]; show 0x80 ≤ _; omega) (by rw [hb4]; show _ ≤ 0xBF; omega)
      (Nat.le_refl 1), hb2, hb3, hb4]
  have hn : ((n / 0x40000 * 0x40 + (0x80 + n / 0x1000 % 0x40 - 0x80)) * 0x40
      + (0x80 + n / 0x40 % 0x40 - 0x80)) * 0x40 + (0x80 + n % 0x40 - 0x80) = n := by omega
  rw [hn]

end Encoded

/-- **The bytes of a character are read as that character**, whatever follows them. -/
theorem piecesFrom_encodeChar (c : Char) (rest : Bytes) :
    piecesFrom none (encodeChar c ++ rest) = .char c :: piecesFrom none rest := by
  have hvalid : c.toNat < 0xD800 ∨ 0xDFFF < c.toNat ∧ c.toNat < 0x110000 := c.valid
  have hc : Char.ofNat c.toNat = c := Char.ofNat_toNat c
  conv_rhs => rw [← hc]
  simp only [encodeChar]
  split
  · next h => exact piecesFrom_one h rest
  split
  · next h h' => exact piecesFrom_two (by omega) h' rest
  split
  · next h h' => exact piecesFrom_three (by omega) h' (by omega) rest
  · next h => exact piecesFrom_four (by omega) (by omega) rest

theorem pieces_encode (t : Text) : pieces (encode t) = t.map .char := by
  induction t with
  | nil => rfl
  | cons c rest ih =>
    rw [encode, List.flatMap_cons, pieces, piecesFrom_encodeChar, List.map_cons]
    exact congrArg _ ih

theorem decode?_eq_some_iff {bytes : Bytes} {t : Text} :
    decode? bytes = some t ↔ pieces bytes = t.map .char := by
  rw [decode?]
  generalize pieces bytes = ps
  induction ps generalizing t with
  | nil => cases t <;> simp
  | cons piece rest ih =>
    cases piece with
    | stray stray => cases t <;> simp
    | char c =>
      simp only [List.mapM_cons, Option.bind_eq_bind, Option.bind_some, Option.pure_def,
        Option.bind_eq_some_iff, ih]
      cases t with
      | nil => simp
      | cons d t' => simp [eq_comm, and_comm]

/-- **Decoding undoes encoding.** -/
@[simp] theorem decode?_encode (t : Text) : decode? (encode t) = some t :=
  decode?_eq_some_iff.2 (pieces_encode t)

theorem encode_injective {s t : Text} (h : encode s = encode t) : s = t := by
  have hdecode := decode?_encode s
  rw [h, decode?_encode] at hdecode
  exact (Option.some.inj hdecode).symm

/-! ## Bytes and characters in the range of ASCII -/

/-- **A byte in the range of ASCII is the byte of a character.** -/
theorem mem_of_mem_encode {t : Text} {b : UInt8} (hb : b.toNat < 0x80) (h : b ∈ encode t) :
    Char.ofNat b.toNat ∈ t := by
  obtain ⟨c, hc, hmem⟩ := List.mem_flatMap.1 h
  have hvalid : c.toNat < 0xD800 ∨ 0xDFFF < c.toNat ∧ c.toNat < 0x110000 := c.valid
  have hwide : ∀ n, 0x80 ≤ n → n < 0x100 → b ≠ n.toUInt8 := fun n hn hn' heq => by
    rw [heq, toNat_toUInt8 hn'] at hb
    omega
  suffices b.toNat = c.toNat by
    rw [this, Char.ofNat_toNat]
    exact hc
  simp only [encodeChar] at hmem
  split at hmem
  · next hn =>
    rw [List.mem_singleton.1 hmem]
    exact toNat_toUInt8 (by omega)
  -- all bytes of the longer forms are above the range
  split at hmem
  · rcases List.mem_pair.1 hmem with h | h
    · exact absurd h (hwide _ (by omega) (by omega))
    · exact absurd h (hwide _ (by omega) (by omega))
  split at hmem
  · simp only [List.mem_cons, List.not_mem_nil, or_false] at hmem
    rcases hmem with h | h | h
    · exact absurd h (hwide _ (by omega) (by omega))
    · exact absurd h (hwide _ (by omega) (by omega))
    · exact absurd h (hwide _ (by omega) (by omega))
  · simp only [List.mem_cons, List.not_mem_nil, or_false] at hmem
    rcases hmem with h | h | h | h
    · exact absurd h (hwide _ (by omega) (by omega))
    · exact absurd h (hwide _ (by omega) (by omega))
    · exact absurd h (hwide _ (by omega) (by omega))
    · exact absurd h (hwide _ (by omega) (by omega))

/-- A character that has begun is none of the range of ASCII: the next byte makes its number large
enough, or large enough to become so with the byte after that. -/
def Begun.Wide (p : Begun) : Prop :=
  0x80 ≤ p.low ∧ 2 ≤ p.number * 0x40 + (p.low - 0x80)
    ∧ (p.missing ≤ 1 → 0x80 ≤ p.number * 0x40 + (p.low - 0x80))

theorem wide_of_lead? {b : UInt8} {l : Lead} (h : lead? b = some l) (hfollowing : l.following ≠ 0) :
    Begun.Wide ⟨[b], l.following, l.payload, l.low, l.high⟩ := by
  unfold Begun.Wide
  dsimp only
  -- the bounds of the next byte shut out the numbers that are too small
  rcases lead?_cases h with hzero | hone | htwo | hthree
  · exact absurd hzero.1 hfollowing
  · omega
  · omega
  · omega

/-- A byte that continues a character does not make its number smaller. -/
theorem Begun.Wide.more {p : Begun} (h : p.Wide) {b : UInt8} (hb : p.low ≤ b.toNat)
    (hmissing : 1 < p.missing) : Begun.Wide ⟨p.seen ++ [b], p.missing - 1,
      p.number * 0x40 + (b.toNat - 0x80), 0x80, 0xBF⟩ := by
  obtain ⟨hlow, hnumber, -⟩ := h
  unfold Begun.Wide
  dsimp only
  omega

/-- A byte that starts a character completes none but its own. -/
theorem startAt_spec (b : UInt8) :
    (∀ p, (startAt b).2 = some p → p.Wide)
      ∧ ∀ c, .char c ∈ (startAt b).1 → c = Char.ofNat b.toNat := by
  rcases startAt_cases b with h | ⟨-, h⟩ | ⟨l, hl, hfollowing, h⟩
  · rw [h]
    exact ⟨fun _ hp => (by cases hp), fun c hc => (by cases List.mem_singleton.1 hc)⟩
  · rw [h]
    exact ⟨fun _ hp => (by cases hp), fun c hc => Piece.char.inj (List.mem_singleton.1 hc)⟩
  · rw [h]
    refine ⟨fun p hp => ?_, fun c hc => (by cases hc)⟩
    rw [← Option.some.inj hp]
    exact wide_of_lead? hl hfollowing

/-- **A character in the range of ASCII comes from its byte.** The induction is on the bytes; a
character that has begun before them is none of the range. -/
theorem mem_of_mem_piecesFrom {c : Char} (hpos : 0 < c.toNat) (hc : c.toNat < 0x80) {bytes : Bytes}
    {begun : Option Begun} (hbegun : ∀ p, begun = some p → p.Wide)
    (h : .char c ∈ piecesFrom begun bytes) : ∃ b ∈ bytes, Char.ofNat b.toNat = c := by
  induction bytes generalizing begun with
  | nil =>
    cases begun with
    | none => cases h
    | some p => cases List.mem_singleton.1 h
  | cons b rest ih =>
    have hrest {begun : Option Begun} (hwide : ∀ p, begun = some p → p.Wide)
        (hmem : .char c ∈ piecesFrom begun rest) : ∃ b' ∈ b :: rest, Char.ofNat b'.toNat = c := by
      obtain ⟨b', hb', heq⟩ := ih hwide hmem
      exact ⟨b', List.mem_cons_of_mem _ hb', heq⟩
    obtain ⟨hstart, hown⟩ := startAt_spec b
    rw [piecesFrom_cons, List.mem_append] at h
    cases begun with
    | none =>
      rcases h with h | h
      · exact ⟨b, List.mem_cons_self, (hown c h).symm⟩
      · exact hrest hstart h
    | some p =>
      obtain ⟨-, -, hnumber⟩ := hbegun p rfl
      -- the byte goes on with the character, or breaks it off and is read as a first byte
      by_cases hin : p.low ≤ b.toNat ∧ b.toNat ≤ p.high
      · by_cases hmissing : p.missing ≤ 1
        · rw [step_last hin.1 hin.2 hmissing] at h
          rcases h with h | h
          · have hcode : 0x80 ≤ p.number * 0x40 + (b.toNat - 0x80) := by
              have := hnumber hmissing
              omega
            have hchar := Piece.char.inj (List.mem_singleton.1 h)
            -- a number that no character has is read as the character of number zero
            rcases toNat_ofNat (p.number * 0x40 + (b.toNat - 0x80)) with hnat | hnat
            · rw [hchar, hnat] at hc
              exact absurd hc (Nat.not_lt.2 hcode)
            · rw [hchar, hnat] at hpos
              exact absurd hpos (Nat.lt_irrefl 0)
          · exact hrest (fun _ hp' => (by cases hp')) h
        · have hmore := Nat.lt_of_not_le hmissing
          rw [step_more hin.1 hin.2 hmore] at h
          refine hrest (fun p' hp' => ?_) (h.resolve_left List.not_mem_nil)
          rw [← Option.some.inj hp']
          exact (hbegun p rfl).more hin.1 hmore
      · rw [step_broken hin] at h
        rcases h with h | h
        · refine ⟨b, List.mem_cons_self, (hown c ?_).symm⟩
          exact (List.mem_cons.1 h).resolve_left fun heq => by cases heq
        · exact hrest hstart h

/-- A character in the range of ASCII that is decoded comes from its byte. -/
theorem mem_of_mem_decode? {bytes : Bytes} {t : Text} (h : decode? bytes = some t) {c : Char}
    (hpos : 0 < c.toNat) (hc : c.toNat < 0x80) (hmem : c ∈ t) :
    ∃ b ∈ bytes, Char.ofNat b.toNat = c := by
  have hpieces : .char c ∈ piecesFrom none bytes := by
    rw [show piecesFrom none bytes = t.map .char from decode?_eq_some_iff.1 h]
    exact List.mem_map_of_mem hmem
  exact mem_of_mem_piecesFrom hpos hc (fun p hp => by cases hp) hpieces

end MessageCompiler.Utf8
