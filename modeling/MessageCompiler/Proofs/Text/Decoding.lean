import MessageCompiler.Proofs.Text.Utf8

/-!
# What is decoded was encoded

Cutting bytes into pieces loses none of them: the bytes of a character that is read are those that
it is encoded in, so no text has a second spelling. While a character is read, the bytes seen so far
are the first ones of every character that the next byte may still make (`Begun.Sound`).

* **`sound_of_lead?`, `Begun.Sound.more`, `Begun.Sound.last`**: a first byte begins characters only,
  and each byte goes on with them or completes one.
* **`flatMap_bytes_pieces`**: the bytes of the pieces are the bytes that were read.
* **`decode?_eq_some_iff_eq_encode`**: bytes are decoded as a text exactly if they encode it.
-/

namespace MessageCompiler.Utf8

/-- The bytes that a piece was made of. -/
def Piece.bytes : Piece → Bytes
  | .char c => encodeChar c
  | .stray bytes => bytes

/-- The last `count` bytes of a character with this number, which follow its first one: six bits of
the number in each. -/
def trail : Nat → Nat → Bytes
  | 0, _ => []
  | count + 1, n => (0x80 + n >>> (6 * count) % 0x40).toUInt8 :: trail count n

/-! ## The bytes of a number -/

section Number

variable {n : Nat}

theorem encodeChar_ofNat_one (h : n < 0x80) : encodeChar (Char.ofNat n) = [n.toUInt8] := by
  have hvalid : n.isValidChar := .inl (by omega)
  simp only [encodeChar, toNat_ofNat_of_isValidChar hvalid]
  rw [if_pos h]

theorem encodeChar_ofNat_two (h : 0x80 ≤ n) (h' : n < 0x800) :
    encodeChar (Char.ofNat n) = (0xC0 + n / 0x40).toUInt8 :: trail 1 n := by
  have hvalid : n.isValidChar := .inl (by omega)
  simp only [encodeChar, toNat_ofNat_of_isValidChar hvalid]
  rw [if_neg (by omega), if_pos h']
  simp [trail]

theorem encodeChar_ofNat_three (hvalid : n.isValidChar) (h : 0x800 ≤ n) (h' : n < 0x10000) :
    encodeChar (Char.ofNat n) = (0xE0 + n / 0x1000).toUInt8 :: trail 2 n := by
  simp only [encodeChar, toNat_ofNat_of_isValidChar hvalid]
  rw [if_neg (by omega), if_neg (by omega), if_pos h']
  simp [trail, Nat.shiftRight_eq_div_pow]

theorem encodeChar_ofNat_four (hvalid : n.isValidChar) (h : 0x10000 ≤ n) :
    encodeChar (Char.ofNat n) = (0xF0 + n / 0x40000).toUInt8 :: trail 3 n := by
  simp only [encodeChar, toNat_ofNat_of_isValidChar hvalid]
  rw [if_neg (by omega), if_neg (by omega), if_neg (by omega)]
  simp [trail, Nat.shiftRight_eq_div_pow]

end Number

/-! ## Characters that have begun -/

/-- The bytes seen are the first ones of every character whose number the bytes to come may make: the
number so far stands at its head, and the next byte is within its bounds. -/
structure Begun.Sound (p : Begun) : Prop where
  missing : p.missing ≠ 0
  low : 0x80 ≤ p.low
  high : p.high ≤ 0xBF
  seen : ∀ n, n >>> (6 * p.missing) = p.number →
    p.low ≤ 0x80 + n >>> (6 * (p.missing - 1)) % 0x40 →
    0x80 + n >>> (6 * (p.missing - 1)) % 0x40 ≤ p.high →
    encodeChar (Char.ofNat n) = p.seen ++ trail p.missing n

theorem eq_toUInt8 {b : UInt8} {n : Nat} (h : b.toNat = n) : n.toUInt8 = b := by
  subst h
  exact UInt8.ofNat_toNat

/-- **A first byte begins characters only.** -/
theorem sound_of_lead? {b : UInt8} {l : Lead} (h : lead? b = some l) (hfollowing : l.following ≠ 0) :
    Begun.Sound ⟨[b], l.following, l.payload, l.low, l.high⟩ := by
  obtain ⟨following, payload, low, high⟩ := l
  rcases lead?_cases h with ⟨hzero, -⟩ | ⟨hone, hb, hmin, hmax, hlow, hhigh⟩ |
      ⟨htwo, hb, hmax, hlow, hhigh, hoverlong, hsurrogate⟩ |
      ⟨hthree, hb, hmax, hlow, hhigh, hoverlong, hlast⟩
  · exact absurd hzero hfollowing
  · -- one case for each row of the table: its bounds hold, and its bytes are those of the encoder
    dsimp only at hone hb hmin hmax hlow hhigh
    subst hone
    refine ⟨hfollowing, Nat.le_of_eq hlow.symm, Nat.le_of_eq hhigh, fun n hn _ _ => ?_⟩
    dsimp only at hn ⊢
    rw [encodeChar_ofNat_two (by omega) (by omega), eq_toUInt8 (b := b) (by omega)]
    rfl
  · dsimp only at htwo hb hmax hlow hhigh hoverlong hsurrogate
    subst htwo
    refine ⟨hfollowing, hlow, hhigh, fun n hn hmin hmore => ?_⟩
    dsimp only at hn hmin hmore ⊢
    have hvalid : n.isValidChar := by
      unfold Nat.isValidChar
      omega
    rw [encodeChar_ofNat_three hvalid (by omega) (by omega), eq_toUInt8 (b := b) (by omega)]
    rfl
  · dsimp only at hthree hb hmax hlow hhigh hoverlong hlast
    subst hthree
    refine ⟨hfollowing, hlow, hhigh, fun n hn hmin hmore => ?_⟩
    dsimp only at hn hmin hmore ⊢
    have hvalid : n.isValidChar := by
      unfold Nat.isValidChar
      omega
    rw [encodeChar_ofNat_four hvalid (by omega), eq_toUInt8 (b := b) (by omega)]
    rfl

namespace Begun.Sound

variable {p : Begun} {b : UInt8}

/-- A byte within the bounds is the next one of every character that has it at its head. -/
theorem seen_append (h : p.Sound) (hlow : p.low ≤ b.toNat) (hhigh : b.toNat ≤ p.high) {n : Nat}
    (hn : n >>> (6 * (p.missing - 1)) = p.number * 0x40 + (b.toNat - 0x80)) :
    encodeChar (Char.ofNat n) = p.seen ++ [b] ++ trail (p.missing - 1) n := by
  obtain ⟨m, hm⟩ := Nat.exists_eq_add_one_of_ne_zero h.missing
  have hm' : p.missing - 1 = m := by omega
  have hb : 0x80 ≤ b.toNat ∧ b.toNat ≤ 0xBF :=
    ⟨Nat.le_trans h.low hlow, Nat.le_trans hhigh h.high⟩
  have hseen := h.seen n
  rw [hm', hm] at hseen
  rw [hm'] at hn ⊢
  have hbyte : 0x80 + n >>> (6 * m) % 0x40 = b.toNat := by
    rw [hn]
    omega
  rw [hbyte] at hseen
  have hhead : n >>> (6 * (m + 1)) = p.number := by
    rw [Nat.mul_succ, Nat.shiftRight_add, hn]
    omega
  rw [hseen hhead hlow hhigh, trail, eq_toUInt8 hbyte.symm]
  simp

/-- **A byte within the bounds goes on with what has begun.** -/
theorem more (h : p.Sound) (hlow : p.low ≤ b.toNat) (hhigh : b.toNat ≤ p.high)
    (hmissing : 1 < p.missing) : Begun.Sound ⟨p.seen ++ [b], p.missing - 1,
      p.number * 0x40 + (b.toNat - 0x80), 0x80, 0xBF⟩ where
  missing := by
    dsimp only
    omega
  low := Nat.le_refl _
  high := Nat.le_refl _
  seen _ hn _ _ := h.seen_append hlow hhigh hn

/-- **The last byte completes a character**, which is encoded in the bytes seen. -/
theorem last (h : p.Sound) (hlow : p.low ≤ b.toNat) (hhigh : b.toNat ≤ p.high)
    (hmissing : p.missing ≤ 1) :
    encodeChar (Char.ofNat (p.number * 0x40 + (b.toNat - 0x80))) = p.seen ++ [b] := by
  have hone : p.missing - 1 = 0 := by omega
  rw [h.seen_append hlow hhigh (by rw [hone]; rfl), hone]
  exact List.append_nil _

end Begun.Sound

/-! ## Nothing is lost -/

/-- The bytes of the character that has begun, if any. -/
def seenBytes : Option Begun → Bytes
  | none => []
  | some p => p.seen

/-- A byte that starts a character is kept, in a piece or as what has begun. -/
theorem bytes_startAt (b : UInt8) :
    (startAt b).1.flatMap Piece.bytes ++ seenBytes (startAt b).2 = [b]
      ∧ ∀ p, (startAt b).2 = some p → p.Sound := by
  rcases startAt_cases b with h | ⟨hb, h⟩ | ⟨l, hl, hfollowing, h⟩
  · rw [h]
    exact ⟨rfl, fun p hp => by cases hp⟩
  · rw [h]
    refine ⟨?_, fun p hp => by cases hp⟩
    show encodeChar (Char.ofNat b.toNat) ++ [] ++ [] = [b]
    rw [encodeChar_ofNat_one hb, eq_toUInt8 rfl]
    rfl
  · rw [h]
    refine ⟨rfl, fun p hp => ?_⟩
    rw [← Option.some.inj hp]
    exact sound_of_lead? hl hfollowing

/-- A byte is kept, and what has begun after it is sound if what had begun before it is. -/
theorem bytes_step {begun : Option Begun} (hbegun : ∀ p, begun = some p → p.Sound) (b : UInt8) :
    (step begun b).1.flatMap Piece.bytes ++ seenBytes (step begun b).2 = seenBytes begun ++ [b]
      ∧ ∀ p, (step begun b).2 = some p → p.Sound := by
  obtain ⟨hstart, hsound⟩ := bytes_startAt b
  cases begun with
  | none => exact ⟨hstart, hsound⟩
  | some p =>
    have hp := hbegun p rfl
    by_cases hin : p.low ≤ b.toNat ∧ b.toNat ≤ p.high
    · by_cases hmissing : p.missing ≤ 1
      · rw [step_last hin.1 hin.2 hmissing]
        refine ⟨?_, fun p hp => by cases hp⟩
        simpa [Piece.bytes, seenBytes] using hp.last hin.1 hin.2 hmissing
      · have hmore := Nat.lt_of_not_le hmissing
        rw [step_more hin.1 hin.2 hmore]
        refine ⟨rfl, fun p' hp' => ?_⟩
        rw [← Option.some.inj hp']
        exact hp.more hin.1 hin.2 hmore
    · -- what was begun is given back as it is, and the byte is read as if nothing stood before it
      rw [step_broken hin]
      refine ⟨?_, hsound⟩
      rw [List.flatMap_cons, List.append_assoc, hstart]
      rfl

theorem bytes_piecesFrom {begun : Option Begun} (hbegun : ∀ p, begun = some p → p.Sound)
    (bytes : Bytes) :
    (piecesFrom begun bytes).flatMap Piece.bytes = seenBytes begun ++ bytes := by
  induction bytes generalizing begun with
  | nil => cases begun <;> simp [piecesFrom, Piece.bytes, seenBytes]
  | cons b rest ih =>
    obtain ⟨hbytes, hsound⟩ := bytes_step hbegun b
    rw [piecesFrom_cons, List.flatMap_append, ih hsound, ← List.append_assoc, hbytes,
      List.append_assoc]
    rfl

/-- **Nothing is lost**: the bytes of the pieces are the bytes that were read. -/
theorem flatMap_bytes_pieces (bytes : Bytes) : (pieces bytes).flatMap Piece.bytes = bytes :=
  bytes_piecesFrom (fun p hp => by cases hp) bytes

/-- **Bytes are decoded as a text exactly if they encode it.** -/
theorem decode?_eq_some_iff_eq_encode {bytes : Bytes} {t : Text} :
    decode? bytes = some t ↔ bytes = encode t := by
  constructor
  · intro h
    rw [← flatMap_bytes_pieces bytes, decode?_eq_some_iff.1 h, List.flatMap_map]
    rfl
  · rintro rfl
    exact decode?_encode t

end MessageCompiler.Utf8
