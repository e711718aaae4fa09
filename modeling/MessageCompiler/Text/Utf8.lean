import MessageCompiler.Text.Basic

/-!
# UTF-8

Encoding, strict decoding, and decoding that keeps what it cannot read. `pieces` cuts bytes into
characters and into *stray* runs, the longest beginnings of a character that the next byte does
not continue; strict decoding wants no stray run, and a shown text puts U+FFFD for each.
-/

namespace MessageCompiler.Utf8

/-- Bytes as they stand in a file or a file name. -/
abbrev Bytes := List UInt8

def encodeChar (c : Char) : Bytes :=
  let n := c.toNat
  if n < 0x80 then [n.toUInt8]
  else if n < 0x800 then [(0xC0 + n / 0x40).toUInt8, (0x80 + n % 0x40).toUInt8]
  else if n < 0x10000 then
    [(0xE0 + n / 0x1000).toUInt8, (0x80 + n / 0x40 % 0x40).toUInt8, (0x80 + n % 0x40).toUInt8]
  else
    [(0xF0 + n / 0x40000).toUInt8, (0x80 + n / 0x1000 % 0x40).toUInt8,
      (0x80 + n / 0x40 % 0x40).toUInt8, (0x80 + n % 0x40).toUInt8]

def encode (t : Text) : Bytes := t.flatMap encodeChar

/-- What a byte announces: how many bytes follow it, the payload it carries, and the bounds of the
byte right after it, which shut out overlong forms, surrogates and numbers above U+10FFFF. -/
structure Lead where
  following : Nat
  payload : Nat
  low : Nat
  high : Nat

/-- What the first byte of a character announces; none for a byte that starts no character. -/
def lead? (b : UInt8) : Option Lead :=
  let n := b.toNat
  if n < 0x80 then some ⟨0, n, 0, 0⟩
  -- bytes in the middle of a character, and two heads of what one byte encodes
  else if n < 0xC2 then none
  else if n < 0xE0 then some ⟨1, n - 0xC0, 0x80, 0xBF⟩
  -- the second byte is bounded so that no character has two encodings and no surrogate has one
  else if n == 0xE0 then some ⟨2, 0, 0xA0, 0xBF⟩
  else if n == 0xED then some ⟨2, 13, 0x80, 0x9F⟩
  else if n < 0xF0 then some ⟨2, n - 0xE0, 0x80, 0xBF⟩
  else if n == 0xF0 then some ⟨3, 0, 0x90, 0xBF⟩
  else if n < 0xF4 then some ⟨3, n - 0xF0, 0x80, 0xBF⟩
  else if n == 0xF4 then some ⟨3, 4, 0x80, 0x8F⟩
  else none

/-- One piece of a byte sequence: a character, or bytes that belong to none. -/
inductive Piece where
  | char (c : Char)
  | stray (bytes : Bytes)
  deriving DecidableEq

/-- A character that has begun: its bytes so far, how many are still to come, its number so far,
and the bounds of the next byte. -/
structure Begun where
  seen : Bytes
  missing : Nat
  number : Nat
  low : Nat
  high : Nat

/-- Reads a byte that has to start a character: what it completes, and what it begins. -/
def startAt (b : UInt8) : List Piece × Option Begun :=
  match lead? b with
  | none => ([.stray [b]], none)
  | some l =>
    if l.following == 0 then ([.char (Char.ofNat l.payload)], none)
    else ([], some ⟨[b], l.following, l.payload, l.low, l.high⟩)

/-- Reads one byte: what it completes, and the character that has then begun. -/
def step : Option Begun → UInt8 → List Piece × Option Begun
  | none, b => startAt b
  | some p, b =>
    if p.low ≤ b.toNat && b.toNat ≤ p.high then
      let number := p.number * 0x40 + (b.toNat - 0x80)
      if p.missing ≤ 1 then ([.char (Char.ofNat number)], none)
      else ([], some ⟨p.seen ++ [b], p.missing - 1, number, 0x80, 0xBF⟩)
    else
      -- the character is broken off, and the byte may start another
      let (pieces, begun) := startAt b
      (.stray p.seen :: pieces, begun)

/-- The pieces of the bytes, given the character that has begun before them, if any. -/
def piecesFrom : Option Begun → Bytes → List Piece
  | none, [] => []
  | some p, [] => [.stray p.seen]
  | begun, b :: rest =>
    let (pieces, next) := step begun b
    pieces ++ piecesFrom next rest

/-- The characters and stray runs of a byte sequence, in order. -/
def pieces (bytes : Bytes) : List Piece := piecesFrom none bytes

/-- The text that the bytes encode, unless a stray run is among them. -/
def decode? (bytes : Bytes) : Option Text :=
  (pieces bytes).mapM fun
    | .char c => some c
    | .stray _ => none

/-- The text to show for the bytes: U+FFFD stands for each stray run. -/
def shown (bytes : Bytes) : Text :=
  (pieces bytes).map fun
    | .char c => c
    | .stray _ => '\uFFFD'

end MessageCompiler.Utf8
