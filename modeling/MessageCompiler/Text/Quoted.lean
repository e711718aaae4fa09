import MessageCompiler.Text.Unseen
import MessageCompiler.Text.Utf8

/-!
# Quoted bytes

Bytes between double quotes, as messages name a file: a quote and a backslash are marked with a
backslash, unseen characters are written by their number, and bytes that encode no character are
written in hexadecimal. A single quote stands for itself.
-/

namespace MessageCompiler.Text

/-- A number in hexadecimal with lower-case digits. -/
def hexLower (n : Nat) : Text := Nat.toDigits 16 n

/-- A byte as two hexadecimal digits in upper case. -/
def hexByte (b : UInt8) : Text :=
  [b.toNat / 16, b.toNat % 16].map fun d =>
    if d < 10 then Char.ofNat (0x30 + d) else Char.ofNat (0x41 + (d - 10))

/-- A character as it stands between double quotes. -/
def quotedChar (c : Char) : Text :=
  if c = '\x00' then "\\0".toList
  else if c = '\t' then "\\t".toList
  else if c = '\r' then "\\r".toList
  else if c = '\n' then "\\n".toList
  else if c = '"' || c = '\\' then ['\\', c]
  else if isUnseen c then "\\u\x7b".toList ++ hexLower c.toNat ++ ['\x7d']
  else [c]

/-- The bytes between double quotes. -/
def quoted (bytes : Utf8.Bytes) : Text :=
  ['"'] ++ (Utf8.pieces bytes).flatMap piece ++ ['"']
where
  /-- A character, or the bytes of a stray run one by one. -/
  piece : Utf8.Piece → Text
    | .char c => quotedChar c
    | .stray stray => stray.flatMap fun b => "\\x".toList ++ hexByte b

end MessageCompiler.Text
