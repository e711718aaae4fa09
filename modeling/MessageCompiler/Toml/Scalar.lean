import MessageCompiler.Toml.Value

/-!
# Unquoted values

The values that are written without quotes or brackets: truth values, numbers, dates and times.
Each is one unbroken piece of text, except that a space may stand between a date and a time.
-/

namespace MessageCompiler.Toml

def isDecimalDigit (c : Char) : Bool := '0' ≤ c && c ≤ '9'

/-- The value of a digit, with letters of either case beyond nine. -/
def digitValue (c : Char) : Nat :=
  let n := c.toNat
  if n < 0x41 then n - 0x30 else if n < 0x61 then n - 0x41 + 10 else n - 0x61 + 10

/-- Whether the character is a digit to a base of at most sixteen. -/
def isDigitOf (base : Nat) (c : Char) : Bool :=
  (isDecimalDigit c || ('a' ≤ c && c ≤ 'f') || ('A' ≤ c && c ≤ 'F')) && digitValue c < base

/-- The number that digits write in a base. -/
def numberOf (base : Nat) (digits : Text) : Nat :=
  digits.foldl (fun n c => n * base + digitValue c) 0

/-- The digits of a number; underscores may stand between digits. -/
def digits? (base : Nat) (t : Text) : Option Text :=
  let groups := Text.splitWhen (· == '_') t
  if groups.all fun group => !group.isEmpty && group.all (isDigitOf base) then some groups.flatten
  else none

/-- The decimal digits of a whole number, which start with zero only for zero itself. -/
def wholeDigits? (t : Text) : Option Text := do
  let digits ← digits? 10 t
  if digits.head? = some '0' && 1 < digits.length then none else some digits

/-- A text without its sign, and whether that is a minus. -/
def signed : Text → Bool × Text
  | '-' :: rest => (true, rest)
  | '+' :: rest => (false, rest)
  | rest => (false, rest)

/-- A whole number, in decimal with a sign or in another base without. -/
def integer? : Text → Option Int
  | '0' :: 'x' :: rest => (digits? 16 rest).map fun ds => (numberOf 16 ds : Int)
  | '0' :: 'o' :: rest => (digits? 8 rest).map fun ds => (numberOf 8 ds : Int)
  | '0' :: 'b' :: rest => (digits? 2 rest).map fun ds => (numberOf 2 ds : Int)
  | t => do
    let (negative, rest) := signed t
    let n : Int := numberOf 10 (← wholeDigits? rest)
    some (if negative then -n else n)

/-- A number with a fraction, an exponent, or both; or one of the special values. -/
def real? (t : Text) : Option Real := do
  let (negative, rest) := signed t
  if rest = "inf".toList then return .infinite negative
  if rest = "nan".toList then return .notANumber
  let (mantissa, tail) := rest.span fun c => c != 'e' && c != 'E'
  let (whole, fraction) := mantissa.span (· != '.')
  if tail.isEmpty && fraction.isEmpty then none
  let wholeDigits ← wholeDigits? whole
  let fractionDigits ← if fraction.isEmpty then some [] else digits? 10 (fraction.drop 1)
  let exponent : Int ←
    if tail.isEmpty then some 0
    else
      let (down, size) := signed (tail.drop 1)
      (digits? 10 size).map fun ds =>
        let n : Int := numberOf 10 ds
        if down then -n else n
  return .decimal negative (numberOf 10 (wholeDigits ++ fractionDigits))
    (exponent - fractionDigits.length)

/-- A number of exactly two digits. -/
def twoDigits? : Text → Option (Nat × Text)
  | a :: b :: rest =>
    if isDecimalDigit a && isDecimalDigit b then some (numberOf 10 [a, b], rest) else none
  | _ => none

def daysIn (year month : Nat) : Nat :=
  if month == 2 then
    if year % 4 == 0 && (year % 100 != 0 || year % 400 == 0) then 29 else 28
  else if [4, 6, 9, 11].contains month then 30
  else 31

/-- What follows a date, if the text starts with one that the calendar has. -/
def afterDate? (t : Text) : Option Text := do
  let (century, t) ← twoDigits? t
  let (year, t) ← twoDigits? t
  let '-' :: t := t | none
  let (month, t) ← twoDigits? t
  let '-' :: t := t | none
  let (day, t) ← twoDigits? t
  if 1 ≤ month && month ≤ 12 && 1 ≤ day && day ≤ daysIn (century * 100 + year) month then some t
  else none

/-- What follows the fraction of a second, if the text starts with one. -/
def afterFraction? : Text → Option Text
  | '.' :: t =>
    let rest := t.dropWhile isDecimalDigit
    if rest.length < t.length then some rest else none
  | t => some t

/-- What follows a time of day, if the text starts with one. Seconds may be left out, and there
may be a leap second. -/
def afterTime? (t : Text) : Option Text := do
  let (hour, t) ← twoDigits? t
  let ':' :: t := t | none
  let (minute, t) ← twoDigits? t
  if 23 < hour || 59 < minute then none
  match t with
  | ':' :: t =>
    let (second, t) ← twoDigits? t
    if 60 < second then none else afterFraction? t
  | t => some t

/-- Whether the text is an offset from universal time, or nothing. -/
def isOffset : Text → Bool
  | [] => true
  | ['Z'] => true
  | ['z'] => true
  | sign :: t =>
    (sign == '+' || sign == '-') &&
      match twoDigits? t with
      | some (hours, ':' :: t) =>
        match twoDigits? t with
        | some (minutes, []) => hours ≤ 23 && minutes ≤ 59
        | _ => false
      | _ => false

/-- Whether the text is a date, a time of day, or both, perhaps with an offset. -/
def isDatetime (t : Text) : Bool :=
  match afterDate? t with
  | some [] => true
  | some (separator :: t) =>
    (separator == 'T' || separator == 't' || separator == ' ') &&
      match afterTime? t with
      | some t => isOffset t
      | none => false
  | none => afterTime? t == some []

/-- The value that an unquoted piece of text stands for. -/
def scalar? (t : Text) : Option Value :=
  if t = "true".toList then some (.boolean true)
  else if t = "false".toList then some (.boolean false)
  else
    match integer? t, real? t with
    | some n, _ => some (.integer n)
    | none, some r => some (.real r)
    | none, none => if isDatetime t then some .datetime else none

end MessageCompiler.Toml
