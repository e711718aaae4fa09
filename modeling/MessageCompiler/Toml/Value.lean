import MessageCompiler.Text.Basic

/-!
# TOML values

What a TOML document says. A table remembers how it came to be, since that decides who may add to
it: a header opens a table once, dotted keys go on in tables that dotted keys made, and an inline
table is complete as it stands.
-/

namespace MessageCompiler.Toml

/-- How a table came to be. -/
inductive Origin where
  /-- A header names it; so does the start of the document. -/
  | header
  /-- A header names a table inside it. -/
  | implied
  /-- A dotted key leads through it. -/
  | dotted
  /-- It is written between braces. -/
  | inline
  deriving DecidableEq, Repr

/-- A number with a fraction or an exponent. -/
inductive Real where
  /-- The number `digits * 10 ^ exponent`, perhaps negated. -/
  | decimal (negative : Bool) (digits : Nat) (exponent : Int)
  | infinite (negative : Bool)
  | notANumber
  deriving DecidableEq, Repr

/-- Whether a number lies within the range of double precision, rounding included. -/
def Real.inRange : Real → Bool
  | .decimal _ digits exponent =>
    let length : Int := (Nat.toDigits 10 digits).length
    if digits == 0 || length + exponent < 300 then true
    else if 400 < length + exponent then false
    else digits * Nat.pow 10 exponent.toNat
        < (Nat.pow 2 1024 - Nat.pow 2 970) * Nat.pow 10 (-exponent).toNat
  | .infinite _ => true
  | .notANumber => true

/-- A value of a document. -/
inductive Value where
  | text (t : Text)
  | integer (n : Int)
  | real (r : Real)
  | boolean (b : Bool)
  /-- A date, a time of day, or both; which one does not matter here. -/
  | datetime
  /-- An array; `ofTables` tells those that headers add to from those between brackets. -/
  | array (ofTables : Bool) (items : List Value)
  | table (origin : Origin) (entries : List (Text × Value))

mutual

/-- Whether every number in a value has a machine representation: 128 bits for an integer, double
precision for any other. -/
def Value.isRepresentable : Value → Bool
  | .integer n => -(Nat.pow 2 127 : Int) ≤ n && n < (Nat.pow 2 128 : Int)
  | .real r => r.inRange
  | .array _ items => allRepresentable items
  | .table _ entries => entriesRepresentable entries
  | .text _ => true
  | .boolean _ => true
  | .datetime => true

/-- Whether all these values are representable. -/
def allRepresentable : List Value → Bool
  | [] => true
  | v :: rest => v.isRepresentable && allRepresentable rest

/-- Whether the values of all these entries are representable. -/
def entriesRepresentable : List (Text × Value) → Bool
  | [] => true
  | (_, v) :: rest => v.isRepresentable && entriesRepresentable rest

end

/-- A table, with its entries in the order in which they came. -/
structure Table where
  origin : Origin
  entries : List (Text × Value)

namespace Table

def toValue (t : Table) : Value := .table t.origin t.entries

def get? (key : Text) (t : Table) : Option Value := t.entries.lookup key

/-- The table with a value for a key, in place of the one it had. -/
def set (key : Text) (value : Value) (t : Table) : Table :=
  { t with
    entries :=
      if (t.get? key).isSome then
        t.entries.map fun entry => if entry.1 = key then (key, value) else entry
      else t.entries ++ [(key, value)] }

/-- The table with one more key; no key may come twice. -/
def add? (key : Text) (value : Value) (t : Table) : Option Table :=
  if (t.get? key).isSome then none else some (t.set key value)

/-- Whether a path may lead through a table of this origin that is there already, where missing
tables are made with the origin `made`. -/
def mayEnter (made origin : Origin) : Bool :=
  match made, origin with
  | _, .inline => false
  | .dotted, .header => false
  | _, _ => true

/-- Changes the table that a path leads to. Missing tables on the way are made with the origin
`made`; an array of tables leads on through its last table. -/
def change (made : Origin) (f : Table → Option Table) : List Text → Table → Option Table
  | [], t => f t
  | key :: path, t => do
    match t.get? key with
    | none =>
      let inner ← change made f path ⟨made, []⟩
      some (t.set key inner.toValue)
    | some (.table origin entries) =>
      if mayEnter made origin then
        let inner ← change made f path ⟨origin, entries⟩
        some (t.set key inner.toValue)
      else none
    | some (.array true items) =>
      -- the path goes on in the element that was opened last
      match items.getLast? with
      | some (.table origin entries) =>
        let inner ← change made f path ⟨origin, entries⟩
        some (t.set key (.array true (items.dropLast ++ [inner.toValue])))
      | _ => none
    | some _ => none

/-- Gives a value to a key, which may be dotted. A dotted key wants a table that dotted keys made;
a simple one wants the table at hand. -/
def define (path : List Text) (key : Text) (value : Value) (t : Table) : Option Table :=
  t.change .dotted
    (fun inner =>
      if (inner.origin == .dotted) == path.isEmpty then none else inner.add? key value)
    path

/-- Opens the table that a header names. It may be there only as one that headers imply. -/
def openTable (path : List Text) (key : Text) (root : Table) : Option Table :=
  root.change .implied
    (fun parent =>
      match parent.get? key with
      | none => parent.add? key (.table .header [])
      | some (.table .implied entries) => some (parent.set key (.table .header entries))
      | some _ => none)
    path

/-- Adds a table to the array of tables that a header names. -/
def openElement (path : List Text) (key : Text) (root : Table) : Option Table :=
  root.change .implied
    (fun parent =>
      match parent.get? key with
      | none => parent.add? key (.array true [.table .header []])
      | some (.array true items) =>
        some (parent.set key (.array true (items ++ [.table .header []])))
      | some _ => none)
    path

end Table

end MessageCompiler.Toml
