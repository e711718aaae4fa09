import MessageCompiler.Text.Utf8

/-!
# Paths

A path is a sequence of bytes that slashes cut into segments. An empty segment and the segment `.`
lead nowhere, so they do not count, except at the very start: there the empty segment stands for
the root and `.` for the folder that one is in. Everything here is about how a path is spelled;
what it leads to is up to the disk.
-/

namespace MessageCompiler

/-- A path is the sequence of its bytes, which need not be UTF-8. -/
abbrev Path := Utf8.Bytes

namespace Path

def slash : UInt8 := 0x2F

def dot : UInt8 := 0x2E

/-- The segment that stays in a folder. -/
def here : Utf8.Bytes := [dot]

/-- The segment that leads out of a folder. -/
def up : Utf8.Bytes := [dot, dot]

def ofText (t : Text) : Path := Utf8.encode t

/-- The pieces between slashes. -/
def segments (p : Path) : List Utf8.Bytes := Text.splitWhen (· == slash) p

/-- Whether a segment leads nowhere. -/
def isIdle (segment : Utf8.Bytes) : Bool := segment.isEmpty || segment == here

/-- Whether the path starts at the root. -/
def isAbsolute (p : Path) : Bool := p.head? == some slash

/-- The path with the first segment `first` and the segments of `rest`, which are given in reverse;
idle segments at the end are dropped. -/
def spelled (first : Utf8.Bytes) (rest : List Utf8.Bytes) : Path :=
  match rest.dropWhile isIdle with
  | [] => if first.isEmpty then [slash] else first
  | segments => [slash].intercalate (first :: segments.reverse)

/-- The paths above one with the first segment `first` and the segments of `rest`, which are given
in reverse. The nearest comes first; the root has none, and above a bare name there is the empty
path. -/
def above (first : Utf8.Bytes) : List Utf8.Bytes → List Path
  | [] => if first.isEmpty then [] else [[]]
  | segment :: rest =>
    if isIdle segment then above first rest else spelled first rest :: above first rest

/-- The paths above a path, nearest first, as it spells them. -/
def ancestors (p : Path) : List Path :=
  match segments p with
  | [] => []
  | first :: rest => above first rest.reverse

/-- The path above a path, as it spells it. -/
def parent? (p : Path) : Option Path := (ancestors p).head?

/-- The last segment that counts, if the path has one besides the root. -/
def lastSegment? (p : Path) : Option Utf8.Bytes :=
  match segments p with
  | [] => none
  | first :: rest =>
    match rest.reverse.dropWhile isIdle with
    | segment :: _ => some segment
    | [] => if first.isEmpty then none else some first

/-- The name of what the path leads to, where its last segment is one: not the root, `.` or
`..`. -/
def fileName? (p : Path) : Option Utf8.Bytes :=
  (lastSegment? p).filter fun segment => segment != here && segment != up

/-- A file name cut at its last dot, unless that is its first byte. -/
def cutName (name : Utf8.Bytes) : Utf8.Bytes × Option Utf8.Bytes :=
  match Text.splitLast dot name with
  | some (stem, extension) => if stem.isEmpty then (name, none) else (stem, some extension)
  | none => (name, none)

def stem? (p : Path) : Option Utf8.Bytes := (fileName? p).map (cutName · |>.1)

def extension? (p : Path) : Option Utf8.Bytes := (fileName? p).bind (cutName · |>.2)

/-- The path that leads to `p` from the folder `base`. -/
def join (base p : Path) : Path :=
  if p.isAbsolute then p
  else if base.isEmpty || base.getLast? == some slash then base ++ p
  else base ++ [slash] ++ p

/-- The path as messages show it. -/
def shown (p : Path) : Text := Utf8.shown p

end Path

end MessageCompiler
