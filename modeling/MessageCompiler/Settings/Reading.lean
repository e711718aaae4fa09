import MessageCompiler.Count
import MessageCompiler.Disk.Basic
import MessageCompiler.Settings.Basic
import MessageCompiler.Toml.Document

/-!
# Reading settings

A settings file is a TOML document with a section for the compiler and one for the program. Keys
that settings do not have are passed over. A section may also be written as an array, which gives
its values in the order of its keys; whatever is missing has its default.
-/

namespace MessageCompiler.Settings

open Toml (Value)

/-- The values of a section at each of its keys. A date has none of them. -/
def fields? (keys : List Text) : Value → Option (List (Option Value))
  | .table _ entries =>
    if (entries.filter (!keys.contains ·.1)).all (·.2.isRepresentable) then
      some (keys.map (entries.lookup ·))
    else none
  | .array _ items => some (keys.zipIdx.map (items[·.2]?))
  | .datetime => some (keys.map fun _ => none)
  | .text _ => none
  | .integer _ => none
  | .real _ => none
  | .boolean _ => none

/-- A truth value, with the value that it has if it is missing. -/
def flag? (default : Bool) : Option Value → Option Bool
  | none => some default
  | some (.boolean b) => some b
  | some _ => none

/-- A count of 64 bits, if there is one. -/
def count? : Option Value → Option (Option Nat)
  | none => some none
  | some (.integer n) => if 0 ≤ n && n < Count.limit then some (some n.toNat) else none
  | some _ => none

/-- A text, if there is one. -/
def text? : Option Value → Option (Option Text)
  | none => some none
  | some (.text t) => some (some t)
  | some _ => none

/-- The section that tells which targets are generated. -/
def targets? : Option Value → Option Targets
  | none => some {}
  | some v => do
    let [csharp, python] ← fields? ["csharp".toList, "python".toList] v | none
    some { csharp := ← flag? true csharp, python := ← flag? false python }

def compiler? : Option Value → Option Config
  | none => some {}
  | some v => do
    let keys := ["targets", "verbose", "max_concurrent_subtrees"].map String.toList
    let [targets, verbose, cap] ← fields? keys v | none
    some { targets := ← targets? targets, verbose := ← flag? false verbose, cap := ← count? cap }

def runtime? : Option Value → Option Runtime
  | none => some {}
  | some v => do
    let [threads, level] ← fields? ["worker_threads".toList, "log_level".toList] v | none
    some { workerThreads := ← count? threads, logLevel := ← text? level }

/-- The settings in a text, checked or not. -/
def ofText (t : Text) : Except Problem Settings :=
  let read : Option Settings := do
    let document ← Toml.document? t
    let [compiler, runtime] ← fields? ["compiler".toList, "runtime".toList] document.toValue | none
    some { compiler := ← compiler? compiler, runtime := ← runtime? runtime }
  match read with
  | some settings => .ok settings
  | none => .error .unparsable

def ofFile (path : Path) (disk : Disk) : Except Problem Settings :=
  match disk.readText path with
  | .ok text => ofText text
  | .error cause => .error (.unreadable path cause)

/-- The settings in the file at the given path; without one, those in the file `rant.toml` of a
folder, and where that is no file, the default ones. -/
def find (explicit : Option Path) (folder : Path) (disk : Disk) : Except Problem Settings :=
  match explicit with
  | some path => ofFile path disk
  | none =>
    let path := folder.join (Path.ofText "rant.toml".toList)
    if disk.isFile path then ofFile path disk else .ok {}

/-- The settings of a run, which are found and then checked. -/
def load (explicit : Option Path) (folder : Path) (disk : Disk) : Except Problem Settings :=
  match find explicit folder disk with
  | .error problem => .error problem
  | .ok settings =>
    match settings.check with
    | .error problem => .error problem
    | .ok () => .ok settings

end MessageCompiler.Settings
