import MessageCompiler.Path.Basic

/-!
# Trees of files

A node is a file, a symbolic link, or a folder of named nodes. A *place* says where a node is by
the names of the folders on the way from the root; unlike a path it never goes through a link.
-/

namespace MessageCompiler

/-- The names of the folders on the way to a node, and its own. -/
abbrev Place := List Utf8.Bytes

/-- What a name stands for on a disk. The entries of a folder are kept in the order of their
names. -/
inductive Node where
  | file (contents : Utf8.Bytes)
  | link (target : Path)
  | folder (entries : List (Utf8.Bytes × Node))

/-- The named nodes of a folder. -/
abbrev Entries := List (Utf8.Bytes × Node)

namespace Entries

def find? (name : Utf8.Bytes) : Entries → Option Node
  | [] => none
  | (n, node) :: rest => if n = name then some node else find? name rest

/-- The entries with `node` under this name, in place of what the name stood for. -/
def insert (name : Utf8.Bytes) (node : Node) : Entries → Entries
  | [] => [(name, node)]
  | (n, other) :: rest =>
    if n = name then (name, node) :: rest
    else if name < n then (name, node) :: (n, other) :: rest
    else (n, other) :: insert name node rest

def erase (name : Utf8.Bytes) (entries : Entries) : Entries := entries.filter (·.1 != name)

/-- A new entry is found under its name, and every other entry as before. -/
@[simp] theorem find?_insert (name other : Utf8.Bytes) (node : Node) (entries : Entries) :
    Entries.find? other (insert name node entries) =
      if other = name then some node else Entries.find? other entries := by
  induction entries with
  | nil => grind [insert, find?]
  | cons entry rest ih => grind [insert, find?]

end Entries

namespace Node

/-- The entries of a folder; a file and a link have none. -/
def entries : Node → Entries
  | .folder entries => entries
  | .file _ => []
  | .link _ => []

/-- The node at a place below this one. -/
def get? : Node → Place → Option Node
  | node, [] => some node
  | node, name :: rest =>
    match Entries.find? name node.entries with
    | some child => child.get? rest
    | none => none

/-- The tree with `new` at a place, for which missing folders are made. -/
def put (new : Node) : Place → Node → Node
  | [], _ => new
  | name :: rest, node =>
    .folder (Entries.insert name (put new rest ((Entries.find? name node.entries).getD (.folder [])))
      node.entries)

/-- The tree without what is at a place. -/
def erase : Place → Node → Node
  | [], node => node
  | [name], node => .folder (Entries.erase name node.entries)
  | name :: rest, node =>
    match Entries.find? name node.entries with
    | some child => .folder (Entries.insert name (erase rest child) node.entries)
    | none => node

def isFolder : Node → Bool
  | .folder _ => true
  | .file _ => false
  | .link _ => false

@[simp] theorem get?_nil (node : Node) : node.get? [] = some node := by
  cases node <;> rfl

theorem get?_cons (node : Node) (name : Utf8.Bytes) (rest : Place) :
    node.get? (name :: rest) = (Entries.find? name node.entries).bind (·.get? rest) := by
  rw [get?]; cases Entries.find? name node.entries <;> rfl

@[simp] theorem get?_put_self (new : Node) (place : Place) (node : Node) :
    (put new place node).get? place = some new := by
  induction place generalizing node with
  | nil => simp [put]
  | cons name rest ih => simp [put, get?_cons, entries, ih]

end Node

end MessageCompiler
