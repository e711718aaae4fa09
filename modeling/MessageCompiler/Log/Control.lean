import MessageCompiler.Log.Level

/-!
# Level control

Filters are numbered as they are made, and live until they are dropped. One of them, and only ever
one, is bound to the control; changing the level of the log changes the level of that filter.
-/

namespace MessageCompiler.Log

/-- Why the level of the log cannot be changed, or a filter not be bound. -/
inductive ControlFault where
  | notInitialized
  | alreadyInstalled
  /-- The bound filter has been dropped. -/
  | filterGone
  deriving DecidableEq, Repr

def ControlFault.message : ControlFault → Text
  | .notInitialized => "logging is not initialized".toList
  | .alreadyInstalled => "a level filter is already installed".toList
  | .filterGone => "failed to change log level: subscriber no longer exists".toList

/-- Filters and the one that the control is bound to. -/
structure Control where
  /-- The level of each filter by its number; none once it is dropped. -/
  filters : List (Option Level) := []
  /-- The number of the bound filter. -/
  bound : Option Nat := none
  deriving DecidableEq, Repr

namespace Control

def level? (i : Nat) (c : Control) : Option Level := c.filters[i]?.join

/-- Makes a filter; its number is the next free one. -/
def create (level : Level) (c : Control) : Control :=
  { c with filters := c.filters ++ [some level] }

/-- Binds the control to a filter, for good. The filter may have been dropped before. -/
def install (i : Nat) (c : Control) : Except ControlFault Control :=
  match c.bound with
  | some _ => .error .alreadyInstalled
  | none => .ok { c with bound := some i }

/-- Changes the level of the bound filter. -/
def setLevel (level : Level) (c : Control) : Except ControlFault Control :=
  match c.bound with
  | none => .error .notInitialized
  | some i =>
    match c.level? i with
    | none => .error .filterGone
    | some _ => .ok { c with filters := c.filters.set i (some level) }

/-- Drops a filter. The control stays bound to it. -/
def drop (i : Nat) (c : Control) : Control := { c with filters := c.filters.set i none }

/-- Makes a filter and binds the control to it; nothing happens if the control is bound. -/
def initialise (level : Level) (c : Control) : Except ControlFault Control :=
  match c.bound with
  | some _ => .error .alreadyInstalled
  | none => (c.create level).install c.filters.length

/-- What a control may be asked for. -/
inductive Action where
  | create (level : Level)
  | install (filter : Nat)
  | setLevel (level : Level)
  | drop (filter : Nat)
  deriving DecidableEq, Repr

/-- Does what a control is asked for, or refuses it. -/
def act (c : Control) : Action → Except ControlFault Control
  | .create level => .ok (c.create level)
  | .install i => c.install i
  | .setLevel level => c.setLevel level
  | .drop i => .ok (c.drop i)

/-- The control after it has been asked for several things; what it refuses changes nothing. -/
def run (c : Control) (actions : List Action) : Control :=
  actions.foldl (fun c a => (c.act a).toOption.getD c) c

end Control

end MessageCompiler.Log
