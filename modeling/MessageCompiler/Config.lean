import MessageCompiler.Target.Basic

/-!
# Configuration

What a build is asked for: which targets, how much to tell, and how many folders may be at work at
the same time.
-/

namespace MessageCompiler

/-- Which targets are generated. -/
structure Targets where
  csharp : Bool := true
  python : Bool := false
  deriving DecidableEq, Repr

namespace Targets

def isEnabled (ts : Targets) : Target → Bool
  | .csharp => ts.csharp
  | .python => ts.python

/-- The same choice, but for one target. -/
def set (target : Target) (enabled : Bool) (ts : Targets) : Targets :=
  match target with
  | .csharp => { ts with csharp := enabled }
  | .python => { ts with python := enabled }

def enabled (ts : Targets) : List Target := Target.all.filter ts.isEnabled

@[simp] theorem isEnabled_set (ts : Targets) (target other : Target) (b : Bool) :
    (ts.set target b).isEnabled other = if other = target then b else ts.isEnabled other := by
  cases target <;> cases other <;> rfl

/-- A target is among those generated exactly when it is enabled. -/
@[simp] theorem mem_enabled {ts : Targets} {t : Target} : t ∈ ts.enabled ↔ ts.isEnabled t := by
  simp [enabled, Target.mem_all]

end Targets

/-- What a build is asked for. -/
structure Config where
  targets : Targets := {}
  /-- Whether every file is announced when it is built and when it is saved. -/
  verbose : Bool := false
  /-- How many folders may compile their own files at once; no bound if there is none. -/
  cap : Option Nat := none
  deriving DecidableEq, Repr

/-- Refuses a bound that would let no folder compile at all. -/
def Config.check (config : Config) : Except Fault Unit :=
  if config.cap = some 0 then
    .error (.invalidConfig "max_concurrent_subtrees must be greater than zero".toList)
  else .ok ()

end MessageCompiler
