import MessageCompiler.Fault

/-!
# Log levels

From the most detailed to none at all. An event has one of the first five levels; a filter may have
any, and `off` lets nothing through.
-/

namespace MessageCompiler.Log

/-- How much detail an event carries, or a filter lets through. -/
inductive Level where
  | trace
  | debug
  | info
  | warn
  | error
  | off
  deriving DecidableEq, Repr

namespace Level

/-- The place of a level in the order, from the most detailed up. -/
def rank : Level → Nat
  | .trace => 0
  | .debug => 1
  | .info => 2
  | .warn => 3
  | .error => 4
  | .off => 5

instance : LE Level := ⟨fun a b => a.rank ≤ b.rank⟩

instance : LT Level := ⟨fun a b => a.rank < b.rank⟩

instance (a b : Level) : Decidable (a ≤ b) := inferInstanceAs (Decidable (a.rank ≤ b.rank))

instance (a b : Level) : Decidable (a < b) := inferInstanceAs (Decidable (a.rank < b.rank))

instance : Min Level := ⟨fun a b => if a ≤ b then a else b⟩

instance : Max Level := ⟨fun a b => if a ≤ b then b else a⟩

def name : Level → Text
  | .trace => "TRACE".toList
  | .debug => "DEBUG".toList
  | .info => "INFO".toList
  | .warn => "WARN".toList
  | .error => "ERROR".toList
  | .off => "OFF".toList

/-- The level with this name; the letters A to Z may be written in either case. -/
def ofName (t : Text) : Except Fault Level :=
  let lower := Text.lowerAscii t
  if lower = "trace".toList then .ok .trace
  else if lower = "debug".toList then .ok .debug
  else if lower = "info".toList then .ok .info
  else if lower = "warn".toList || lower = "warning".toList then .ok .warn
  else if lower = "error".toList then .ok .error
  else if lower = "off".toList then .ok .off
  else .error (.unknownLevel t)

end Level

end MessageCompiler.Log
