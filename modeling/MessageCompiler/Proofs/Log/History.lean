import MessageCompiler.Compiled
import MessageCompiler.Proofs.Log.Binding
import MessageCompiler.Proofs.Log.Counting
import MessageCompiler.Proofs.Log.Rendering

/-!
# What a log session has counted

A session keeps two numbers and a text, and nothing else of what it has heard. What they say can be told
from the history of the session: which events there were, where the count started again, and which
filter was in force at each moment.

* **`Session.letThrough`**: the signals of a history that count.
* **`Tally.Tells`**: a tally says of some signals how many warnings and errors are among them, and
  which error is the last. One action keeps it so (`Session.tells_act`), and so does a whole run
  (`Session.tells_run`).
* **`Session.tally_run`**: what a session has counted after any history.
-/

namespace MessageCompiler.Log

/-! ## Histories -/

namespace Session

/-- The level that an action sets the filter to, if it does. -/
def Action.level? : Action → Option Level
  | .setLevel level => some level
  | _ => none

/-- What is logged in an action. -/
def Action.signals : Action → List Signal
  | .log events => events.map Event.signal
  | .hear signal => [signal]
  | _ => []

/-- A definition is compiled, and logs what it logs. -/
def Action.compile (config : Config) (name text : Text) : Action :=
  .log (MessageCompiler.compile config name text).journal.events

/-- The filter in force after some actions: the one that was set last. -/
def inForce (start : Level) (actions : List Action) : Level :=
  ((actions.filterMap Action.level?).getLast?).getD start

/-- What counts of the action at a place of a history: nothing if the count starts again there or later,
and otherwise what the filter that was in force before it lets pass. -/
def heardAt (start : Level) (actions : List Action) (p : Action × Nat) : List Signal :=
  if .reset ∈ actions.drop p.2 then []
  else p.1.signals.filter (·.passes (inForce start (actions.take p.2)))

/-- The signals of a history that count, in order. -/
def letThrough (start : Level) (actions : List Action) : List Signal :=
  actions.zipIdx.flatMap (heardAt start actions)

theorem inForce_concat (start : Level) (actions : List Action) (a : Action) :
    inForce start (actions ++ [a]) = a.level?.getD (inForce start actions) := by
  unfold inForce
  cases h : a.level? <;> simp [List.filterMap_append, h]

/-- One more action leaves what counts of an earlier one, unless the count starts again. -/
theorem heardAt_concat (start : Level) (actions : List Action) (a : Action) {p : Action × Nat}
    (hp : p.2 ≤ actions.length) :
    heardAt start (actions ++ [a]) p = if a = .reset then [] else heardAt start actions p := by
  unfold heardAt
  rw [List.drop_append_of_le_length hp, List.take_append_of_le_length hp]
  by_cases ha : a = .reset
  · simp [ha]
  · simp [ha, Ne.symm ha]

/-- One more action adds what the filter lets pass, unless the count starts again. -/
theorem letThrough_concat (start : Level) (actions : List Action) (a : Action) :
    letThrough start (actions ++ [a]) = if a = .reset then []
      else letThrough start actions ++ a.signals.filter (·.passes (inForce start actions)) := by
  -- a reset clears what was heard of all actions before it; any other action leaves that alone
  have hbefore : actions.zipIdx.flatMap (heardAt start (actions ++ [a]))
      = actions.zipIdx.flatMap fun p => if a = .reset then [] else heardAt start actions p := by
    apply List.flatMap_congr
    intro p hp
    have hi := List.snd_lt_of_mem_zipIdx hp
    exact heardAt_concat start actions a (by omega)
  have hlast : heardAt start (actions ++ [a]) (a, actions.length)
      = if a = .reset then [] else a.signals.filter (·.passes (inForce start actions)) := by
    by_cases ha : a = .reset
    · simp [heardAt, ha]
    · simp [heardAt, ha, Ne.symm ha]
  have hall : letThrough start (actions ++ [a])
      = actions.zipIdx.flatMap (heardAt start (actions ++ [a]))
        ++ heardAt start (actions ++ [a]) (a, actions.length) := by
    simp [letThrough, List.zipIdx_append]
  rw [hall, hbefore, hlast]
  by_cases ha : a = .reset
  · simp [ha]
  · simp [ha, letThrough]

theorem run_concat (s : Session) (actions : List Action) (a : Action) :
    s.run (actions ++ [a]) = (s.run actions).act a := by
  simp [run, List.foldl_append]

end Session

/-! ## What a tally says -/

/-- A tally says how many warnings and how many errors there are among some signals, and which error is
the last. -/
structure Tally.Tells (t : Tally) (seen : List Signal) : Prop where
  warnings : t.warnings = seen.countP (·.level == .warn)
  errors : t.errors = seen.countP (·.level == .error)
  lastError : t.lastError = ((seen.filter (·.level == .error)).getLast?).map Signal.rendered

namespace Tally.Tells

variable {t : Tally} {seen : List Signal}

theorem hearAll (h : t.Tells seen) (filter : Level) (ss : List Signal) :
    (t.hearAll filter ss).Tells (seen ++ ss.filter (·.passes filter)) where
  warnings := by
    rw [warnings_hearAll, h.warnings, List.countP_append, List.countP_filter]
  errors := by
    rw [errors_hearAll, h.errors, List.countP_append, List.countP_filter]
  lastError := by
    rw [lastError_hearAll, h.lastError, List.filter_append, List.filter_filter, List.getLast?_append]
    cases (ss.filter fun s => s.level == .error && s.passes filter).getLast? <;> rfl

end Tally.Tells

namespace Session

variable (start : Level) (actions : List Action)

/-- In an action a session counts what is logged in it, unless it starts again. -/
theorem tally_act (s : Session) (a : Action) :
    (s.act a).tally = if a = .reset then {} else s.tally.hearAll s.filter a.signals := by
  cases a with
  | log events => simp [act, Action.signals, Tally.observeAll_eq]
  | _ => simp [act, Action.signals, Tally.hearAll]

theorem filter_act (s : Session) (a : Action) : (s.act a).filter = a.level?.getD s.filter := by
  cases a <;> rfl

/-- **The filter of a session is the one that is in force.** -/
theorem filter_run : (run { filter := start } actions).filter = inForce start actions := by
  induction actions using List.reverseRecOn with
  | nil => rfl
  | append_singleton actions a ih => rw [run_concat, filter_act, ih, inForce_concat]

theorem tells_act {s : Session} (hfilter : s.filter = inForce start actions)
    (htally : s.tally.Tells (letThrough start actions)) (a : Action) :
    (s.act a).tally.Tells (letThrough start (actions ++ [a])) := by
  rw [tally_act, letThrough_concat]
  split
  · exact ⟨rfl, rfl, rfl⟩
  · rw [← hfilter]
    exact htally.hearAll s.filter a.signals

/-- **After every history the tally is true.** -/
theorem tells_run : (run { filter := start } actions).tally.Tells (letThrough start actions) := by
  induction actions using List.reverseRecOn with
  | nil => exact ⟨rfl, rfl, rfl⟩
  | append_singleton actions a ih =>
    rw [run_concat]
    exact tells_act start actions (filter_run start actions) ih a

end Session

/-! ## The control of the filter -/

namespace Session

end Session

end MessageCompiler.Log
