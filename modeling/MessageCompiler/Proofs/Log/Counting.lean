import MessageCompiler.Log.Session
import Mathlib.Data.List.Basic

/-!
# What a tally counts

A tally goes through the events one by one. In the end it has counted the warnings and the errors
among those that pass the filter, and it has kept the last of these errors. It makes no difference
what shape the events have.

* **`warnings_hearAll`, `errors_hearAll`, `lastError_hearAll`**: what is counted and kept, of any
  signals.
* **`warnings_observeAll`, `errors_observeAll`, `lastError_observeAll`**: what is counted and kept, of
  any events.
-/

namespace MessageCompiler.Log

/-- Whether the event is a warning or an error, and so may be counted. -/
def Event.isProblem (e : Event) : Bool := e.level == .warn || e.level == .error

theorem Event.passes_eq {e : Event} (hlevel : e.level ≠ .off) (filter : Level) :
    e.passes filter = decide (filter ≤ e.level) := by
  unfold passes
  cases filter with
  | off =>
    have hbelow : ¬ Level.off ≤ e.level := by
      cases hl : e.level with
      | off => exact absurd hl hlevel
      | _ => decide
    rw [decide_eq_false hbelow]
    rfl
  | _ => rfl

namespace Tally

/-! ## Signals -/

/-- What a signal does to the count, if it passes: warnings and errors are counted, and an error is
kept as the last one. -/
theorem hear_eq (filter : Level) (t : Tally) (s : Signal) : t.hear filter s =
    { warnings := t.warnings + if s.level == .warn && s.passes filter then 1 else 0
      errors := t.errors + if s.level == .error && s.passes filter then 1 else 0
      lastError := if s.level == .error && s.passes filter then some s.rendered
        else t.lastError } := by
  unfold hear
  cases s.passes filter with
  | false =>
    rw [Bool.and_false, Bool.and_false]
    rfl
  | true =>
    unfold record
    cases s.level <;> rfl

/-- Counts the signals that the filter lets through, in order. -/
def hearAll (filter : Level) (t : Tally) (ss : List Signal) : Tally := ss.foldl (hear filter) t

section Signals

variable (filter : Level) (t : Tally) (ss : List Signal)

theorem warnings_hearAll : (t.hearAll filter ss).warnings
    = t.warnings + ss.countP fun s => s.level == .warn && s.passes filter := by
  induction ss generalizing t with
  | nil => rfl
  | cons s rest ih =>
    show ((t.hear filter s).hearAll filter rest).warnings = _
    rw [ih, hear_eq, List.countP_cons]
    dsimp only
    omega

theorem errors_hearAll : (t.hearAll filter ss).errors
    = t.errors + ss.countP fun s => s.level == .error && s.passes filter := by
  induction ss generalizing t with
  | nil => rfl
  | cons s rest ih =>
    show ((t.hear filter s).hearAll filter rest).errors = _
    rw [ih, hear_eq, List.countP_cons]
    dsimp only
    omega

theorem lastError_hearAll : (t.hearAll filter ss).lastError
    = (((ss.filter fun s => s.level == .error && s.passes filter).getLast?).map
        Signal.rendered).or t.lastError := by
  induction ss generalizing t with
  | nil => rfl
  | cons s rest ih =>
    show ((t.hear filter s).hearAll filter rest).lastError = _
    rw [ih, hear_eq, List.filter_cons]
    dsimp only
    cases s.level == .error && s.passes filter with
    | false => rfl
    | true =>
      rw [if_pos rfl, if_pos rfl, List.getLast?_cons]
      cases (rest.filter fun s => s.level == .error && s.passes filter).getLast? <;> rfl

end Signals

/-! ## Events -/

section Events

variable (filter : Level) (t : Tally) (es : List Event)

theorem observeAll_eq : t.observeAll filter es = t.hearAll filter (es.map Event.signal) := by
  unfold observeAll hearAll
  rw [List.foldl_map]
  rfl

/-- **The warnings that pass are counted**, and nothing else is counted as a warning. -/
theorem warnings_observeAll : (t.observeAll filter es).warnings
    = t.warnings + es.countP fun e => e.level == .warn && e.passes filter := by
  rw [observeAll_eq, warnings_hearAll, List.countP_map]
  rfl

/-- **The errors that pass are counted**, and nothing else is counted as an error. -/
theorem errors_observeAll : (t.observeAll filter es).errors
    = t.errors + es.countP fun e => e.level == .error && e.passes filter := by
  rw [observeAll_eq, errors_hearAll, List.countP_map]
  rfl

/-- **The last error that passes is kept**, as the log shows it. -/
theorem lastError_observeAll : (t.observeAll filter es).lastError
    = (((es.filter fun e => e.level == .error && e.passes filter).getLast?).map
        Event.rendered).or t.lastError := by
  rw [observeAll_eq, lastError_hearAll, List.filter_map, List.getLast?_map, Option.map_map]
  rfl

end Events

end Tally

end MessageCompiler.Log
