import MessageCompiler.Proofs.Definition.Diagnostics
import MessageCompiler.Proofs.Log.Counting
import MessageCompiler.Proofs.Log.Rendering

/-!
# What is logged about a definition

Everything that is found wrong with a definition goes to the caller and to the log. The log gets
remarks besides, which are not counted. So the tally of a log session counts what the caller counts,
as far as the filter lets it.

* **`Journal.Agrees`**: a journal tells the caller and the log the same. Both passes keep it so.
* **`Compiled.log_compile`**: what a session counts while a definition is compiled.
-/

namespace MessageCompiler

open Log

/-- The log got the diagnostics, in their order, and remarks. -/
structure Journal.Agrees (definition : Text) (j : Journal) : Prop where
  problems : j.events.filter Event.isProblem = j.diagnostics.map (Diagnostic.event definition)
  remarks : ∀ e ∈ j.events, e.isProblem = true ∨ e.level = .debug

theorem Diagnostic.isProblem_event (definition : Text) (d : Diagnostic) :
    (d.event definition).isProblem = true := by
  unfold event
  cases d.severity <;> rfl

namespace Journal.Agrees

variable {definition : Text} {j : Journal}

theorem told (hj : j.Agrees definition) (d : Diagnostic) :
    (j.told definition d).Agrees definition where
  problems := by
    have hlast : [d.event definition].filter Event.isProblem = [d.event definition] :=
      List.filter_cons_of_pos (d.isProblem_event definition)
    show (j.events ++ [d.event definition]).filter _ = (j.diagnostics ++ [d]).map _
    rw [List.filter_append, hj.problems, hlast, List.map_append, List.map_singleton]
  remarks e he := by
    rcases List.mem_append.1 he with he | he
    · exact hj.remarks e he
    · rw [List.mem_singleton.1 he]
      exact .inl (d.isProblem_event definition)

theorem toldAll (hj : j.Agrees definition) (ds : List Diagnostic) :
    (j.toldAll definition ds).Agrees definition := by
  induction ds generalizing j with
  | nil => exact hj
  | cons d rest ih => exact ih (hj.told d)

theorem remark (hj : j.Agrees definition) (number : Nat) (message : Text) :
    (j.remark definition number message).Agrees definition where
  problems := by
    show (j.events ++ [_]).filter _ = _
    rw [List.filter_append, hj.problems]
    exact List.append_nil _
  remarks e he := by
    rcases List.mem_append.1 he with he | he
    · exact hj.remarks e he
    · rw [List.mem_singleton.1 he]
      exact .inr rfl

end Journal.Agrees

/-! ## Both passes -/

namespace Header

variable {name : Text} {h : Header}

theorem agrees_step (hh : h.journal.Agrees name) (line : Line) :
    (h.step name line).1.journal.Agrees name := by
  rcases journal_step name line (h := h) (fun _ => Import.known_iff) with hd | ⟨-, text, hremark⟩
  · rw [hd]
    exact hh.toldAll _
  · rw [hremark]
    exact hh.remark line.number text

theorem agrees_read (hh : h.journal.Agrees name) (ls : List Line) :
    (h.read name ls).1.journal.Agrees name := by
  induction ls generalizing h with
  | nil => exact hh
  | cons line rest ih => exact ih (agrees_step hh line)

end Header

/-- **The log of a compiled definition has its diagnostics**, and remarks besides. -/
theorem Compiled.agrees (config : Config) (name text : Text) :
    (compile config name text).journal.Agrees name := by
  have hstart : ({} : Header).journal.Agrees name :=
    { problems := rfl, remarks := fun _ he => absurd he List.not_mem_nil }
  have hread := Header.agrees_read hstart (Line.scan text)
  have htext : (Definition.ofText name text).2.Agrees name := by
    rw [Definition.ofText_eq]
    dsimp only
    rw [Body.snd_members]
    exact hread.toldAll _
  show Journal.Agrees name (config.targets.enabled.foldl (Definition.ofText name text).1.warnHidden
    (Definition.ofText name text).2)
  rw [Definition.foldl_warnHidden]
  exact htext.toldAll _

/-! ## Errors -/

namespace Diagnostic

theorem exists_unknownKind_of_ofDirective? {names : List Text} {line : Line} {d : Diagnostic}
    (hd : ofDirective? names line = some d) (herror : d.isError = true) :
    ∃ argument, d = unknownKind line.number argument := by
  unfold ofDirective? at hd
  split at hd
  · next argument _ =>
    split_ifs at hd
    exact ⟨argument, (Option.some.inj hd).symm⟩
  · split_ifs at hd
    rw [← Option.some.inj hd] at herror
    cases herror
  · split_ifs at hd
    rw [← Option.some.inj hd] at herror
    cases herror
  · cases hd

/-- **The only error in a definition is a kind that there is not**; it is about one line. -/
theorem exists_unknownKind {config : Config} {name text : Text} {d : Diagnostic}
    (hd : d ∈ (compile config name text).diagnostics) (herror : d.isError = true) :
    ∃ number argument, d = unknownKind number argument := by
  rw [Compiled.diagnostics_eq, Definition.diagnostics_ofText] at hd
  simp only [List.mem_append] at hd
  -- malformed lines, comments at the end and renamed fields are warned about only
  rcases hd with ((hd | hd) | hd) | hd
  · obtain ⟨⟨line, k⟩, -, hline⟩ := List.mem_filterMap.1 hd
    obtain ⟨argument, rfl⟩ := exists_unknownKind_of_ofDirective? hline herror
    exact ⟨line.number, argument, rfl⟩
  · obtain ⟨line, -, rfl⟩ := List.mem_map.1 hd
    cases herror
  · unfold ofTrailing at hd
    split_ifs at hd
    · rw [List.mem_singleton.1 hd] at herror
      cases herror
    · cases hd
  · obtain ⟨t, -, hhiding⟩ := List.mem_flatMap.1 hd
    obtain ⟨f, -, rfl⟩ := List.mem_map.1 hhiding
    cases herror

theorem rendered_event {d : Diagnostic} {number : Nat} (hline : d.line = some number)
    (hmessage : d.message ≠ []) (name : Text) : (d.event name).rendered
      = d.message ++ " definition=".toList ++ name ++ " line=".toList ++ Text.decimal number := by
  have hfields : (d.event name).signal.fields.map (fun n => n.name ++ '=' :: n.value)
      = ["definition".toList ++ '=' :: name, "line".toList ++ '=' :: Text.decimal number] := by
    unfold event
    rw [hline]
    rfl
  have hrendered := (d.event name).signal.rendered_eq
  rw [show (d.event name).signal.message = d.message by unfold event; cases d.line <;> rfl,
    if_neg hmessage, hfields] at hrendered
  show (d.event name).signal.rendered = _
  rw [hrendered]
  simp [List.intercalate_cons_cons]

end Diagnostic

/-! ## Sessions -/

theorem Severity.level_beq (a b : Severity) : (a.level == b.level) = (a == b) := by
  cases a <;> cases b <;> rfl

/-- What may be counted as a severity is a problem, and passes by the level alone. -/
theorem Log.Event.passes_severity (severity : Severity) (filter : Level) (e : Event) :
    (e.level == severity.level && e.passes filter)
      = ((e.level == severity.level && decide (filter ≤ severity.level)) && e.isProblem) := by
  by_cases hlevel : e.level = severity.level
  · have hproblem : e.isProblem = true := by
      unfold Event.isProblem
      rw [hlevel]
      cases severity <;> rfl
    have hoff : e.level ≠ .off := by
      rw [hlevel]
      cases severity <;> exact Level.noConfusion
    rw [Event.passes_eq hoff, hproblem, Bool.and_true, hlevel]
  · rw [beq_false_of_ne hlevel, Bool.false_and, Bool.false_and, Bool.false_and]

namespace Journal.Agrees

variable {definition : Text} {j : Journal}

/-- The events of a severity that pass are the diagnostics of the severity, or none. -/
theorem filter_events (hj : j.Agrees definition) (severity : Severity) (filter : Level) :
    j.events.filter (fun e => e.level == severity.level && e.passes filter)
      = if filter ≤ severity.level then
          (j.diagnostics.filter (·.severity == severity)).map (Diagnostic.event definition)
        else [] := by
  -- the remarks are passed over, so that only diagnostics are left to choose from
  have hproblems : j.events.filter (fun e => e.level == severity.level && e.passes filter)
      = (j.diagnostics.map (Diagnostic.event definition)).filter fun e =>
          e.level == severity.level && decide (filter ≤ severity.level) := by
    rw [← hj.problems, List.filter_filter]
    exact List.filter_congr fun e _ => e.passes_severity severity filter
  rw [hproblems, List.filter_map]
  have hlevel (d : Diagnostic) : ((fun e : Event => e.level == severity.level
      && decide (filter ≤ severity.level)) ∘ Diagnostic.event definition) d
      = (d.severity == severity && decide (filter ≤ severity.level)) :=
    congrArg (· && _) (d.severity.level_beq severity)
  by_cases hfilter : filter ≤ severity.level
  · rw [if_pos hfilter]
    refine congrArg _ (List.filter_congr fun d _ => ?_)
    rw [hlevel, decide_eq_true hfilter, Bool.and_true]
  · rw [if_neg hfilter, List.map_eq_nil_iff]
    apply List.filter_eq_nil_iff.2
    intro d _
    rw [hlevel, decide_eq_false hfilter, Bool.and_false]
    exact Bool.false_ne_true

theorem countP_events (hj : j.Agrees definition) (severity : Severity) (filter : Level) :
    j.events.countP (fun e => e.level == severity.level && e.passes filter)
      = if filter ≤ severity.level then j.diagnostics.countP (·.severity == severity) else 0 := by
  rw [List.countP_eq_length_filter, hj.filter_events]
  split_ifs
  · rw [List.length_map, List.countP_eq_length_filter]
  · rfl

end Journal.Agrees

/-- **The log of a compiled definition and its diagnostics agree**: the warnings and errors that are
logged are the diagnostics, and everything else is logged for debugging. So a session counts the
diagnostics that its filter lets through, and keeps the last error, with its line. -/
theorem Compiled.log_compile (config : Config) (name text : Text) (s : Session) :
    let c := compile config name text
    let s' := s.act (.log c.journal.events)
    c.journal.events.filter (fun e => e.level == .warn || e.level == .error)
        = c.diagnostics.map (fun d =>
          { level := match d.severity with
              | .warning => .warn
              | .error => .error
            message := d.message
            definition := some name
            line := d.line })
      ∧ (∀ e ∈ c.journal.events, e.level ∈ [.warn, .error, .debug])
      ∧ s'.filter = s.filter
      ∧ s'.tally.warnings = s.tally.warnings + (if s.filter ≤ .warn then c.warnings else 0)
      ∧ s'.tally.errors = s.tally.errors + (if s.filter ≤ .error then c.errors else 0)
      ∧ match (c.diagnostics.filter Diagnostic.isError).getLast? with
        | none => s'.tally.lastError = s.tally.lastError
        | some d => ∃ number, d.line = some number ∧ s'.tally.lastError
            = if s.filter ≤ .error then
                some (d.message ++ " definition=".toList ++ name ++ " line=".toList
                  ++ Text.decimal number)
              else s.tally.lastError := by
  intro c s'
  have hagrees : c.journal.Agrees name := agrees config name text
  refine ⟨hagrees.problems, fun e he => ?_, rfl, ?_, ?_, ?_⟩
  · rcases hagrees.remarks e he with hproblem | hdebug
    · rcases Bool.or_eq_true_iff.1 hproblem with hwarn | herror
      · simp [eq_of_beq hwarn]
      · simp [eq_of_beq herror]
    · simp [hdebug]
  · show (s.tally.observeAll s.filter c.journal.events).warnings = _
    rw [Tally.warnings_observeAll]
    exact congrArg _ (hagrees.countP_events .warning s.filter)
  · show (s.tally.observeAll s.filter c.journal.events).errors = _
    rw [Tally.errors_observeAll]
    exact congrArg _ (hagrees.countP_events .error s.filter)
  · -- what is kept is the last of the errors that pass, and each of them is about one line
    have hlast : s'.tally.lastError = (((if s.filter ≤ .error then
        (c.diagnostics.filter Diagnostic.isError).map (Diagnostic.event name) else []).getLast?).map
          Event.rendered).or s.tally.lastError := by
      show (s.tally.observeAll s.filter c.journal.events).lastError = _
      rw [Tally.lastError_observeAll]
      exact congrArg (fun es : List Event => (es.getLast?.map Event.rendered).or s.tally.lastError)
        (hagrees.filter_events .error s.filter)
    split
    · next hnone =>
      rw [hlast]
      split_ifs
      · rw [List.getLast?_map, hnone]
        rfl
      · rfl
    · next d hsome =>
      have hd := List.mem_filter.1 (List.mem_of_getLast? hsome)
      obtain ⟨number, argument, rfl⟩ := Diagnostic.exists_unknownKind hd.1 hd.2
      refine ⟨number, rfl, ?_⟩
      rw [hlast]
      split_ifs
      · rw [List.getLast?_map, hsome]
        exact congrArg some (Diagnostic.rendered_event rfl (List.cons_ne_nil _ _) name)
      · rfl

/-- A lone word, a kind that there is not, a field that is renamed and a comment at the end: the log has
them word for word. Through a filter for errors a session counts the error alone and keeps it, and with
all details it counts the warnings, too, but not the remark that a namespace is known. -/
theorem Compiled.log_compile_unknownKind :
    let c := compile {} "Pose".toList "x;\ntype enum\nGeo.T a\nGeo.U Timestamp\n# end".toList
    let strict := ({ filter := .error } : Session).act (.log c.journal.events)
    let detailed := ({ filter := .debug } : Session).act (.log c.journal.events)
    c.journal.events.filter (fun e => e.level == .warn || e.level == .error)
        = [⟨.error, ("unknown definition kind: expected one of class, record, struct, "
            ++ "record class, record struct, found enum").toList, some "Pose".toList, some 2⟩,
          ⟨.warn, "skipping line 1 - type or name is empty".toList, some "Pose".toList, some 1⟩,
          ⟨.warn, "dropping trailing comment with no field after it".toList, some "Pose".toList, none⟩,
          ⟨.warn, ("field 'Timestamp' collides with the generated timestamp; "
            ++ "renamed to 'Timestamp_' in csharp output").toList, some "Pose".toList, some 4⟩]
      ∧ strict.tally.warnings = 0 ∧ strict.tally.errors = 1
      ∧ strict.tally.lastError = some ("unknown definition kind: expected one of class, record, "
        ++ "struct, record class, record struct, found enum definition=Pose line=2").toList
      ∧ detailed.tally.warnings = 3 ∧ detailed.tally.errors = 1 := by
  intro c strict detailed
  obtain ⟨hevents, -, -, hwarnings, herrors, hlast⟩ := log_compile {} "Pose".toList
    "x;\ntype enum\nGeo.T a\nGeo.U Timestamp\n# end".toList { filter := .error }
  obtain ⟨-, -, -, hwarnings', herrors', -⟩ := log_compile {} "Pose".toList
    "x;\ntype enum\nGeo.T a\nGeo.U Timestamp\n# end".toList { filter := .debug }
  have hfound : (c.diagnostics.filter Diagnostic.isError).getLast?
      = some (.unknownKind 2 "enum".toList) := by decide +kernel
  rw [hfound] at hlast
  obtain ⟨number, hnumber, hlast⟩ := hlast
  obtain rfl := Option.some.inj hnumber
  exact ⟨hevents.trans (by decide +kernel), hwarnings.trans (by decide +kernel),
    herrors.trans (by decide +kernel), hlast.trans (by decide +kernel),
    hwarnings'.trans (by decide +kernel), herrors'.trans (by decide +kernel)⟩

end MessageCompiler
