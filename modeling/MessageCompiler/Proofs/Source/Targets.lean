import MessageCompiler.Proofs.Definition.Diagnostics

/-!
# Targets do not interact

A definition is read once, whatever is generated from it. Each enabled target then adds its own file
and its own warnings, and neither depends on what the other target does.

* **`Compiled.name_files`**: which files there are, in which order, and what they are called.
* **`Compiled.file?_congr`**: two configurations that enable a target give it the same file.
* **`Compiled.compile_targets`**: two configurations side by side.
-/

namespace MessageCompiler

namespace Compiled

variable (config : Config) (name text : Text)

/-- **There is one file for each enabled target**, in their order, and it is called after the message
and the target. -/
theorem name_files : (compile config name text).files.map (fun file => (file.target, file.name))
    = config.targets.enabled.map fun t => (t, name ++ ['.'] ++ t.extension) := by
  show (config.targets.enabled.map (SourceFile.ofDefinition (Definition.ofText name text).1)).map _
    = _
  rw [List.map_map]
  rfl

theorem file?_eq_none {config : Config} {t : Target} (h : config.targets.isEnabled t = false) :
    (compile config name text).file? t = none := by
  apply List.find?_eq_none.2
  intro file hfile htarget
  obtain ⟨t', ht', rfl⟩ := List.mem_map.1 hfile
  have hsame : t' = t := eq_of_beq htarget
  have henabled : config.targets.isEnabled t' = true := Targets.mem_enabled.1 ht'
  rw [hsame, h] at henabled
  exact Bool.false_ne_true henabled

theorem isSome_file? (t : Target) :
    ((compile config name text).file? t).isSome = config.targets.isEnabled t := by
  cases h : config.targets.isEnabled t with
  | true => rw [file?_compile h name text, Option.isSome_some]
  | false => rw [file?_eq_none name text h, Option.isSome_none]

/-- **A target has the same file in all configurations that enable it.** -/
theorem file?_congr {config config' : Config} {t : Target} (h : config.targets.isEnabled t)
    (h' : config'.targets.isEnabled t) :
    (compile config name text).file? t = (compile config' name text).file? t := by
  rw [file?_compile h, file?_compile h']

/-- **Targets do not interact**: name and kind are the same in any two configurations, a file is there
exactly if its target is enabled, and is then the same. Of the diagnostics some are there in all
configurations, and each enabled target adds its own, C# before Python. -/
theorem compile_targets (config' : Config) :
    let c := compile config name text
    let c' := compile config' name text
    c.name = c'.name ∧ c.kind = c'.kind
      ∧ c.files.map (fun file => (file.target, file.name))
        = (Target.all.filter config.targets.isEnabled).map (fun t => (t, name ++ ['.'] ++ t.extension))
      ∧ (∀ t, (c.file? t).isSome = config.targets.isEnabled t)
      ∧ (∀ t, config.targets.isEnabled t → config'.targets.isEnabled t → c.file? t = c'.file? t)
      ∧ ∃ (found : List Diagnostic) (added : Target → List Diagnostic), ∀ config : Config,
        (compile config name text).diagnostics = found
          ++ (if config.targets.csharp then added .csharp else [])
          ++ (if config.targets.python then added .python else []) := by
  refine ⟨rfl, rfl, name_files config name text, isSome_file? config name text,
    fun t => file?_congr name text, (Definition.ofText name text).2.diagnostics,
    (Definition.ofText name text).1.hidingFields, fun config => ?_⟩
  rw [diagnostics_eq, Targets.flatMap_enabled, List.append_assoc]

/-- With Python besides, verbose and with a bound on the folders at work, C# source is the same. -/
theorem compile_targets_both :
    let text := "int32 Timestamp\nint32 timestamp".toList
    let both : Config := { targets := { python := true }, verbose := true, cap := some 3 }
    (compile {} "Pose".toList text).file? .csharp = (compile both "Pose".toList text).file? .csharp := by
  obtain ⟨-, -, -, -, hfile, -⟩ := compile_targets {} "Pose".toList
    "int32 Timestamp\nint32 timestamp".toList
    { targets := { python := true }, verbose := true, cap := some 3 }
  exact hfile .csharp rfl rfl

end Compiled

end MessageCompiler
