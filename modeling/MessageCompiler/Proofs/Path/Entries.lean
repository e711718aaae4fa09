import MessageCompiler.Proofs.Disk.Respelling
import MessageCompiler.Proofs.Path.Names

/-!
# The paths of what is in a folder

What is in a folder is known by the path of the folder with its name joined to it. What such a path
says of it, the name alone says; where its output goes, the folder alone says. Neither depends on how
the path of the folder is spelled.

* **`eq_of_fileName?_eq`**: what is told by the last name of a path.
* **`messageName?_join_append`**: what the message in a definition is called.
* **`join_laws`**: all that is told of a name in a folder.
-/

namespace MessageCompiler.Path

/-- **The last name of a path tells all**: whether it is that of a folder to search, or of a
definition, and what the message in it is called. -/
theorem eq_of_fileName?_eq {p p' : Path} (h : p.fileName? = p'.fileName?) :
    p.isMessageFolder = p'.isMessageFolder ∧ p.isDefinitionFile = p'.isDefinitionFile
      ∧ p.messageName? = p'.messageName? := by
  refine ⟨?_, ?_, ?_⟩
  · rw [isMessageFolder, isMessageFolder, h]
  · rw [isDefinitionFile, isDefinitionFile, extension?, extension?, h]
  · rw [messageName?_eq_bind, messageName?_eq_bind, h]

theorem fileName?_name {name : Utf8.Bytes} (hname : IsName name) : fileName? name = some name := by
  have hjoin := fileName?_join [] hname
  rwa [join_nil] at hjoin

/-- **The message in a definition** is named after what stands before the extension, if that encodes
a text with something besides spaces, and has no name otherwise. -/
theorem messageName?_join_append (base : Path) {stem : Utf8.Bytes} (hstem : stem ≠ [])
    (hname : IsName (stem ++ ofText ".msg".toList)) {message : Text} :
    (base.join (stem ++ ofText ".msg".toList)).messageName? = some message
      ↔ ∃ t, stem = Utf8.encode t ∧ (∃ c ∈ t, c ≠ ' ') ∧ message = Text.pascal t := by
  rw [messageName?_join base hname, messageOf?_eq_some_iff, ofText_msg,
    cutName_append hstem dot_not_mem_msg]

/-- **What is told of a name in a folder**, however the path of the folder is spelled.
* Whether it is that of a folder to search, or of a definition, and what the message in it is called:
  the path with the folder says what the bare name says.
* Its default output is looked for as `built` in the folder, on every disk, and where the path leads
  to a folder the default output is the place `built` there, unless a link has that name.
* It is a definition exactly if it is something followed by `.msg`. The message is then named after
  that, if it encodes a text with something besides spaces, and has no name otherwise.
* It is no definition if it ends as a generated file does. -/
theorem join_laws (folder : Path) {name : Utf8.Bytes} (hname : IsName name) :
    ((folder.join name).isMessageFolder = isMessageFolder name
      ∧ (folder.join name).isDefinitionFile = isDefinitionFile name
      ∧ (folder.join name).messageName? = messageName? name)
    ∧ (∀ d : Disk, d.locate (folder.join name).defaultOutput = d.locate (folder.join built)
      ∧ (d.Orderly → ∀ q, d.LeadsTo folder.orHere q →
        (∀ target, d.root.get? (q ++ [built]) ≠ some (.link target)) →
        d.locate (folder.join name).defaultOutput = .ok
          (if (d.root.get? (q ++ [built])).isSome then .taken (q ++ [built]) else .vacant q built)))
    ∧ ((folder.join name).isDefinitionFile = true
      ↔ ∃ stem, stem ≠ [] ∧ name = stem ++ ofText ".msg".toList)
    ∧ (∀ stem, stem ≠ [] → name = stem ++ ofText ".msg".toList → ∀ message,
      (folder.join name).messageName? = some message
        ↔ ∃ t, stem = Utf8.encode t ∧ (∃ c ∈ t, c ≠ ' ') ∧ message = Text.pascal t)
    ∧ ∀ stem, name = stem ++ ofText ".cs".toList ∨ name = stem ++ ofText ".py".toList →
      (folder.join name).isDefinitionFile = false := by
  refine ⟨eq_of_fileName?_eq ((fileName?_join folder hname).trans (fileName?_name hname).symm),
    fun d => ⟨Disk.locate_defaultOutput_join folder hname,
      fun hd q hq hlink => hq.locate_defaultOutput hd hname hlink⟩, ?_, ?_, ?_⟩
  · rw [isDefinitionFile_join folder hname]
    exact isDefinitionName_iff
  · rintro stem hstem rfl message
    exact messageName?_join_append folder hstem hname
  · intro stem hstem
    rw [isDefinitionFile_join folder hname]
    rcases hstem with rfl | rfl
    · exact isDefinitionName_extension stem .csharp
    · exact isDefinitionName_extension stem .python

/-- A folder with a definition, and a link to it. -/
def linkedFolder : Disk where
  root := .folder [(ofText "link".toList, .link (ofText "msgs".toList)),
    (ofText "msgs".toList,
      .folder [(ofText "my pose.msg".toList, .file (ofText "int x".toList))])]
  folder := []

/-- A definition in a folder whose path goes through a link, and back, and through it again. -/
theorem join_laws_linked :
    let folder := ofText "./link/..//link/.".toList
    let name := ofText "my pose.msg".toList
    IsName name ∧ (folder.join name).isDefinitionFile = true
      ∧ (folder.join name).messageName? = some "MyPose".toList
      ∧ linkedFolder.locate (folder.join name).defaultOutput
        = .ok (.vacant [ofText "msgs".toList] built) := by
  intro folder name
  have hname : IsName name := by decide
  have horderly : linkedFolder.Orderly := by
    refine ⟨.folder (by decide) fun e he => ?_, _, rfl⟩
    rcases List.mem_cons.1 he with rfl | he
    · exact ⟨by decide, .link _⟩
    rw [List.mem_singleton.1 he]
    refine ⟨by decide, .folder (by decide) fun e he => ?_⟩
    rw [List.mem_singleton.1 he]
    exact ⟨by decide, .file _⟩
  have hleads : linkedFolder.LeadsTo folder.orHere [ofText "msgs".toList] := ⟨rfl, _, rfl⟩
  obtain ⟨-, houtput, hdefinition, hmessage, -⟩ := join_laws folder hname
  refine ⟨hname, hdefinition.2 ⟨ofText "my pose".toList, by decide, by decide⟩, ?_, ?_⟩
  · refine (hmessage (ofText "my pose".toList) (by decide) (by decide) _).2
      ⟨"my pose".toList, rfl, ⟨'m', by decide, by decide⟩, by decide +kernel⟩
  · exact (houtput linkedFolder).2 horderly _ hleads fun target h => by cases h

/-- A dot at the start of a name begins no extension. -/
example : isDefinitionFile (ofText "a/.msg".toList) = false
    ∧ isDefinitionFile (ofText "a/..msg".toList) = true := by decide

end MessageCompiler.Path
