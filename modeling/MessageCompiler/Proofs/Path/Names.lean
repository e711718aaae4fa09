import MessageCompiler.Proofs.Definition.Name
import MessageCompiler.Proofs.Path.Segments
import MessageCompiler.Proofs.Text.Decoding
import MessageCompiler.Source.Basic

/-!
# The names of generated files

A message is named after its definition file, and a generated file after its message. The name of a
generated file is a single segment that names no definition, and it tells the message and the target
apart from all others.

* **`isSome_messageOf?`, `messageOf?_eq_some_iff`**: which files give their message a name,
  and what the name is.
* **`messageOf?_eq_some`**: what is known about the name of a message.
* **`isName_fileName`, `isDefinitionName_fileName`, `fileName_injective`**: the names of generated
  files.
-/

namespace MessageCompiler

namespace Path

/-! ## The message in a file -/

/-- The name of the message in a file of this name. -/
def messageOf? (name : Utf8.Bytes) : Option Text := do
  let message := Text.pascal (← Utf8.decode? (cutName name).1)
  if message.isEmpty then none else some message

theorem messageName?_join (base : Path) {name : Utf8.Bytes} (hname : IsName name) :
    (base.join name).messageName? = messageOf? name := by
  rw [messageName?, stem?, fileName?_join base hname]
  rfl

/-- Whether a file of this name gives its message a name: the stem is text, and has something besides
spaces. -/
def namesMessage (name : Utf8.Bytes) : Bool :=
  match Utf8.decode? (cutName name).1 with
  | some stem => stem.any (· != ' ')
  | none => false

theorem isSome_messageOf? (name : Utf8.Bytes) : (messageOf? name).isSome = namesMessage name := by
  rw [messageOf?, namesMessage]
  cases Utf8.decode? (cutName name).1 with
  | none => rfl
  | some stem =>
    show (if (Text.pascal stem).isEmpty then none else some (Text.pascal stem)).isSome = _
    rw [Bool.eq_iff_iff, List.any_eq_true]
    by_cases hstem : ∀ c ∈ stem, c = ' '
    · have hname : Text.pascal stem = [] := Text.pascal_eq_nil_iff.2 hstem
      simpa [hname] using hstem
    · have hname : Text.pascal stem ≠ [] := fun h => hstem (Text.pascal_eq_nil_iff.1 h)
      simpa [hname] using hstem

/-- **A file gives its message a name** exactly if its stem is the encoding of a text that has something
besides spaces. -/
theorem messageOf?_eq_some_iff {name : Utf8.Bytes} {message : Text} : messageOf? name = some message
    ↔ ∃ stem, (cutName name).1 = Utf8.encode stem ∧ (∃ c ∈ stem, c ≠ ' ')
      ∧ message = Text.pascal stem := by
  have hpascal (stem : Text) : Text.pascal stem = [] ↔ ¬ ∃ c ∈ stem, c ≠ ' ' := by
    rw [Text.pascal_eq_nil_iff]
    push Not
    rfl
  constructor
  · intro h
    obtain ⟨stem, hstem, h⟩ := Option.bind_eq_some_iff.1 h
    dsimp only at h
    split at h
    · cases h
    · next hne =>
      refine ⟨stem, Utf8.decode?_eq_some_iff_eq_encode.1 hstem, ?_, (Option.some.inj h).symm⟩
      by_contra hspaces
      exact hne (by rw [(hpascal stem).2 hspaces]; rfl)
  · rintro ⟨stem, hstem, hletter, rfl⟩
    refine Option.bind_eq_some_iff.2 ⟨stem, Utf8.decode?_eq_some_iff_eq_encode.2 hstem, ?_⟩
    have hne : Text.pascal stem ≠ [] := fun h => (hpascal stem).1 h hletter
    exact if_neg (by simpa using hne)

theorem mem_of_mem_cutName {name : Utf8.Bytes} {b : UInt8} (h : b ∈ (cutName name).1) :
    b ∈ name := by
  rw [cutName] at h
  split at h
  · next stem extension hsplit =>
    split at h
    · exact h
    · rw [Text.eq_of_splitLast_eq_some hsplit]
      exact List.mem_append_left _ h
  · exact h

/-- **The name of a message** is not empty, and has no slash. -/
theorem messageOf?_eq_some {name : Utf8.Bytes} (hname : IsName name) {message : Text}
    (h : messageOf? name = some message) : message ≠ [] ∧ '/' ∉ message := by
  obtain ⟨stem, hstem, h⟩ := Option.bind_eq_some_iff.1 h
  dsimp only at h
  split at h
  · cases h
  · next hne =>
    rw [← Option.some.inj h]
    refine ⟨by simpa using hne, Text.slash_not_mem_pascal fun hslash => ?_⟩
    obtain ⟨b, hb, heq⟩ := Utf8.mem_of_mem_decode? hstem (by decide) (by decide) hslash
    have hbyte : b = slash :=
      UInt8.toNat_inj.1 (Text.eq_toNat_of_ofNat_eq (by decide) heq)
    exact hname.no_slash (hbyte ▸ mem_of_mem_cutName hb)

theorem messageName?_eq_bind (p : Path) : p.messageName? = p.fileName?.bind messageOf? := by
  rw [messageName?, stem?]
  cases p.fileName? <;> rfl

/-- **The name of a message has no slash**, wherever its file is. -/
theorem slash_not_mem_messageName? {p : Path} {message : Text} (h : p.messageName? = some message) :
    '/' ∉ message := by
  rw [messageName?_eq_bind] at h
  obtain ⟨name, hname, hmessage⟩ := Option.bind_eq_some_iff.1 h
  exact (messageOf?_eq_some (isName_of_fileName? hname) hmessage).2

/-! ## The name of a generated file -/

/-- The name, in bytes, of the file that holds a message in a target language. -/
def fileName (message : Text) (t : Target) : Utf8.Bytes := ofText (SourceFile.nameFor message t)

theorem fileName_eq (message : Text) (t : Target) :
    fileName message t = ofText message ++ dot :: ofText t.extension := by
  rw [fileName, SourceFile.nameFor, List.append_assoc, ofText, Utf8.encode, List.flatMap_append]
  rfl

theorem dot_not_mem_extension (t : Target) : dot ∉ ofText t.extension := by
  cases t <;> decide

/-- **The name of a generated file names something in a folder.** -/
theorem isName_fileName {message : Text} (h : '/' ∉ message) (t : Target) :
    IsName (fileName message t) := by
  -- an extension ends in a letter, which tells the name from the two of dots
  have hlast : (fileName message t).getLast? ≠ some dot := by
    obtain ⟨b, hb, hne⟩ : ∃ b, (dot :: ofText t.extension).getLast? = some b ∧ b ≠ dot := by
      cases t with
      | csharp => exact ⟨0x73, by decide, by decide⟩
      | python => exact ⟨0x79, by decide, by decide⟩
    rw [fileName_eq, List.getLast?_append, hb]
    exact fun heq => hne (Option.some.inj heq)
  refine ⟨fun hnil => ?_, fun hslash => ?_, fun hhere => ?_, fun hup => ?_⟩
  · rw [fileName_eq] at hnil
    cases (List.append_eq_nil_iff.1 hnil).2
  · have hchar := Utf8.mem_of_mem_encode (b := slash) (by decide) hslash
    rcases List.mem_append.1 hchar with hchar | hchar
    · rcases List.mem_append.1 hchar with hchar | hchar
      · exact h hchar
      · exact absurd hchar (by decide)
    · revert hchar
      cases t <;> decide
  · exact hlast (hhere ▸ rfl)
  · exact hlast (hup ▸ rfl)

theorem isDefinitionName_extension (stem : Utf8.Bytes) (t : Target) :
    isDefinitionName (stem ++ dot :: ofText t.extension) = false :=
  isDefinitionName_append (dot_not_mem_extension t) (by cases t <;> decide)

/-- **A generated file holds no definition.** -/
theorem isDefinitionName_fileName (message : Text) (t : Target) :
    isDefinitionName (fileName message t) = false := by
  rw [fileName_eq]
  exact isDefinitionName_extension (ofText message) t

/-- **The name of a generated file tells its message and its target.** -/
theorem fileName_injective {message message' : Text} {t t' : Target}
    (h : fileName message t = fileName message' t') : message = message' ∧ t = t' := by
  have hsplit := congrArg (Text.splitLast dot) h
  rw [fileName_eq, fileName_eq, Text.splitLast_append_cons (dot_not_mem_extension t),
    Text.splitLast_append_cons (dot_not_mem_extension t')] at hsplit
  obtain ⟨hmessage, hextension⟩ := Prod.mk.inj (Option.some.inj hsplit)
  refine ⟨Utf8.encode_injective hmessage, ?_⟩
  cases t <;> cases t' <;> first | rfl | exact absurd hextension (by decide)

end Path

end MessageCompiler
