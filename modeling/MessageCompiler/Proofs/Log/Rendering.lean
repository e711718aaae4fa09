import MessageCompiler.Log.Event
import Mathlib.Data.List.Basic

/-!
# How an event is written down

A listener goes through the notes of an event and keeps two texts. What it writes down in the end is
the message, unless that is empty, and the fields as `name=value`, with single spaces between them.

* **`Signal.rendered_eq`**: the line of any signal, by its message and its fields.
-/

namespace MessageCompiler

/-- Texts with a space between them: each but the first one follows a space. -/
theorem Text.intercalate_cons_eq (t : Text) (ts : List Text) :
    [' '].intercalate (t :: ts) = t ++ ts.flatMap (' ' :: ·) := by
  induction ts generalizing t with
  | nil => simp
  | cons u rest ih => simp [List.intercalate_cons_cons, ih]

namespace Log

/-- What a note is called begins with no blank, and neither does the note where it is shown. -/
theorem Note.trimStart_shown (n : Note) (rest : Text) :
    Text.trimStart (n.shown ++ rest) = n.shown ++ rest := by
  obtain ⟨name, value, hname⟩ := n
  cases name with
  | nil => rfl
  | cons c name =>
    have hc : Text.isBlank c = false := by simpa using hname
    simp [shown, Text.trimStart, hc]

namespace Signal

/-- The message of the event: of several, the last one. -/
def message (s : Signal) : Text := (((s.notes.filter Note.isMessage).getLast?).map (·.value)).getD []

/-- What else the event tells. -/
def fields (s : Signal) : List Note := s.notes.filter (!·.isMessage)

end Signal

theorem Transcript.foldl_add (t : Transcript) (notes : List Note) : notes.foldl add t =
    { message := (((notes.filter Note.isMessage).getLast?).map (·.value)).getD t.message
      fields := t.fields ++ (notes.filter (!·.isMessage)).flatMap (' ' :: ·.shown) } := by
  induction notes generalizing t with
  | nil => simp
  | cons n rest ih =>
    rw [List.foldl_cons, ih]
    cases hn : n.isMessage with
    | true =>
      simp only [add, hn, if_pos, List.filter_cons, List.getLast?_cons, Bool.not_true,
        Bool.false_eq_true, if_false, Option.map_some, Option.getD_some]
      cases (rest.filter Note.isMessage).getLast? <;> rfl
    | false => simp [add, hn]

/-- **An event is written down as its message, unless that is empty, and its fields**, each as
`name=value`, with single spaces between them. -/
theorem Signal.rendered_eq (s : Signal) : s.rendered =
    [' '].intercalate ((if s.message = [] then [] else [s.message])
      ++ s.fields.map fun n => n.name ++ '=' :: n.value) := by
  have hline : s.rendered
      = Transcript.line { message := s.message, fields := s.fields.flatMap (' ' :: ·.shown) } :=
    congrArg Transcript.line (Transcript.foldl_add {} s.notes)
  rw [hline]
  show _ = [' '].intercalate (_ ++ s.fields.map Note.shown)
  unfold Transcript.line
  cases s.fields with
  | nil =>
    -- the message alone
    by_cases hmessage : s.message = [] <;> simp [hmessage]
  | cons n rest =>
    by_cases hmessage : s.message = []
    · -- the fields alone, without the space in front of them
      have htrim : Text.trimStart (' ' :: (n.shown ++ rest.flatMap (' ' :: ·.shown)))
          = n.shown ++ rest.flatMap (' ' :: ·.shown) := n.trimStart_shown _
      simp [hmessage, htrim, Text.intercalate_cons_eq, List.flatMap_map]
    · simp [hmessage, Text.intercalate_cons_eq, List.flatMap_map]

end Log

end MessageCompiler
