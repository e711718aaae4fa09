import MessageCompiler.Command.Usage
import MessageCompiler.Count

/-!
# Reading the words of a command

A command has *parameters*: switches, options with a value, and at most one operand, which is a
word without a name. Its words are read in two steps. The first finds the *occurrences* of
parameters, each with the value that stands with it; it ends early at a word that makes no sense.
The second *settles* the occurrences one by one. An occurrence whose value is a word of its own is
settled only when something else turns up, so a word that makes no sense is noticed before what is
wrong with the occurrence right in front of it.
-/

namespace MessageCompiler.Command

/-- What a parameter takes. -/
inductive Takes where
  | nothing
  /-- A path, which is not empty. -/
  | path
  /-- A count of 64 bits. -/
  | count
  | word
  deriving DecidableEq, Repr

/-- A parameter of a command. -/
structure Parameter where
  name : Text
  short : Option Char := none
  takes : Takes := .nothing
  /-- The switch that this one takes back. -/
  opposite : Option Text := none
  /-- Whether it may be given more than once. -/
  repeats : Bool := false
  deriving DecidableEq, Repr

/-- The parameters of a command. -/
structure Grammar where
  named : List Parameter
  operand : Parameter

/-- A parameter in a command line. -/
structure Occurrence where
  parameter : Parameter
  /-- The value that stands with it, if any does. -/
  value : Option Text
  /-- Whether it is settled at once, and not only when something else turns up. -/
  prompt : Bool
  deriving DecidableEq, Repr

/-- What ends the words of a command. -/
inductive Ending where
  /-- All of them are read. -/
  | complete
  /-- Help is asked for, once everything before is settled. -/
  | help
  /-- A word makes no sense, whatever the occurrence right in front of it is like. -/
  | senseless (usage : Usage)
  deriving DecidableEq, Repr

/-- The occurrences in a command line and what ends them. -/
structure Scan where
  occurrences : List Occurrence
  ending : Ending
  deriving DecidableEq, Repr

namespace Scan

def ended (ending : Ending) : Scan := ⟨[], ending⟩

def senseless (usage : Usage) : Scan := ended (.senseless usage)

def cons (o : Occurrence) (s : Scan) : Scan := { s with occurrences := o :: s.occurrences }

def prepend (os : List Occurrence) (s : Scan) : Scan :=
  { s with occurrences := os ++ s.occurrences }

end Scan

/-- Whether a word is an option, or the mark that no more options come. -/
def isOption : Text → Bool
  | '-' :: _ :: _ => true
  | _ => false

/-- What a word of short options amounts to. -/
inductive Cluster where
  /-- These occurrences. -/
  | done (occurrences : List Occurrence)
  /-- These occurrences, and a parameter whose value is the next word. -/
  | waiting (occurrences : List Occurrence) (parameter : Parameter)
  /-- These occurrences, and then an ending. -/
  | ended (occurrences : List Occurrence) (ending : Ending)
  deriving DecidableEq, Repr

namespace Grammar

def long? (g : Grammar) (name : Text) : Option Parameter := g.named.find? (·.name == name)

def short? (g : Grammar) (c : Char) : Option Parameter := g.named.find? (·.short == some c)

/-- Reads the short options of one word, given those before. The rest of the word after an option
that takes a value is its value, perhaps after an equals sign. -/
def cluster (g : Grammar) (before : List Occurrence) : Text → Cluster
  | [] => .done before
  | c :: rest =>
    match g.short? c with
    | none =>
      if c = 'h' then .ended before .help else .ended before (.senseless .unknownArgument)
    | some p =>
      -- a switch leaves the rest of the word to the letters after it
      if p.takes = .nothing then g.cluster (before ++ [⟨p, none, true⟩]) rest
      else
        match rest with
        | [] => .waiting before p
        | '=' :: value => .done (before ++ [⟨p, some value, true⟩])
        | value => .done (before ++ [⟨p, some value, true⟩])

/-- What a long option amounts to, given what follows its two dashes. -/
def longOption (g : Grammar) (word : Text) : Cluster :=
  let (name, tail) := word.span (· != '=')
  let attached := if tail.isEmpty then none else some (tail.drop 1)
  match g.long? name, attached with
  | none, value =>
    -- help is no parameter of its own
    if name = "help".toList then
      if value.isNone then .ended [] .help else .ended [] (.senseless .unwantedValue)
    else .ended [] (.senseless .unknownArgument)
  | some p, none => if p.takes = .nothing then .done [⟨p, none, true⟩] else .waiting [] p
  | some p, some value =>
    if p.takes = .nothing then .ended [] (.senseless .unwantedValue)
    else .done [⟨p, some value, true⟩]

/-- Reads the words after the mark that no more options come, given whether the operand has its
place still free. -/
def operands (g : Grammar) (free : Bool) : List Text → Scan
  | [] => .ended .complete
  | word :: rest =>
    if free then (g.operands false rest).cons ⟨g.operand, some word, false⟩
    else .senseless .unknownArgument

/-- Finds the occurrences in the words of a command, given whether the operand has its place still
free. -/
def scan (g : Grammar) (free : Bool) : List Text → Scan
  | [] => .ended .complete
  | word :: rest =>
    if word = ['-', '-'] then g.operands free rest
    else if isOption word then
      let cluster :=
        match word with
        | '-' :: '-' :: name => g.longOption name
        | _ => g.cluster [] (word.drop 1)
      match cluster, rest with
      | .done os, rest => (g.scan free rest).prepend os
      | .ended os ending, _ => ⟨os, ending⟩
      | .waiting os p, [] => ⟨os ++ [⟨p, none, false⟩], .complete⟩
      | .waiting os p, value :: rest =>
        -- an option is never a value, so this one stays without and is refused when it is settled
        if isOption value then
          (g.scan free (value :: rest)).prepend (os ++ [⟨p, none, false⟩])
        else (g.scan free rest).prepend (os ++ [⟨p, some value, false⟩])
    else if free then (g.scan false rest).cons ⟨g.operand, some word, false⟩
    else .senseless .unknownArgument

end Grammar

/-- A parameter that is settled, with its value; a switch has the empty one. -/
structure Given where
  name : Text
  value : Text
  deriving DecidableEq, Repr

/-- Refuses a value that is not of the kind that the parameter takes. -/
def Takes.check (takes : Takes) (value : Text) : Except Usage Unit :=
  match takes with
  | .nothing => .ok ()
  | .word => .ok ()
  | .path => if value.isEmpty then .error .invalidValue else .ok ()
  | .count => if (Count.ofText? value).isSome then .ok () else .error .malformedValue

/-- Settles one occurrence: it is refused without the value it takes, or if it comes again, or for
the value it has; and it takes back its opposite. -/
def settleOne (given : List Given) (o : Occurrence) : Except Usage (List Given) :=
  let p := o.parameter
  if p.takes != .nothing && o.value.isNone then .error .invalidValue
  else if !p.repeats && given.any (·.name == p.name) then .error .repeated
  else
    match p.takes.check (o.value.getD []) with
    | .error usage => .error usage
    | .ok () =>
      .ok (given.filter (fun g => p.opposite != some g.name) ++ [⟨p.name, o.value.getD []⟩])

/-- Settles occurrences one by one, given what is settled before and what ends them. -/
def settle (given : List Given) : List Occurrence → Ending → Except Usage (List Given)
  | [], .complete => .ok given
  | [], .help => .error .help
  | [], .senseless usage => .error usage
  | o :: rest, ending =>
    match rest, ending, o.prompt with
    | [], .senseless usage, false => .error usage
    | _, _, _ =>
      match settleOne given o with
      | .error usage => .error usage
      | .ok given => settle given rest ending

def Grammar.read (g : Grammar) (words : List Text) : Except Usage (List Given) :=
  let scan := g.scan true words
  settle [] scan.occurrences scan.ending

end MessageCompiler.Command
