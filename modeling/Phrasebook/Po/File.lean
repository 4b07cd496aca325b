import Phrasebook.Po.Line
import Phrasebook.Po.Store

/-!
# Catalog files

A file holds the templates of one source, its header fields and the lines that could not be
read.

**Lines.**  `State.step` takes one line.  It gives the state to go on with and what is wrong
with the line, if anything is.  A number that cannot be read and a formula that is nested too
deep end the reading of the file.
**Continuation.**  `Pending` says what a line that begins with a quote continues.
**Strictness.**  A malformed line is kept as junk and ends a continuation; a strict reading
fails on the first one.
-/

namespace Phrasebook
namespace Po

open Plural (Formula FormulaError)

/-- A malformed line: what is wrong, the line without blanks at its ends, its number from one
on, and the path of the file. -/
structure ParseError where
  problem : Problem
  line : Text
  lineNumber : Nat
  sourcePath : Option Text
deriving DecidableEq, Repr

/-- A message behind the place that it is about; line 0 stands for no line. -/
def locate (sourcePath : Option Text) (lineNumber : Int) (message : String) : String :=
  let path :=
    match sourcePath with
    | none => "<lines>"
    | some [] => "<lines>"
    | some path => String.ofList path
  if lineNumber = 0 then s!"{path}: {message}" else s!"{path}:{lineNumber}: {message}"

/-- The words for a malformed line. -/
def ParseError.message (e : ParseError) : String :=
  locate e.sourcePath e.lineNumber e.problem.message

/-- A line that could not be read, with its number and its content as it stands in the file. -/
structure JunkLine where
  lineNumber : Nat
  content : Text
  error : ParseError
deriving DecidableEq, Repr

/-- What is read from one source. -/
structure File where
  singles : SingleStore
  plurals : PluralStore
  sourcePath : Option Text
  headers : Table Text Text
  junk : List JunkLine
deriving DecidableEq

namespace File

/-- The declared language. -/
def language? (f : File) : Option Text :=
  f.headers.get? languageName

/-- Were there lines that could not be read? -/
def hasJunk (f : File) : Bool :=
  !f.junk.isEmpty

/-- Do two files have the same content, path and junk? -/
def sameContent (f g : File) : Bool :=
  f.singles.sameContent g.singles && f.plurals.sameContent g.plurals &&
    f.sourcePath == g.sourcePath && f.headers.sameEntries (fun a b => a == b) g.headers &&
    f.junk.map (fun j => (j.lineNumber, j.content)) ==
      g.junk.map (fun j => (j.lineNumber, j.content))

end File

/-- What a line that begins with a quote continues. -/
inductive Pending
  | nothing
  | key
  | value (started : Bool)
  | pluralValue (category : Nat)
  | header
deriving DecidableEq, Repr

/-- What is known behind a line of a file. -/
structure State where
  singles : SingleStore
  plurals : PluralStore
  headers : Table Text Text
  key : Text
  isPlural : Bool
  pending : Pending
deriving DecidableEq

/-- The result of a line: the state to go on with, and what is wrong with the line. -/
abbrev Step := Except FormulaError (State × Option Problem)

namespace State

/-- The state in front of the first line. -/
def initial (formula : Formula) : State where
  singles := SingleStore.empty
  plurals := PluralStore.empty formula
  headers := Table.empty
  key := []
  isPlural := false
  pending := .nothing

/-- The state without anything to continue. -/
def interrupted (s : State) : State :=
  { s with pending := .nothing }

/-- Goes on from a state with what a line has, unless the line is malformed. -/
def withFound {α : Type} (s : State) (found : Except LineError α) (next : α → Step) : Step :=
  match found with
  | .ok a => next a
  | .error (.malformed problem) => .ok (s, some problem)
  | .error (.numeral e) => .error (.numeral e)

/-- A line without problems. -/
def accept (s : State) : Step :=
  .ok (s, none)

/-- A key line. -/
def startKey (s : State) (isPlural : Bool) (line : Text) : Step :=
  s.withFound (payload line) fun key =>
    accept { s with key := key, isPlural := isPlural, pending := .key }

/-- The line of an empty value. -/
def startEmptyValue (s : State) : State :=
  if s.key.isEmpty then { s with pending := .header }
  else if s.isPlural then { s with pending := .nothing }
  else { s with pending := .value false }

/-- The line of a value.  One of the empty key belongs to the header. -/
def startValue (s : State) (line : Text) : Step :=
  if s.isPlural then
    s.withFound (category line) fun category =>
      s.withFound (payload line) fun value =>
        accept { s with
          plurals := s.plurals.add s.key category value
          pending := .pluralValue category }
  else
    s.withFound (payload line) fun value =>
      if s.key.isEmpty then accept { s with pending := .header }
      else accept { s with singles := s.singles.set s.key value, pending := .value true }

/-- The header fields with that of a text `name: value`, if it has a colon. -/
def withField (headers : Table Text Text) (text : Text) : Table Text Text :=
  match Text.after? ':' text with
  | none => headers
  | some value => headers.set (Text.trim (Text.before ':' text)) (Text.trim value)

/-- A line of the header. -/
def addField (s : State) (line : Text) : Step :=
  if line.startsWith languageField then
    accept { s with headers := s.headers.set languageName ((declaredLanguage? line).getD []) }
  else
    s.withFound (payload line) fun text =>
      accept { s with headers := withField s.headers (Text.trim text) }

/-- A line that begins with a quote. -/
def continueWith (s : State) (line : Text) : Step :=
  match s.pending with
  | .nothing => accept s
  | .key => s.withFound (payload line) fun chunk => accept { s with key := s.key ++ chunk }
  | .value true =>
      s.withFound (payload line) fun chunk =>
        accept { s with singles := s.singles.append s.key chunk }
  | .value false =>
      s.withFound (payload line) fun chunk =>
        accept { s with singles := s.singles.set s.key chunk, pending := .value true }
  | .pluralValue category =>
      s.withFound (payload line) fun chunk =>
        accept { s with plurals := s.plurals.append s.key category chunk }
  | .header => s.addField line

/-- The header line with the plural formula.  The formula counts even if the line turns out to
be malformed. -/
def setFormula [Machine] (s : State) (line : Text) : Step := do
  let formula ← Formula.ofHeader line
  addField { s with plurals := { s.plurals with formula := formula } } line

/-- One line without blanks at its ends. -/
def step [Machine] (s : State) (line : Text) : Step :=
  if line.isEmpty then accept s.interrupted
  else if line.head? = some '#' then accept s
  else if line = emptyKeyLine then accept { s with key := [], isPlural := false, pending := .key }
  else if line = emptyValueLine then accept s.startEmptyValue
  else if line.startsWith formulaField then s.setFormula line
  else if line.head? = some '"' then s.continueWith line
  else if line.startsWith pluralKeyWord then s.startKey true line
  else if line.startsWith keyWord then s.startKey false line
  else if line.startsWith valueWord then s.startValue line
  else if line.startsWith contextWord then accept s.interrupted
  else .ok (s, some .unknownDirective)

end State

/-- Why a file cannot be read. -/
inductive ReadError
  | malformed (e : ParseError)
  | stopped (e : FormulaError)
deriving DecidableEq, Repr

/-- The words for an error, unless the system words it. -/
def ReadError.message? : ReadError → Option String
  | .malformed e => some e.message
  | .stopped e => e.message?

/-- How malformed lines are treated. -/
structure Reading where
  strict : Bool
  sourcePath : Option Text
deriving DecidableEq, Repr

/-- The state behind the given lines, the first of which has the given number, and the lines
among them that could not be read. -/
def Reading.run [Machine] (r : Reading) (number : Nat) (s : State) :
    List Text → Except ReadError (State × List JunkLine)
  | [] => .ok (s, [])
  | content :: lines =>
      let line := Text.trim content
      match s.step line with
      | .error e => .error (.stopped e)
      | .ok (next, none) => r.run (number + 1) next lines
      | .ok (next, some problem) =>
          let e : ParseError := ⟨problem, line, number, r.sourcePath⟩
          if r.strict then .error (.malformed e)
          else
            (r.run (number + 1) next.interrupted lines).map fun result =>
              (result.1, ⟨number, content, e⟩ :: result.2)

/-- Reads the lines of a file; `formula` counts if the file has none of its own. -/
def File.parse [Machine] (r : Reading) (formula : Formula) (lines : List Text) :
    Except ReadError File :=
  (r.run 1 (State.initial formula) lines).map fun result =>
    { singles := result.1.singles
      plurals := result.1.plurals
      sourcePath := r.sourcePath
      headers := result.1.headers
      junk := result.2 }

end Po
end Phrasebook
