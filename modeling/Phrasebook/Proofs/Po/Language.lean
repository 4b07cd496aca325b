import Phrasebook.Assets.Discovery
import Phrasebook.Proofs.Po.Stepping
import Phrasebook.Proofs.Text.Cutting

/-!
# The language of a file

The language of a file is found twice: the discovery looks for it before the file is read, and the
reading keeps the fields of the header.

**Fields.**  `fieldLines` are the lines that a reading takes for fields of the header, whether they
stand at the head of the file or not.  `namedLanguage?` is the language that one of them names.
**Steps and runs.**  A step changes the language only if its line is a field that names one
(`State.language?_step`), so that the last such line of a run counts (`Reading.language?_run`).
**Results.**
* `File.declaredLanguage_eq_iff`: the discovery goes by the first line that begins with the field of
  the language, the reading by the last field that names one.  They agree if these two say the
  same.
* `File.declaredLanguage_ne`: a header with two languages.
-/

namespace Phrasebook
namespace Po

open Plural (Formula)
open Discovery (declaresLanguage declaredLanguage)

section Fields

variable {s t : State} {line text : Text} {problem : Option Problem}

/-- The language that a field `name: value` names, if its name is that of the language. -/
def fieldLanguage? (field : Text) : Option Text :=
  match Text.after? ':' field with
  | none => none
  | some value =>
      if Text.trim (Text.before ':' field) = languageName then some (Text.trim value) else none

/-- The language that a line with a field of the header names. -/
def namedLanguage? (line : Text) : Option Text :=
  if line.startsWith languageField then declaredLanguage? line
  else
    match payload line with
    | .ok text => fieldLanguage? (Text.trim text)
    | .error _ => none

/-- Is the line taken for a field of the header?  That of the formula is one wherever it stands. -/
def State.takesField (s : State) (line : Text) : Bool :=
  match LineKind.of line with
  | .formula => true
  | .continuation => s.pending == .header
  | _ => false

theorem exists_declaredLanguage? (h : line.startsWith languageField = true) :
    ∃ text, declaredLanguage? line = some text := by
  obtain ⟨rest, rfl⟩ := List.isPrefixOf_iff_prefix.1 h
  have hword : ':' ∉ "\"Language".toList := by decide
  have hvalue : Text.after? ':' ("\"Language".toList ++ ':' :: rest) = some rest :=
    Text.after?_append hword
  exact ⟨_, congrArg (Option.map _) hvalue⟩

theorem get?_withField (headers : Table Text Text) (field : Text) :
    (State.withField headers field).get? languageName =
      (fieldLanguage? field).or (headers.get? languageName) := by
  unfold State.withField fieldLanguage?
  cases Text.after? ':' field with
  | none => rfl
  | some value =>
      simp only [Table.get?_set]
      split <;> rfl

theorem State.language?_addField (s : State) (line : Text) :
    Leads (fun t => t.headers.get? languageName =
      (namedLanguage? line).or (s.headers.get? languageName)) (s.addField line) := by
  unfold State.addField namedLanguage?
  by_cases hlanguage : line.startsWith languageField = true
  · rw [if_pos hlanguage, if_pos hlanguage]
    obtain ⟨text, htext⟩ := exists_declaredLanguage? hlanguage
    refine .accept ?_
    rw [Table.get?_set, if_pos rfl, htext]
    rfl
  · rw [if_neg hlanguage, if_neg hlanguage]
    cases payload line with
    | error e => exact .withFound_error rfl
    | ok text => exact .accept (get?_withField s.headers (Text.trim text))

theorem State.language?_setFormula [Machine] (s : State) (line : Text) :
    Leads (fun t => t.headers.get? languageName =
      (namedLanguage? line).or (s.headers.get? languageName)) (s.setFormula line) := by
  unfold State.setFormula
  cases Formula.ofHeader line with
  | error e => exact nofun
  | ok formula =>
      exact language?_addField { s with plurals := { s.plurals with formula := formula } } line

theorem State.headers_startEmptyValue (s : State) : s.startEmptyValue.headers = s.headers := by
  unfold State.startEmptyValue
  split
  · rfl
  · split <;> rfl

theorem State.headers_startValue (s : State) (line : Text) :
    Leads (fun t => t.headers = s.headers) (s.startValue line) := by
  unfold State.startValue
  split
  · exact .withFound rfl fun _ _ => .withFound rfl fun _ _ => .accept rfl
  · refine .withFound rfl fun _ _ => ?_
    split <;> exact .accept rfl

/-- Only the header is gone on with by fields. -/
theorem State.headers_continueWith (h : s.pending ≠ .header) (line : Text) :
    Leads (fun t => t.headers = s.headers) (s.continueWith line) := by
  unfold State.continueWith
  split
  · exact .accept rfl
  iterate 4 exact .withFound rfl fun _ _ => .accept rfl
  · rename_i hheader
    exact absurd hheader h

/-- A step sets the language that its line names, if the line is a field, and no other one. -/
theorem State.language?_step [Machine] (s : State) (line : Text) :
    Leads (fun t => t.headers.get? languageName =
      (if s.takesField line then namedLanguage? line else none).or
        (s.headers.get? languageName)) (s.step line) := by
  have hother : ∀ {step : Step}, Leads (fun t => t.headers = s.headers) step →
      Leads (fun t => t.headers.get? languageName =
        (if false then namedLanguage? line else none).or (s.headers.get? languageName)) step :=
    fun hstep => hstep.mono fun t ht => congrArg (Table.get? · languageName) ht
  rw [step_eq_stepAs, takesField]
  cases LineKind.of line with
  | formula => exact language?_setFormula s line
  | continuation =>
      by_cases hheader : s.pending = .header
      · rw [hheader, stepAs, continueWith, hheader]
        exact language?_addField s line
      · rw [beq_eq_false_iff_ne.2 hheader]
        exact hother (headers_continueWith hheader line)
  | value => exact hother (headers_startValue s line)
  | key => exact hother (.withFound rfl fun _ _ => .accept rfl)
  | emptyValue => exact hother (.accept (headers_startEmptyValue s))
  | blank | comment | emptyKey | context => exact hother (.accept rfl)
  | unknown =>
      refine hother ?_
      intro t problem ht
      cases ht
      rfl

end Fields

section Runs

variable {r : Reading} {number : Nat} {s t : State} {lines : List Text} {junk : List JunkLine}

/-- The lines of a reading that are taken for fields of the header. -/
def fieldLines [Machine] (s : State) : List Text → List Text
  | [] => []
  | content :: lines =>
      let behind :=
        match s.step (Text.trim content) with
        | .ok (next, problem) => fieldLines (next.beyond problem) lines
        | .error _ => []
      if s.takesField (Text.trim content) then Text.trim content :: behind else behind

theorem fieldLines_cons [Machine] {content : Text} {next : State} {problem : Option Problem}
    (h : s.step (Text.trim content) = .ok (next, problem)) :
    fieldLines s (content :: lines) =
      if s.takesField (Text.trim content) then
        Text.trim content :: fieldLines (next.beyond problem) lines
      else fieldLines (next.beyond problem) lines := by
  rw [fieldLines]
  simp only [h]

theorem State.headers_beyond (s : State) (problem : Option Problem) :
    (s.beyond problem).headers = s.headers := by
  cases problem <;> rfl

/-- The last field that names a language gives the language of a run. -/
theorem Reading.language?_run [Machine] (hr : r.strict = false)
    (h : r.run number s lines = .ok (t, junk)) :
    t.headers.get? languageName =
      ((fieldLines s lines).filterMap namedLanguage?).getLast?.or
        (s.headers.get? languageName) := by
  induction lines generalizing number s junk with
  | nil =>
      cases h
      rfl
  | cons content lines ih =>
      obtain ⟨next, problem, rest, hstep, hrun, -⟩ := (run_cons_eq_ok_iff hr).1 h
      have hnext := State.language?_step s (Text.trim content) next problem hstep
      rw [ih hrun, State.headers_beyond, hnext, fieldLines_cons hstep]
      cases s.takesField (Text.trim content) with
      | false => rfl
      | true =>
          rw [if_pos rfl, if_pos rfl, List.filterMap_cons]
          cases namedLanguage? (Text.trim content) with
          | none => rfl
          | some text =>
              rw [List.getLast?_cons]
              cases (List.filterMap namedLanguage? (fieldLines _ lines)).getLast? <;> rfl

end Runs

section Results

variable {path : Option Text} {formula : Formula} {lines : List Text} {file : File}
  {language : Text}

/-- The last of the fields that name a language. -/
theorem exists_of_getLast?_filterMap {α β : Type} {f : α → Option β} {l : List α} {b : β}
    (h : (l.filterMap f).getLast? = some b) :
    ∃ front a rest, l = front ++ a :: rest ∧ f a = some b ∧ ∀ x ∈ rest, f x = none := by
  obtain ⟨values, hvalues⟩ := List.getLast?_eq_some_iff.1 h
  obtain ⟨front, behind, rfl, -, hbehind⟩ := List.filterMap_eq_append_iff.1 hvalues
  obtain ⟨skipped, a, rest, rfl, -, ha, hrest⟩ := List.filterMap_eq_cons_iff.1 hbehind
  exact ⟨front ++ skipped, a, rest, (List.append_assoc ..).symm, ha,
    List.filterMap_eq_nil_iff.1 hrest⟩

theorem declaredLanguage_complete_iff :
    declaredLanguage (.complete lines) = .ok (some language) ↔
      ∃ first, lines.find? declaresLanguage = some first ∧
        declaredLanguage? (Text.trim first) = some language := by
  rw [declaredLanguage, Delivery.complete]
  cases lines.find? declaresLanguage <;> simp

/-- The language of a file is what the last field that names one says.  The discovery finds the same
exactly if the first line that begins with the field of the language says so too; in particular if
there is such a line and all of them say it. -/
theorem File.declaredLanguage_eq_iff [Machine]
    (h : File.parse ⟨false, path⟩ formula lines = .ok file)
    (hlanguage : file.language? = some language) :
    ∃ front last rest, fieldLines (State.initial formula) lines = front ++ last :: rest ∧
      namedLanguage? last = some language ∧ (∀ line ∈ rest, namedLanguage? line = none) ∧
      (declaredLanguage (.complete lines) = .ok file.language? ↔
        ∃ first, lines.find? declaresLanguage = some first ∧
          declaredLanguage? (Text.trim first) = namedLanguage? last) ∧
      ((∃ line ∈ lines, declaresLanguage line = true) →
        (∀ line ∈ lines, declaresLanguage line = true →
          declaredLanguage? (Text.trim line) = namedLanguage? last) →
        declaredLanguage (.complete lines) = .ok file.language?) := by
  obtain ⟨⟨t, junk⟩, hrun, hfile⟩ := map_eq_ok_iff.1 h
  have hlast : ((fieldLines (State.initial formula) lines).filterMap namedLanguage?).getLast? =
      some language := by
    have hheaders : t.headers.get? languageName = some language := by
      rw [← hlanguage, ← hfile]
      rfl
    have hnamed := Reading.language?_run rfl hrun
    rw [hheaders, State.initial, Table.get?_empty, Option.or_none] at hnamed
    exact hnamed.symm
  obtain ⟨front, last, rest, hlines, hnamed, hrest⟩ := exists_of_getLast?_filterMap hlast
  have hiff : declaredLanguage (.complete lines) = .ok file.language? ↔
      ∃ first, lines.find? declaresLanguage = some first ∧
        declaredLanguage? (Text.trim first) = namedLanguage? last := by
    rw [hlanguage, hnamed]
    exact declaredLanguage_complete_iff
  refine ⟨front, last, rest, hlines, hnamed, hrest, hiff, ?_⟩
  rintro ⟨line, hline, hdeclares⟩ hall
  obtain ⟨first, hfirst⟩ :=
    Option.isSome_iff_exists.1 (List.find?_isSome.2 ⟨line, hline, hdeclares⟩)
  exact hiff.2 ⟨first, hfirst,
    hall first (List.mem_of_find?_eq_some hfirst) (List.find?_some hfirst)⟩

/-- A header that gives the language among other fields. -/
theorem File.declaredLanguage_eq_once :
    let lines := ["msgid \"\"", "msgstr \"\"", "\"X-Name: a\\n\"", " \"Language: de\\n\"",
      "\"Plural-Forms: nplurals=2;\\n\""].map String.toList
    ∃ file, File.parse ⟨false, none⟩ .empty lines = .ok file ∧
      file.language? = some "de".toList ∧
      declaredLanguage (.complete lines) = .ok file.language? := by
  intro lines
  obtain ⟨file, hfile⟩ : ∃ file, File.parse ⟨false, none⟩ .empty lines = .ok file := ⟨_, rfl⟩
  have hlanguage : file.language? = some "de".toList := by
    cases hfile
    rfl
  obtain ⟨front, last, rest, -, hnamed, -, hiff, -⟩ := declaredLanguage_eq_iff hfile hlanguage
  have hfirst : lines.find? declaresLanguage = some " \"Language: de\\n\"".toList := rfl
  refine ⟨file, hfile, hlanguage, hiff.2 ⟨_, hfirst, ?_⟩⟩
  rw [hnamed]
  rfl

/-- A header that gives the language twice: the discovery goes by the first field, the reading by
the second. -/
theorem File.declaredLanguage_ne :
    let lines := ["msgid \"\"", "msgstr \"\"", "\"Language: en\\n\"",
      "\"Language: fr\\n\""].map String.toList
    ∃ file, File.parse ⟨false, none⟩ .empty lines = .ok file ∧
      file.language? = some "fr".toList ∧
      declaredLanguage (.complete lines) = .ok (some "en".toList) :=
  ⟨_, rfl, rfl, rfl⟩

end Results

end Po
end Phrasebook
