import Phrasebook.Po.File
import Phrasebook.Proofs.Outcome

/-!
# One line after the other

What a line does to the state of a reading, and what a list of lines does.

**Kinds.**  `LineKind.of` says what a line is by the way it begins; `step_eq_stepAs` takes the
step of a line apart by its kind.
**Header.**  A line of the header leads to a state that differs in the header fields alone
(`State.addField_leads`), that of the formula to one that also has another formula.
**Failure.**  `step_eq_error_iff`: only a formula and the category of a value have numbers that
can end a reading.
**Runs.**  `run_cons_eq_ok_iff` peels the first line off a lenient reading, `run_append` cuts a
reading in two.
-/

namespace Phrasebook
namespace Po

open Plural (Formula FormulaError)

/-- What a line is. -/
inductive LineKind
  | blank
  | comment
  | emptyKey
  | emptyValue
  | formula
  | continuation
  | key (isPlural : Bool)
  | value
  | context
  | unknown
deriving DecidableEq, Repr

section Kinds

/-- The kind of a line without blanks at its ends. -/
def LineKind.of (line : Text) : LineKind :=
  if line.isEmpty then .blank
  else if line.head? = some '#' then .comment
  else if line = emptyKeyLine then .emptyKey
  else if line = emptyValueLine then .emptyValue
  else if line.startsWith formulaField then .formula
  else if line.head? = some '"' then .continuation
  else if line.startsWith pluralKeyWord then .key true
  else if line.startsWith keyWord then .key false
  else if line.startsWith valueWord then .value
  else if line.startsWith contextWord then .context
  else .unknown

variable {line : Text}

/-- The first character tells a line from the two lines with empty quotes. -/
theorem ne_emptyLines {c : Char} (h : c ≠ 'm') (rest : Text) :
    c :: rest ≠ emptyKeyLine ∧ c :: rest ≠ emptyValueLine := by
  constructor
  all_goals
    intro he
    have hletter : some c = some 'm' := congrArg List.head? he
    exact h (Option.some.inj hletter)

theorem LineKind.startsWith_formulaField (h : LineKind.of line = .formula) :
    line.startsWith formulaField = true := by
  grind [of]

theorem LineKind.startsWith_pluralKeyWord (h : LineKind.of line = .key true) :
    line.startsWith pluralKeyWord = true := by
  grind [of]

theorem LineKind.startsWith_valueWord (h : LineKind.of line = .value) :
    line.startsWith valueWord = true := by
  grind [of]

theorem LineKind.head?_of_continuation (h : LineKind.of line = .continuation) :
    line.head? = some '"' := by
  grind [of]

theorem LineKind.of_value_of_ne (h : line.startsWith valueWord = true)
    (he : line ≠ emptyValueLine) : LineKind.of line = .value := by
  obtain ⟨rest, rfl⟩ := List.isPrefixOf_iff_prefix.1 h
  have hkey : valueWord ++ rest ≠ emptyKeyLine := by
    intro hk
    have hletter : some 's' = some 'i' := congrArg (fun line : Text => (line.drop 3).head?) hk
    exact absurd hletter (by decide)
  rw [of, if_neg (by simp [valueWord]), if_neg (by simp [valueWord]), if_neg hkey, if_neg he]
  rfl

theorem LineKind.of_value (h : line.startsWith valueWord = true) :
    LineKind.of line = .emptyValue ∨ LineKind.of line = .value := by
  by_cases he : line = emptyValueLine
  · rw [he]
    exact .inl rfl
  · exact .inr (of_value_of_ne h he)

theorem LineKind.of_quoted (h : line.head? = some '"') :
    LineKind.of line =
      if line.startsWith formulaField = true then .formula else .continuation := by
  obtain ⟨rest, rfl⟩ := List.head?_eq_some_iff.1 h
  have hquote : '"' ≠ 'm' := by decide
  obtain ⟨hkey, hvalue⟩ := ne_emptyLines hquote rest
  rw [of, if_neg (by simp), if_neg (by simp), if_neg hkey, if_neg hvalue, if_pos h]

theorem LineKind.of_formulaField (h : line.startsWith formulaField = true) :
    LineKind.of line = .formula := by
  have hquote : line.head? = some '"' := by
    obtain ⟨rest, rfl⟩ := List.isPrefixOf_iff_prefix.1 h
    rfl
  rw [of_quoted hquote, if_pos h]

theorem LineKind.of_quote (h : line.head? = some '"') :
    LineKind.of line = .formula ∨ LineKind.of line = .continuation := by
  rw [of_quoted h]
  split
  · exact .inl rfl
  · exact .inr rfl

theorem LineKind.of_key_of_ne (h : line.startsWith keyWord = true) (he : line ≠ emptyKeyLine) :
    LineKind.of line = .key (line.startsWith pluralKeyWord) := by
  obtain ⟨rest, rfl⟩ := List.isPrefixOf_iff_prefix.1 h
  have hvalue : keyWord ++ rest ≠ emptyValueLine := by
    intro hv
    have hletter : some 'i' = some 's' := congrArg (fun line : Text => (line.drop 3).head?) hv
    exact absurd hletter (by decide)
  rw [of, if_neg (by simp [keyWord]), if_neg (by simp [keyWord]), if_neg he, if_neg hvalue,
    if_neg (by exact Bool.false_ne_true), if_neg (by simp [keyWord])]
  cases hplural : Text.startsWith (keyWord ++ rest) pluralKeyWord with
  | true => exact if_pos rfl
  | false => rw [if_neg Bool.false_ne_true, if_pos h]

theorem LineKind.of_key (h : line.startsWith keyWord = true) (he : line ≠ emptyKeyLine) :
    ∃ isPlural, LineKind.of line = .key isPlural :=
  ⟨_, of_key_of_ne h he⟩

end Kinds

section Steps

variable {s t : State} {line : Text}

/-- One line of the given kind. -/
def State.stepAs [Machine] (s : State) (line : Text) : LineKind → Step
  | .blank => accept s.interrupted
  | .comment => accept s
  | .emptyKey => accept { s with key := [], isPlural := false, pending := .key }
  | .emptyValue => accept s.startEmptyValue
  | .formula => s.setFormula line
  | .continuation => s.continueWith line
  | .key isPlural => s.startKey isPlural line
  | .value => s.startValue line
  | .context => accept s.interrupted
  | .unknown => .ok (s, some .unknownDirective)

theorem State.step_eq_stepAs [Machine] (s : State) (line : Text) :
    s.step line = s.stepAs line (LineKind.of line) := by
  simp only [State.step, LineKind.of, apply_ite (s.stepAs line)]
  rfl

theorem payload_eq_error {e : LineError} (h : payload line = .error e) :
    e = .malformed .noQuotedString := by
  unfold payload at h
  split at h <;> cases h
  rfl

theorem State.withFound_eq_error_iff {α : Type} {found : Except LineError α} {next : α → Step}
    {e : FormulaError} :
    s.withFound found next = .error e ↔
      (∃ n, found = .error (.numeral n) ∧ e = .numeral n) ∨
        ∃ a, found = .ok a ∧ next a = .error e := by
  rcases found with (_ | _) | _ <;> simp [withFound, eq_comm]

theorem State.withFound_eq_ok_iff {α : Type} {found : Except LineError α} {next : α → Step}
    {t : State} {problem : Option Problem} :
    s.withFound found next = .ok (t, problem) ↔
      (∃ p, found = .error (.malformed p) ∧ t = s ∧ problem = some p) ∨
        ∃ a, found = .ok a ∧ next a = .ok (t, problem) := by
  rcases found with (_ | _) | _ <;> simp [withFound, eq_comm]

/-- Do all states that the step can lead to have the property? -/
def Leads (p : State → Prop) (step : Step) : Prop :=
  ∀ t problem, step = .ok (t, problem) → p t

theorem Leads.accept {p : State → Prop} (h : p s) : Leads p (State.accept s) := by
  intro t problem ht
  cases ht
  exact h

theorem Leads.mono {p q : State → Prop} {step : Step} (h : Leads p step) (hpq : ∀ t, p t → q t) :
    Leads q step :=
  fun t problem ht => hpq t (h t problem ht)

theorem Leads.withFound {α : Type} {p : State → Prop} {found : Except LineError α}
    {next : α → Step} (h : p s) (hnext : ∀ a, found = .ok a → Leads p (next a)) :
    Leads p (s.withFound found next) := by
  intro t problem ht
  rcases State.withFound_eq_ok_iff.1 ht with ⟨_, -, rfl, -⟩ | ⟨a, ha, hok⟩
  · exact h
  · exact hnext a ha t problem hok

theorem Leads.withFound_error {α : Type} {p : State → Prop} {e : LineError} {next : α → Step}
    (h : p s) : Leads p (s.withFound (.error e) next) := by
  refine .withFound h fun a ha => ?_
  cases ha

/-- A line of the header changes the header fields, and nothing else. -/
theorem State.addField_leads (s : State) (line : Text) :
    Leads (fun t => ∃ headers, t = { s with headers := headers }) (s.addField line) := by
  unfold addField
  split
  · exact .accept ⟨_, rfl⟩
  · exact .withFound ⟨s.headers, rfl⟩ fun _ _ => .accept ⟨_, rfl⟩

/-- The line of the formula changes the formula and the header fields, and nothing else. -/
theorem State.setFormula_leads [Machine] (s : State) (line : Text) :
    Leads (fun t => ∃ formula headers,
      t = { s with plurals := { s.plurals with formula := formula }, headers := headers })
      (s.setFormula line) := by
  unfold setFormula
  cases Formula.ofHeader line with
  | error e => exact nofun
  | ok formula =>
      refine (State.addField_leads _ line).mono ?_
      rintro t ⟨headers, rfl⟩
      exact ⟨formula, headers, rfl⟩

/-- A payload has no number. -/
theorem State.withFound_payload_ne_error {next : Text → Step} {e : FormulaError}
    (h : ∀ text, next text ≠ .error e) : s.withFound (payload line) next ≠ .error e := by
  rw [ne_eq, withFound_eq_error_iff]
  rintro (⟨n, hn, -⟩ | ⟨text, -, hnext⟩)
  · exact nomatch payload_eq_error hn
  · exact h text hnext

theorem State.addField_ne_error {e : FormulaError} : s.addField line ≠ .error e := by
  unfold addField
  split
  · exact nofun
  · exact withFound_payload_ne_error nofun

theorem State.continueWith_ne_error {e : FormulaError} : s.continueWith line ≠ .error e := by
  unfold continueWith
  split
  · exact nofun
  iterate 4 exact withFound_payload_ne_error nofun
  · exact addField_ne_error

theorem State.setFormula_eq_error_iff [Machine] {e : FormulaError} :
    s.setFormula line = .error e ↔ Formula.ofHeader line = .error e := by
  unfold setFormula
  cases Formula.ofHeader line with
  | error e' => simp [bind, Except.bind]
  | ok formula => simp [addField_ne_error]

theorem State.startValue_eq_error_iff {e : FormulaError} :
    s.startValue line = .error e ↔
      s.isPlural = true ∧ ∃ n, category line = .error (.numeral n) ∧ e = .numeral n := by
  unfold startValue
  by_cases hplural : s.isPlural = true
  · rw [if_pos hplural, withFound_eq_error_iff]
    refine ⟨?_, fun h => .inl h.2⟩
    rintro (h | ⟨n, -, hpayload⟩)
    · exact ⟨hplural, h⟩
    · exact absurd hpayload (withFound_payload_ne_error nofun)
  · rw [if_neg hplural]
    refine ⟨fun hpayload => absurd hpayload (withFound_payload_ne_error fun text => ?_),
      fun h => absurd h.1 hplural⟩
    split <;> exact nofun

/-- A line ends the reading exactly if it has a formula that cannot be read, or a category that is
no number. -/
theorem State.step_eq_error_iff [Machine] {e : FormulaError} :
    s.step line = .error e ↔
      (LineKind.of line = .formula ∧ Formula.ofHeader line = .error e) ∨
        (LineKind.of line = .value ∧ s.isPlural = true ∧
          ∃ n, category line = .error (.numeral n) ∧ e = .numeral n) := by
  rw [step_eq_stepAs]
  cases LineKind.of line with
  | formula => simp [stepAs, setFormula_eq_error_iff]
  | value => simp [stepAs, startValue_eq_error_iff]
  | continuation => simp [stepAs, continueWith_ne_error]
  | key isPlural =>
      have hkey : s.startKey isPlural line ≠ .error e := withFound_payload_ne_error nofun
      simp [stepAs, hkey]
  | blank | comment | emptyKey | emptyValue | context | unknown => simp [stepAs, accept]

end Steps

section Runs

variable {r : Reading} {number : Nat} {s t : State} {content : Text} {lines : List Text}
  {junk : List JunkLine}

/-- The state in front of the next line, given what is wrong with this one. -/
def State.beyond (s : State) : Option Problem → State
  | none => s
  | some _ => s.interrupted

/-- The junk of one line, given what is wrong with it. -/
def Reading.junkOf (r : Reading) (number : Nat) (content : Text) : Option Problem → List JunkLine
  | none => []
  | some problem => [⟨number, content, ⟨problem, Text.trim content, number, r.sourcePath⟩⟩]

variable [Machine]

theorem Reading.run_cons_of_error {e : FormulaError} (h : s.step (Text.trim content) = .error e) :
    r.run number s (content :: lines) = .error (.stopped e) := by
  rw [run]
  simp only [h]

/-- What ends a reading stands in a line of it. -/
theorem Reading.exists_of_run_eq_stopped {e : FormulaError}
    (h : r.run number s lines = .error (.stopped e)) :
    ∃ content ∈ lines, ∃ u : State, u.step (Text.trim content) = .error e := by
  induction lines generalizing number s with
  | nil => cases h
  | cons content lines ih =>
      rw [run] at h
      simp only at h
      split at h
      next e' hstep =>
        cases h
        exact ⟨content, List.mem_cons_self, s, hstep⟩
      next =>
        obtain ⟨other, hother, hends⟩ := ih h
        exact ⟨other, List.mem_cons_of_mem content hother, hends⟩
      next =>
        split at h
        next => cases h
        next =>
          obtain ⟨other, hother, hends⟩ := ih (map_eq_error_iff.1 h)
          exact ⟨other, List.mem_cons_of_mem content hother, hends⟩

/-- A line of a lenient reading leaves its junk in front of that of the lines behind it. -/
theorem Reading.run_cons_of_ok (hr : r.strict = false) {next : State} {problem : Option Problem}
    (h : s.step (Text.trim content) = .ok (next, problem)) :
    r.run number s (content :: lines) =
      (r.run (number + 1) (next.beyond problem) lines).map fun result =>
        (result.1, r.junkOf number content problem ++ result.2) := by
  rw [run]
  simp only [h]
  cases problem with
  | none =>
      simp only [State.beyond, junkOf, List.nil_append]
      cases r.run (number + 1) next lines <;> rfl
  | some problem =>
      simp only [hr]
      rfl

theorem Reading.run_cons_eq_ok_iff (hr : r.strict = false) :
    r.run number s (content :: lines) = .ok (t, junk) ↔
      ∃ next problem rest, s.step (Text.trim content) = .ok (next, problem) ∧
        r.run (number + 1) (next.beyond problem) lines = .ok (t, rest) ∧
        junk = r.junkOf number content problem ++ rest := by
  constructor
  · intro h
    cases hstep : s.step (Text.trim content) with
    | error e =>
        rw [run_cons_of_error hstep] at h
        cases h
    | ok result =>
        obtain ⟨next, problem⟩ := result
        rw [run_cons_of_ok hr hstep] at h
        cases hrun : r.run (number + 1) (next.beyond problem) lines with
        | error e =>
            rw [hrun] at h
            cases h
        | ok behind =>
            rw [hrun] at h
            cases h
            exact ⟨next, problem, behind.2, rfl, hrun, rfl⟩
  · rintro ⟨next, problem, rest, hstep, hrun, rfl⟩
    rw [run_cons_of_ok hr hstep, hrun]
    rfl

/-- The lines in front are read on their own, and those behind go on from where they end. -/
theorem Reading.run_append (hr : r.strict = false) (front behind : List Text) :
    r.run number s (front ++ behind) =
      (r.run number s front).bind fun first =>
        (r.run (number + front.length) first.1 behind).map fun second =>
          (second.1, first.2 ++ second.2) := by
  induction front generalizing number s with
  | nil =>
      rw [List.nil_append, run]
      simp only [Except.bind, List.length_nil, Nat.add_zero, List.nil_append]
      cases r.run number s behind <;> rfl
  | cons content front ih =>
      rw [List.cons_append]
      cases hstep : s.step (Text.trim content) with
      | error e =>
          rw [run_cons_of_error hstep, run_cons_of_error hstep]
          rfl
      | ok result =>
          obtain ⟨next, problem⟩ := result
          have hlength : number + (content :: front).length = number + 1 + front.length := by
            rw [List.length_cons, Nat.add_right_comm, Nat.add_assoc]
          rw [run_cons_of_ok hr hstep, run_cons_of_ok hr hstep, ih, hlength]
          cases r.run (number + 1) (next.beyond problem) front with
          | error e => rfl
          | ok first =>
              simp only [Except.bind, Except.map]
              cases r.run (number + 1 + front.length) first.1 behind with
              | error e => rfl
              | ok second => simp only [List.append_assoc]

end Runs

end Po
end Phrasebook
