import Mathlib
import Phrasebook.Proofs.Plural.Limiting
import Phrasebook.Proofs.Plural.LineEnd
import Phrasebook.Proofs.Po.Stepping

/-!
# Malformed lines

What a reading keeps of the lines that it cannot use, and what a strict reading makes of them.

**Effect.**  `run_cons_malformed`: a line is checked before it changes anything, so that a malformed
one leaves the state as it is.  The line of a formula does not keep to that
(`parse_malformedFormula`).
**Junk.**  The junk of a lenient reading are lines of the file with their numbers, in order
(`run_junk`).
**Strictness.**  `parse_strict`: a strict reading is the lenient one up to its first junk, and
fails on that.
**Totality.**  `parse_total`: a lenient reading gives a file, and a strict one fails on malformed
lines alone, if the numbers of the file are legible and its formulas are not nested too deep.  A
category of superscripts is not legible, and ends even a lenient reading (`parse_superscript`), and
so does a formula of chains in chains (`parse_nestedLine`).
-/

namespace Phrasebook
namespace Po

open Plural (Formula FormulaError IsTooDeep)

section Effect

variable {s next : State} {line : Text}

/-- Does the step keep the state if it finds something wrong with the line? -/
def KeepsIfMalformed (s : State) (step : Step) : Prop :=
  ∀ next problem, step = .ok (next, some problem) → next = s

theorem KeepsIfMalformed.accept (s t : State) : KeepsIfMalformed s (State.accept t) :=
  nofun

theorem KeepsIfMalformed.withFound {α : Type} {found : Except LineError α} {next : α → Step}
    (h : ∀ a, KeepsIfMalformed s (next a)) : KeepsIfMalformed s (s.withFound found next) := by
  intro t problem ht
  rcases State.withFound_eq_ok_iff.1 ht with ⟨_, -, rfl, -⟩ | ⟨a, -, hok⟩
  · rfl
  · exact h a t problem hok

theorem KeepsIfMalformed.addField (s : State) (line : Text) :
    KeepsIfMalformed s (s.addField line) := by
  unfold State.addField
  split
  · exact .accept s _
  · exact .withFound fun _ => .accept s _

theorem KeepsIfMalformed.continueWith (s : State) (line : Text) :
    KeepsIfMalformed s (s.continueWith line) := by
  unfold State.continueWith
  split
  · exact .accept s _
  iterate 4 exact .withFound fun _ => .accept s _
  · exact .addField s line

theorem KeepsIfMalformed.startValue (s : State) (line : Text) :
    KeepsIfMalformed s (s.startValue line) := by
  unfold State.startValue
  split
  · exact .withFound fun _ => .withFound fun _ => .accept s _
  · refine .withFound fun _ => ?_
    split <;> exact .accept s _

/-- All lines but those of a formula are checked before they change anything. -/
theorem KeepsIfMalformed.step [Machine] (h : line.startsWith formulaField = false) :
    KeepsIfMalformed s (s.step line) := by
  rw [State.step_eq_stepAs]
  cases hkind : LineKind.of line with
  | blank | comment | emptyKey | emptyValue | context => exact .accept s _
  | formula => simp [LineKind.startsWith_formulaField hkind] at h
  | continuation => exact .continueWith s line
  | key => exact .withFound fun _ => .accept s _
  | value => exact .startValue s line
  | unknown =>
      intro next problem hnext
      cases hnext
      rfl

/-- The line of a formula sets it before the rest of the line is checked. -/
theorem State.step_malformedFormula [Machine] {problem : Problem}
    (hformula : line.startsWith formulaField = true)
    (h : s.step line = .ok (next, some problem)) :
    ∃ formula, Formula.ofHeader line = .ok formula ∧
      next = { s with plurals := { s.plurals with formula := formula } } := by
  rw [step_eq_stepAs, LineKind.of_formulaField hformula, stepAs, setFormula, bind_eq_ok_iff] at h
  obtain ⟨formula, hok, hfield⟩ := h
  exact ⟨formula, hok, KeepsIfMalformed.addField _ line next problem hfield⟩

/-- A malformed line leaves nothing behind in a lenient reading but its junk and the end of what was
continued; only the line of a formula has set the formula by then. -/
theorem run_cons_malformed [Machine] {r : Reading} (hr : r.strict = false) {content : Text}
    {problem : Problem} (h : s.step (Text.trim content) = .ok (next, some problem)) :
    ((Text.trim content).startsWith formulaField = false → next = s) ∧
      ((Text.trim content).startsWith formulaField = true →
        ∃ formula, Formula.ofHeader (Text.trim content) = .ok formula ∧
          next = { s with plurals := { s.plurals with formula := formula } }) ∧
      ∀ number lines, r.run number s (content :: lines) =
        (r.run (number + 1) next.interrupted lines).map fun result =>
          (result.1,
            ⟨number, content, ⟨problem, Text.trim content, number, r.sourcePath⟩⟩ :: result.2) := by
  refine ⟨fun hformula => ?_, fun hformula => ?_, fun number lines => ?_⟩
  · exact KeepsIfMalformed.step hformula next problem h
  · exact State.step_malformedFormula hformula h
  · exact Reading.run_cons_of_ok hr h

/-- The category of a malformed value is read, and yet nothing comes of the line. -/
theorem run_cons_malformed_value :
    let s := { State.initial .empty with key := ['p'], isPlural := true, pending := .key }
    let content := " msgstr[0] y".toList
    let error : ParseError := ⟨.noQuotedString, "msgstr[0] y".toList, 3, none⟩
    s.step (Text.trim content) = .ok (s, some .noQuotedString) ∧
      (⟨false, none⟩ : Reading).run 3 s [content] =
        .ok (s.interrupted, [⟨3, content, error⟩]) := by
  intro s content error
  obtain ⟨next, hstep⟩ : ∃ next, s.step (Text.trim content) = .ok (next, some .noQuotedString) :=
    ⟨_, rfl⟩
  obtain ⟨hkeeps, -, hrun⟩ := run_cons_malformed (r := ⟨false, none⟩) rfl hstep
  obtain rfl := hkeeps rfl
  exact ⟨hstep, hrun 3 []⟩

/-- A line of a formula that lacks its last quote is junk, and yet its formula counts. -/
theorem parse_malformedFormula :
    let line : Text := "\"Plural-Forms: nplurals=2; plural=n;".toList
    ∃ file, File.parse ⟨false, none⟩ .empty [line] = .ok file ∧
      file.junk.map JunkLine.lineNumber = [1] ∧
      file.plurals.formula = ⟨[⟨['n'], 1⟩], some 2, ['n']⟩ := by
  intro line
  have hexpression : Plural.headerExpression line = ['n'] :=
    Plural.stripParens_of_not_wrapped rfl
  have hformula : Formula.ofHeader line = .ok ⟨[⟨['n'], 1⟩], some 2, ['n']⟩ := by
    rw [Formula.ofHeader, hexpression]
    rfl
  have hfield : Text.startsWith line formulaField = true := rfl
  have hstep : (State.initial .empty).step line = .ok
      ({ State.initial .empty with plurals := .empty ⟨[⟨['n'], 1⟩], some 2, ['n']⟩ },
        some .noQuotedString) := by
    rw [State.step_eq_stepAs, LineKind.of_formulaField hfield, State.stepAs, State.setFormula,
      hformula]
    rfl
  have hparse : File.parse ⟨false, none⟩ .empty [line] = .ok
      { singles := .empty
        plurals := .empty ⟨[⟨['n'], 1⟩], some 2, ['n']⟩
        sourcePath := none
        headers := .empty
        junk := [⟨1, line, ⟨.noQuotedString, line, 1, none⟩⟩] } := by
    rw [File.parse, Reading.run_cons_of_ok rfl hstep]
    rfl
  exact ⟨_, hparse, rfl, rfl⟩

end Effect

section Strictness

variable {sourcePath : Option Text} {number : Nat} {s t : State} {lines : List Text}
  {junk : List JunkLine}

/-- The two ways to read go through the same states up to the first junk. -/
theorem run_strict [Machine]
    (h : (⟨false, sourcePath⟩ : Reading).run number s lines = .ok (t, junk)) :
    (⟨true, sourcePath⟩ : Reading).run number s lines =
      match junk.head? with
      | none => .ok (t, [])
      | some first => .error (.malformed first.error) := by
  induction lines generalizing number s junk with
  | nil =>
      cases h
      rfl
  | cons content lines ih =>
      obtain ⟨next, problem, rest, hstep, hrun, rfl⟩ := (Reading.run_cons_eq_ok_iff rfl).1 h
      rw [Reading.run]
      simp only [hstep]
      cases problem with
      | none => exact ih hrun
      | some problem => rfl

/-- A strict reading agrees with the lenient one: it gives the same file if that is without junk,
and fails with the error of the first junk otherwise. -/
theorem parse_strict [Machine] {formula : Formula} {file : File}
    (h : File.parse ⟨false, sourcePath⟩ formula lines = .ok file) :
    File.parse ⟨true, sourcePath⟩ formula lines =
      match file.junk.head? with
      | none => .ok file
      | some first => .error (.malformed first.error) := by
  unfold File.parse at h ⊢
  cases hrun : (⟨false, sourcePath⟩ : Reading).run 1 (State.initial formula) lines with
  | error e =>
      rw [hrun] at h
      cases h
  | ok result =>
      obtain ⟨t, junk⟩ := result
      rw [hrun] at h
      cases h
      rw [run_strict hrun]
      cases junk <;> rfl

/-- The second of two malformed lines does not show. -/
theorem parse_strict_second :
    let lines := ["msgid \"a\"", "msgstr x", "msgstr \"y\"", "msgid"].map String.toList
    let error : ParseError := ⟨.noQuotedString, "msgstr x".toList, 2, none⟩
    File.parse ⟨true, none⟩ .empty lines = .error (.malformed error) := by
  intro lines error
  have hlenient : File.parse ⟨false, none⟩ .empty lines = .ok
      { singles := ⟨Table.ofList [(['a'], ['y'])]⟩
        plurals := .empty .empty
        sourcePath := none
        headers := .empty
        junk := [⟨2, "msgstr x".toList, error⟩,
          ⟨4, "msgid".toList, ⟨.noQuotedString, "msgid".toList, 4, none⟩⟩] } := by
    rfl
  exact parse_strict hlenient

end Strictness

section Junk

variable {r : Reading} {number : Nat} {s t : State} {lines : List Text} {junk : List JunkLine}

/-- Does the error of a junk line speak of that line? -/
def JunkLine.IsFaithful (sourcePath : Option Text) (j : JunkLine) : Prop :=
  j.error.lineNumber = j.lineNumber ∧ j.error.line = Text.trim j.content ∧
    j.error.sourcePath = sourcePath

/-- Is the junk made of lines of the file, in order and with errors that speak of them? -/
structure IsJunkOf (sourcePath : Option Text) (lines : List Text) (junk : List JunkLine) :
    Prop where
  increasing : junk.Pairwise fun j k => j.lineNumber < k.lineNumber
  within : ∀ j ∈ junk, 1 ≤ j.lineNumber ∧ j.lineNumber ≤ lines.length
  content : ∀ j ∈ junk, lines[j.lineNumber - 1]? = some j.content
  faithful : ∀ j ∈ junk, j.IsFaithful sourcePath

/-- The junk stands among the numbered lines in their order. -/
theorem run_junk [Machine] (hr : r.strict = false) (h : r.run number s lines = .ok (t, junk)) :
    (junk.map fun j => (j.content, j.lineNumber)).Sublist (lines.zipIdx number) ∧
      ∀ j ∈ junk, j.IsFaithful r.sourcePath := by
  induction lines generalizing number s junk with
  | nil =>
      cases h
      exact ⟨List.nil_sublist _, nofun⟩
  | cons content lines ih =>
      obtain ⟨next, problem, rest, -, hrun, rfl⟩ := (Reading.run_cons_eq_ok_iff hr).1 h
      obtain ⟨hsublist, hfaithful⟩ := ih hrun
      rw [List.zipIdx_cons]
      cases problem with
      | none => exact ⟨hsublist.cons _, hfaithful⟩
      | some problem =>
          exact ⟨hsublist.cons_cons _, List.forall_mem_cons.2 ⟨⟨rfl, rfl, rfl⟩, hfaithful⟩⟩

theorem isJunkOf_of_sublist {sourcePath : Option Text}
    (hsublist : (junk.map fun j => (j.content, j.lineNumber)).Sublist (lines.zipIdx 1))
    (hfaithful : ∀ j ∈ junk, j.IsFaithful sourcePath) : IsJunkOf sourcePath lines junk := by
  have hplace : ∀ j ∈ junk, 1 ≤ j.lineNumber ∧ lines[j.lineNumber - 1]? = some j.content :=
    fun j hj => List.mk_mem_zipIdx_iff_le_and_getElem?_sub.1
      (hsublist.subset (List.mem_map_of_mem hj))
  refine ⟨?_, fun j hj => ⟨(hplace j hj).1, ?_⟩, fun j hj => (hplace j hj).2, hfaithful⟩
  · have hnumbers := hsublist.map Prod.snd
    rw [List.map_map, List.zipIdx_map_snd] at hnumbers
    exact List.pairwise_map.1 (List.Pairwise.sublist hnumbers List.pairwise_lt_range')
  · obtain ⟨hlength, -⟩ := List.getElem?_eq_some_iff.1 (hplace j hj).2
    omega

end Junk

section Totality

variable {line : Text} {lines : List Text}

/-- Can the numbers be read that the line may be asked for: all those of a formula, and the
category of a value? -/
def NumbersLegible (line : Text) : Prop :=
  (line.startsWith formulaField = true → IsLegible line) ∧
    (line.startsWith valueWord = true → ∀ inner ∈ bracketed? line, IsLegible inner)

/-- Does the machine go as deep as the chains of the line, if that has a formula? -/
def ChainsFit [Machine] (line : Text) : Prop :=
  line.startsWith formulaField = true → ¬IsTooDeep line

theorem isInfix_of_bracketed? {inner : Text} (h : inner ∈ bracketed? line) : inner <:+: line := by
  rw [Option.mem_def, bracketed?] at h
  split at h
  · cases h
  · rename_i rest hrest
    split at h
    · cases h
    · split at h
      · cases h
        exact (Text.isInfix_before ']' rest).trans (Text.isSuffix_of_after? hrest).isInfix
      · cases h

theorem numbersLegible_of_isLegible (h : IsLegible line) : NumbersLegible line :=
  ⟨fun _ => h, fun _ _ hinner => h.of_isInfix (isInfix_of_bracketed? hinner)⟩

theorem category_ne_numeral {e : NumeralError}
    (h : ∀ inner ∈ bracketed? line, IsLegible inner) : category line ≠ .error (.numeral e) := by
  unfold category
  cases hinner : bracketed? line with
  | none => exact nofun
  | some inner =>
      simp only
      split
      · rename_i hdigits
        have hlegible : IsLegible (Text.trim inner) :=
          (h inner hinner).of_isInfix (Text.isInfix_trim inner)
        obtain ⟨n, hn⟩ := hlegible.readNumeral_eq_ok hdigits
        rw [hn]
        exact nofun
      · exact nofun

theorem State.exists_step [Machine] (s : State) (h : NumbersLegible line) (hfit : ChainsFit line) :
    ∃ next problem, s.step line = .ok (next, problem) := by
  cases hstep : s.step line with
  | ok result => exact ⟨result.1, result.2, rfl⟩
  | error e =>
      rcases State.step_eq_error_iff.1 hstep with ⟨hkind, hformula⟩ | ⟨hkind, -, _, hcategory, -⟩
      · have hfield : line.startsWith formulaField = true := LineKind.startsWith_formulaField hkind
        obtain ⟨formula, hok⟩ := Formula.exists_ofHeader (h.1 hfield) (hfit hfield)
        rw [hok] at hformula
        cases hformula
      · exact absurd hcategory (category_ne_numeral (h.2 (LineKind.startsWith_valueWord hkind)))

theorem exists_run [Machine] {r : Reading} (hr : r.strict = false)
    (h : ∀ content ∈ lines, NumbersLegible (Text.trim content))
    (hfit : ∀ content ∈ lines, ChainsFit (Text.trim content)) (number : Nat) (s : State) :
    ∃ t junk, r.run number s lines = .ok (t, junk) := by
  induction lines generalizing number s with
  | nil => exact ⟨s, [], rfl⟩
  | cons content lines ih =>
      obtain ⟨hcontent, hlines⟩ := List.forall_mem_cons.1 h
      obtain ⟨hchains, hfits⟩ := List.forall_mem_cons.1 hfit
      obtain ⟨next, problem, hstep⟩ := s.exists_step hcontent hchains
      obtain ⟨t, junk, hrun⟩ := ih hlines hfits (number + 1) (next.beyond problem)
      rw [Reading.run_cons_of_ok hr hstep, hrun]
      exact ⟨t, r.junkOf number content problem ++ junk, rfl⟩

/-- A lenient reading does not fail on malformed lines. -/
theorem run_ne_malformed [Machine] {r : Reading} (hr : r.strict = false) {number : Nat} {s : State}
    {e : ParseError} : r.run number s lines ≠ .error (.malformed e) := by
  induction lines generalizing number s with
  | nil => exact nofun
  | cons content lines ih =>
      cases hstep : s.step (Text.trim content) with
      | error n =>
          rw [Reading.run_cons_of_error hstep]
          exact nofun
      | ok result =>
          rw [Reading.run_cons_of_ok hr hstep, ne_eq, map_eq_error_iff]
          exact ih

/-- What a lenient reading keeps as junk are the lines of the file that it reports, and no
malformed line makes it fail.  If the numbers of the file are legible and the machine goes as deep
as its chains, it gives a file, and a strict reading fails on nothing but a malformed line. -/
theorem parse_total [Machine] (sourcePath : Option Text) (formula : Formula) (lines : List Text) :
    (∀ file, File.parse ⟨false, sourcePath⟩ formula lines = .ok file →
        IsJunkOf sourcePath lines file.junk) ∧
      (∀ e, File.parse ⟨false, sourcePath⟩ formula lines ≠ .error (.malformed e)) ∧
      ((∀ content ∈ lines, NumbersLegible (Text.trim content)) →
        (∀ content ∈ lines, ChainsFit (Text.trim content)) →
        (∃ file, File.parse ⟨false, sourcePath⟩ formula lines = .ok file) ∧
          ∀ e, File.parse ⟨true, sourcePath⟩ formula lines = .error e →
            ∃ fault, e = .malformed fault) := by
  refine ⟨fun file hfile => ?_, fun e => ?_, fun hlegible hfit => ?_⟩
  · unfold File.parse at hfile
    cases hrun : (⟨false, sourcePath⟩ : Reading).run 1 (State.initial formula) lines with
    | error e =>
        rw [hrun] at hfile
        cases hfile
    | ok result =>
        rw [hrun] at hfile
        cases hfile
        obtain ⟨hsublist, hfaithful⟩ := run_junk rfl hrun
        exact isJunkOf_of_sublist hsublist hfaithful
  · rw [ne_eq, File.parse, map_eq_error_iff]
    exact run_ne_malformed rfl
  · obtain ⟨t, junk, hrun⟩ :=
      exists_run (r := ⟨false, sourcePath⟩) rfl hlegible hfit 1 (State.initial formula)
    refine ⟨⟨_, by rw [File.parse, hrun]; rfl⟩, fun e he => ?_⟩
    rw [File.parse, map_eq_error_iff, run_strict hrun] at he
    cases junk with
    | nil => cases he
    | cons first rest =>
        cases he
        exact ⟨first.error, rfl⟩

/-- A formula, and categories that are no number and a number. -/
theorem parse_total_mixed :
    let lines := ["\"Plural-Forms: nplurals=2; plural=n;\"", "msgid_plural \"p\"",
      "msgstr[x] \"q\"", " msgstr[1] \"q\""].map String.toList
    (∀ content ∈ lines, NumbersLegible (Text.trim content)) ∧
      (∀ content ∈ lines, ChainsFit (Text.trim content)) ∧
      (∃ file, File.parse ⟨false, none⟩ .empty lines = .ok file) ∧
        ∀ e, File.parse ⟨true, none⟩ .empty lines = .error e → ∃ fault, e = .malformed fault := by
  intro lines
  have hlegible : ∀ content ∈ lines, NumbersLegible (Text.trim content) := by
    have hdecimal : ∀ content ∈ lines,
        (content.all fun c => !isDigit c || isDecimal c) = true := by decide
    have hlength : ∀ content ∈ lines, content.length ≤ digitLimit := by decide
    intro content hcontent
    have h : IsLegible content :=
      isLegible_of_length_le (hdecimal content hcontent) (hlength content hcontent)
    exact numbersLegible_of_isLegible (h.of_isInfix (Text.isInfix_trim content))
  have hfit : ∀ content ∈ lines, ChainsFit (Text.trim content) := by
    have hflat : ∀ content ∈ lines, Plural.nesting (Text.trim content) ≤ Machine.chainDepth := by
      decide
    exact fun content hcontent _ => Plural.not_isTooDeep_of_nesting_le (hflat content hcontent)
  exact ⟨hlegible, hfit, (parse_total none .empty lines).2.2 hlegible hfit⟩

/-- The header line of a formula with chains that stand as deep one in the other. -/
def nestedLine (depth : Nat) : Text :=
  '"' :: ("Plural-Forms: ".toList ++ Formula.headerValue (Plural.nestedChain depth) none ++ ['"'])

theorem ofHeader_nestedLine [Machine] (depth : Nat) :
    Formula.ofHeader (nestedLine depth) = Formula.ofExpression (Plural.nestedChain depth) none := by
  have hvalue : Formula.headerValue (Plural.nestedChain depth) none =
      "plural=".toList ++ Plural.nestedChain depth ++ [';'] := rfl
  have hclosed : ¬['"'] <:+ "\"Plural-Forms: ".toList ++
      Formula.headerValue (Plural.nestedChain depth) none := by
    rintro ⟨front, hfront⟩
    rw [hvalue, ← List.append_assoc] at hfront
    exact absurd (List.append_inj' hfront rfl).2 (by decide)
  have hparts : nestedLine depth = "\"Plural-Forms: ".toList ++
      Formula.headerValue (Plural.nestedChain depth) none ++ ['"'] := rfl
  have hdigits : ∀ u, Plural.categoryDigits? ("\"Plural-Forms: ".toList ++ u) =
      Plural.categoryDigits? u := fun _ => rfl
  have hassigned : ∀ u, Plural.behindPlural? false ("\"Plural-Forms: ".toList ++ u) =
      Plural.behindPlural? false u := fun _ => rfl
  rw [hparts, Formula.ofHeader_quote hclosed, Formula.ofExpression, Formula.ofHeader,
    Formula.ofHeader, Formula.declaredCategories, Formula.declaredCategories, hdigits,
    Plural.headerExpression, Plural.headerExpression, hassigned]

/-- However deep the machine goes, there is a well-formed line on which it gives up. -/
theorem parse_nestedLine [Machine] {depth : Nat} (h : Machine.chainDepth < depth) (r : Reading)
    (formula : Formula) :
    File.parse r formula [nestedLine depth] = .error (.stopped .nestedTooDeep) := by
  have hformula : Formula.ofHeader (nestedLine depth) = .error .nestedTooDeep := by
    rw [ofHeader_nestedLine, Plural.ofExpression_nestedChain, if_neg (Nat.not_le_of_lt h)]
  have htrim : Text.trim (nestedLine depth) = nestedLine depth :=
    Text.trim_cons_concat rfl rfl _
  have hfield : (nestedLine depth).startsWith formulaField = true :=
    List.isPrefixOf_iff_prefix.2 ⟨_, by rw [nestedLine, List.append_assoc]; rfl⟩
  have hstep : (State.initial formula).step (Text.trim (nestedLine depth)) =
      .error .nestedTooDeep := by
    rw [htrim, State.step_eq_error_iff]
    exact .inl ⟨LineKind.of_formulaField hfield, hformula⟩
  rw [File.parse, Reading.run_cons_of_error hstep]
  rfl

/-- A superscript is a digit, but no number can be read from it. -/
theorem parse_superscript :
    let lines := ["msgid_plural \"P\"", "msgstr[²] \"p\""].map String.toList
    let failure : ReadError := .stopped (.numeral (.notDecimal ['²']))
    File.parse ⟨false, none⟩ .empty lines = .error failure ∧
      File.parse ⟨true, none⟩ .empty lines = .error failure := by
  exact ⟨rfl, rfl⟩

end Totality

end Po
end Phrasebook
