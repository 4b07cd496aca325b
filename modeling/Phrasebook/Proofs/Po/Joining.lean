import Phrasebook.Proofs.Po.Continuation
import Phrasebook.Proofs.Po.Exchange
import Phrasebook.Proofs.Tables

/-!
# Files one behind the other

What comes of the lines of one source behind those of another.

**Invariant.**  What a state goes on with is there (`State.IsSound`), so that a continuation never
reaches what was read before the current entry.
**Layers.**  `State.overlay` puts what a state has read over what an earlier one has.  A step does
the same with and without the layer below (`State.step_overlay`), and so does a run
(`run_overlay`).
**Result.**  `parse_append`: lines that begin with a key add their file to that of the lines in
front.
-/

namespace Phrasebook
namespace Po

open Plural (Formula)

section Invariant

variable {s : State} {line : Text}

/-- Does a pending value belong to the current entry, and is there the template that it goes on
with? -/
structure State.IsSound (s : State) : Prop where
  value : ∀ started, s.pending = .value started → s.key ≠ [] ∧ s.isPlural = false
  started : s.pending = .value true → (s.template? (.single s.key)).isSome = true
  pluralValue : ∀ category, s.pending = .pluralValue category →
    s.isPlural = true ∧ (s.template? (.plural s.key category)).isSome = true

theorem State.IsSound.of_target? (h : s.target? = none) : s.IsSound := by
  obtain ⟨singles, plurals, headers, key, isPlural, pending⟩ := s
  cases pending with
  | value | pluralValue => cases h
  | nothing | key | header => exact ⟨nofun, nofun, nofun⟩

theorem State.IsSound.beyond (h : s.IsSound) (problem : Option Problem) :
    (s.beyond problem).IsSound := by
  cases problem with
  | none => exact h
  | some => exact .of_target? rfl

theorem templateAt_add_self (singles : SingleStore) (plurals : PluralStore) (key : Text)
    (category : Int) (value : Text) :
    templateAt singles (plurals.add key category value) (.plural key category) = some value := by
  have hkey : (plurals.add key category value).plurals.get? key =
      some (((plurals.plurals.get? key).getD Table.empty).set category value) :=
    (Table.get?_modify plurals.plurals key key _).trans (if_pos rfl)
  rw [templateAt, hkey, Option.bind_some, Table.get?_set, if_pos rfl]

theorem State.IsSound.addField (h : s.IsSound) : Leads IsSound (s.addField line) := by
  refine (s.addField_leads line).mono ?_
  rintro t ⟨headers, rfl⟩
  exact ⟨h.1, h.2, h.3⟩

theorem State.IsSound.setFormula [Machine] (h : s.IsSound) : Leads IsSound (s.setFormula line) := by
  refine (s.setFormula_leads line).mono ?_
  rintro t ⟨formula, headers, rfl⟩
  exact ⟨h.1, h.2, h.3⟩

theorem State.IsSound.startEmptyValue (s : State) : s.startEmptyValue.IsSound := by
  unfold State.startEmptyValue
  split
  · exact .of_target? rfl
  · rename_i hkey
    split
    · exact .of_target? rfl
    · rename_i hplural
      refine ⟨fun _ _ => ⟨mt List.isEmpty_iff.2 hkey, by simpa using hplural⟩, nofun, nofun⟩

theorem State.IsSound.startValue (h : s.IsSound) : Leads IsSound (s.startValue line) := by
  unfold State.startValue
  split
  · rename_i hplural
    refine .withFound h fun category _ => .withFound h fun value _ => .accept ?_
    refine ⟨nofun, nofun, fun c hc => ?_⟩
    cases hc
    refine ⟨hplural, ?_⟩
    rw [State.template?, templateAt_add_self]
    rfl
  · rename_i hplural
    refine .withFound h fun value _ => ?_
    split
    · exact .accept (.of_target? rfl)
    · rename_i hkey
      refine .accept ⟨fun _ _ => ⟨mt List.isEmpty_iff.2 hkey, by simpa using hplural⟩,
        fun _ => ?_, nofun⟩
      rw [State.template?, templateAt_set_self]
      rfl

theorem State.IsSound.extended (h : s.IsSound) (chunk : Text) : (s.extended chunk).IsSound := by
  obtain ⟨singles, plurals, headers, key, isPlural, pending⟩ := s
  cases pending with
  | nothing | key | header => exact .of_target? rfl
  | value started =>
      have hvalue := h.value started rfl
      have hthere :
          (templateAt (singles.append key chunk) plurals (.single key)).isSome = true := by
        rw [templateAt_append_self]
        rfl
      cases started with
      | false =>
          refine ⟨fun _ _ => hvalue, fun _ => ?_, nofun⟩
          exact congrArg Option.isSome (templateAt_set_self singles plurals key chunk)
      | true => exact ⟨fun _ _ => hvalue, fun _ => hthere, nofun⟩
  | pluralValue category =>
      refine ⟨nofun, nofun, fun c hc => ?_⟩
      cases hc
      refine ⟨(h.pluralValue category rfl).1, ?_⟩
      exact congrArg Option.isSome (templateAt_appendPlural_self singles plurals key category chunk)

/-- What a line does that begins with a quote, be it well-formed or not. -/
theorem State.continueWith_eq (s : State) (line : Text) :
    s.continueWith line =
      match s.pending with
      | .nothing => accept s
      | .header => s.addField line
      | _ => s.withFound (payload line) fun chunk => accept (s.extended chunk) := by
  rcases s with ⟨_, _, _, _, _, _ | _ | (_ | _) | _ | _⟩ <;> rfl

theorem State.IsSound.continueWith (h : s.IsSound) : Leads IsSound (s.continueWith line) := by
  rw [continueWith_eq]
  split
  · exact .accept h
  · exact h.addField
  · exact .withFound h fun chunk _ => .accept (h.extended chunk)

/-- A line keeps it that pending values are those of the current entry and are there. -/
theorem State.IsSound.step [Machine] (h : s.IsSound) : Leads IsSound (s.step line) := by
  rw [step_eq_stepAs]
  cases LineKind.of line with
  | blank | emptyKey | context => exact .accept (.of_target? rfl)
  | comment => exact .accept h
  | emptyValue => exact .accept (.startEmptyValue s)
  | formula => exact h.setFormula
  | continuation => exact h.continueWith
  | key => exact .withFound h fun _ _ => .accept (.of_target? rfl)
  | value => exact h.startValue
  | unknown =>
      intro t problem ht
      cases ht
      exact h

end Invariant

section Layers

/-- The templates of one table of plural values with those of another one put over them, category
by category. -/
def mergedPlurals (below above : Table Text (Table Int Text)) : Table Text (Table Int Text) :=
  below.merged (fun old new => (old.getD Table.empty).updated new) above

/-- What a state has read over what another one has; `declared` says whether the upper one has a
formula of its own. -/
def State.overlay (below : State) (declared : Bool) (s : State) : State :=
  { s with
    singles := ⟨below.singles.values.updated s.singles.values⟩
    plurals :=
      { formula := if declared then s.plurals.formula else below.plurals.formula
        plurals := mergedPlurals below.plurals.plurals s.plurals.plurals }
    headers := below.headers.updated s.headers }

/-- A step with another layer below. -/
def layered (below : State) (declared : Bool) (step : Step) : Step :=
  step.map fun done => (below.overlay declared done.1, done.2)

variable {below s : State} {declared : Bool} {line : Text}

theorem layered_withFound {α : Type} {found : Except LineError α} {next next' : α → Step}
    (h : ∀ a, next' a = layered below declared (next a)) :
    (below.overlay declared s).withFound found next' =
      layered below declared (s.withFound found next) := by
  rcases found with (problem | e) | a
  · rfl
  · rfl
  · exact h a

theorem getD_mergedPlurals (t u : Table Text (Table Int Text)) (key : Text) :
    ((mergedPlurals t u).get? key).getD Table.empty =
      ((t.get? key).getD Table.empty).updated ((u.get? key).getD Table.empty) := by
  rw [mergedPlurals, Table.get?_merged]
  cases u.get? key <;> rfl

/-- A change of the templates of a key in the upper layer, if it does the same with a layer
below. -/
theorem modify_mergedPlurals (t u : Table Text (Table Int Text)) (key : Text)
    {f : Table Int Text → Table Int Text}
    (h : ∀ templates : Table Int Text,
      f (templates.updated ((u.get? key).getD Table.empty)) =
        templates.updated (f ((u.get? key).getD Table.empty))) :
    (mergedPlurals t u).modify key (fun old => f (old.getD Table.empty)) =
      mergedPlurals t (u.modify key fun old => f (old.getD Table.empty)) := by
  rw [Table.modify, getD_mergedPlurals, h]
  exact (Table.merged_set _).symm

theorem State.startEmptyValue_overlay (below : State) (declared : Bool) (s : State) :
    (below.overlay declared s).startEmptyValue = below.overlay declared s.startEmptyValue := by
  unfold startEmptyValue
  change (if s.key.isEmpty then _ else if s.isPlural then _ else _) = _
  split
  · rfl
  · split <;> rfl

theorem State.extended_overlay (h : s.IsSound) (chunk : Text) :
    (below.overlay declared s).extended chunk = below.overlay declared (s.extended chunk) := by
  obtain ⟨singles, plurals, headers, key, isPlural, pending⟩ := s
  cases pending with
  | nothing | key | header => rfl
  | value started =>
      cases started with
      | false =>
          have hset := Table.set_updated below.singles.values singles.values key chunk
          simp only [overlay, extended, SingleStore.set, hset]
      | true =>
          have hthere : (singles.values.get? key).isSome = true := h.started rfl
          have happend := Table.modify_updated below.singles.values hthere
            fun old => old.getD [] ++ chunk
          simp only [overlay, extended, SingleStore.append, happend]
  | pluralValue category =>
      have hthere :
          (((plurals.plurals.get? key).getD Table.empty).get? category).isSome = true := by
        have hbind : ((plurals.plurals.get? key).bind fun u => u.get? category).isSome = true :=
          (h.pluralValue category rfl).2
        cases hkey : plurals.plurals.get? key with
        | none => simp [hkey] at hbind
        | some templates => simpa [hkey] using hbind
      have happend := modify_mergedPlurals below.plurals.plurals plurals.plurals key
        (f := fun templates => templates.modify category fun old => old.getD [] ++ chunk)
        fun templates => Table.modify_updated templates hthere _
      simp only [overlay, extended, PluralStore.append, PluralStore.update, happend]

theorem State.addField_overlay (below : State) (declared : Bool) (s : State) (line : Text) :
    (below.overlay declared s).addField line = layered below declared (s.addField line) := by
  unfold addField
  split
  · have hset := Table.set_updated below.headers s.headers languageName
      ((declaredLanguage? line).getD [])
    simp only [overlay, hset]
    rfl
  · refine layered_withFound fun text => ?_
    have hfield : withField (below.headers.updated s.headers) (Text.trim text) =
        below.headers.updated (withField s.headers (Text.trim text)) := by
      unfold withField
      split
      · rfl
      · exact Table.set_updated _ _ _ _
    simp only [overlay, hfield]
    rfl

theorem State.setFormula_overlay [Machine] :
    (below.overlay declared s).setFormula line = layered below true (s.setFormula line) := by
  unfold setFormula
  cases Formula.ofHeader line with
  | error e => rfl
  | ok formula =>
      exact addField_overlay below true
        { s with plurals := { s.plurals with formula := formula } } line

theorem State.continueWith_overlay (h : s.IsSound) :
    (below.overlay declared s).continueWith line =
      layered below declared (s.continueWith line) := by
  rw [continueWith_eq, continueWith_eq]
  change (match s.pending with | .nothing => _ | .header => _ | _ => _) = _
  split
  · rfl
  · exact addField_overlay below declared s line
  · refine layered_withFound fun chunk => ?_
    rw [extended_overlay h]
    rfl

theorem State.startValue_overlay :
    (below.overlay declared s).startValue line = layered below declared (s.startValue line) := by
  unfold startValue
  change (if s.isPlural then _ else _) = _
  split
  · refine layered_withFound fun category => layered_withFound fun value => ?_
    have hadd := modify_mergedPlurals below.plurals.plurals s.plurals.plurals s.key
      (f := fun templates => templates.set category value)
      fun templates => Table.set_updated templates _ _ _
    simp only [overlay, PluralStore.add, PluralStore.update, hadd]
    rfl
  · refine layered_withFound fun value => ?_
    change (if s.key.isEmpty then _ else _) = _
    split
    · rfl
    · have hset := Table.set_updated below.singles.values s.singles.values s.key value
      simp only [overlay, SingleStore.set, hset]
      rfl

/-- A line does the same with another layer below; the line of a formula brings its own. -/
theorem State.step_overlay [Machine] (below : State) (declared : Bool) (line : Text)
    (h : s.IsSound) :
    (below.overlay declared s).step line =
      layered below (declared || line.startsWith formulaField) (s.step line) := by
  rw [step_eq_stepAs, step_eq_stepAs]
  by_cases hformula : line.startsWith formulaField = true
  · rw [LineKind.of_formulaField hformula, hformula, Bool.or_true]
    exact setFormula_overlay
  · rw [Bool.not_eq_true] at hformula
    rw [hformula, Bool.or_false]
    cases hkind : LineKind.of line with
    | blank | comment | emptyKey | context | unknown => rfl
    | emptyValue => exact congrArg accept (startEmptyValue_overlay below declared s)
    | formula => simp [LineKind.startsWith_formulaField hkind] at hformula
    | continuation => exact continueWith_overlay h
    | key => exact layered_withFound fun key => rfl
    | value => exact startValue_overlay

variable {r : Reading} {formula : Formula} {front behind lines : List Text} {content key : Text}
  {first second : File}

/-- Does a line of the list set the formula? -/
def declaresFormula (lines : List Text) : Bool :=
  lines.any fun content => (Text.trim content).startsWith formulaField

theorem declaresFormula_cons (content : Text) (lines : List Text) :
    declaresFormula (content :: lines) =
      ((Text.trim content).startsWith formulaField || declaresFormula lines) := rfl

/-- The lines of a source do the same with another layer below. -/
theorem run_overlay [Machine] (hr : r.strict = false) (number : Nat) (h : s.IsSound) :
    r.run number (below.overlay declared s) lines =
      (r.run number s lines).map fun result =>
        (below.overlay (declared || declaresFormula lines) result.1, result.2) := by
  induction lines generalizing number s declared with
  | nil => simp [Reading.run, declaresFormula, Except.map]
  | cons content lines ih =>
      have hstep := State.step_overlay below declared (Text.trim content) h
      cases hdone : s.step (Text.trim content) with
      | error e =>
          rw [hdone] at hstep
          rw [Reading.run_cons_of_error hdone, Reading.run_cons_of_error hstep]
          rfl
      | ok done =>
          obtain ⟨next, problem⟩ := done
          rw [hdone] at hstep
          have hnext : (next.beyond problem).IsSound := (h.step next problem hdone).beyond problem
          have hbeyond : ∀ d, (below.overlay d next).beyond problem =
              below.overlay d (next.beyond problem) := by
            intro d
            cases problem <;> rfl
          rw [Reading.run_cons_of_ok hr hdone, Reading.run_cons_of_ok hr hstep, hbeyond,
            ih (number + 1) hnext, declaresFormula_cons, Bool.or_assoc]
          cases r.run (number + 1) (next.beyond problem) lines <;> rfl

/-- A line with a key begins an entry, whatever has been read in front of it. -/
theorem State.exists_step_key [Machine] (hword : line.startsWith keyWord = true)
    (hkey : payload line = .ok key) :
    ∃ isPlural, ∀ s : State,
      s.step line = .ok ({ s with key := key, isPlural := isPlural, pending := .key }, none) := by
  by_cases hempty : line = emptyKeyLine
  · subst hempty
    have hnil : payload emptyKeyLine = .ok [] := rfl
    rw [hnil] at hkey
    cases hkey
    exact ⟨false, fun s => rfl⟩
  · obtain ⟨isPlural, hkind⟩ := LineKind.of_key hword hempty
    refine ⟨isPlural, fun s => ?_⟩
    rw [step_eq_stepAs, hkind, stepAs, startKey, hkey]
    rfl

/-- A source that begins with a key may be read behind another one: its templates and header fields
update those in front key by key and category by category, its formula counts if it has one, and its
junk follows with the numbers moved on. -/
theorem parse_append [Machine] (hr : r.strict = false)
    (hword : (Text.trim content).startsWith keyWord = true)
    (hkey : payload (Text.trim content) = .ok key)
    (hfirst : File.parse r formula front = .ok first)
    (hsecond : File.parse r formula (content :: behind) = .ok second) :
    File.parse r formula (front ++ content :: behind) =
      .ok
        { singles := ⟨first.singles.values.updated second.singles.values⟩
          plurals :=
            { formula :=
                if declaresFormula (content :: behind) then second.plurals.formula
                else first.plurals.formula
              plurals := mergedPlurals first.plurals.plurals second.plurals.plurals }
          sourcePath := r.sourcePath
          headers := first.headers.updated second.headers
          junk := first.junk ++ second.junk.map (JunkLine.renumbered (· + front.length)) } := by
  obtain ⟨isPlural, hstep⟩ := State.exists_step_key hword hkey
  -- the state behind the key of the second source, read on its own
  let opened : State :=
    { State.initial formula with key := key, isPlural := isPlural, pending := .key }
  have hopened : opened.IsSound := .of_target? rfl
  have hdeclares : declaresFormula (content :: behind) = declaresFormula behind := by
    obtain ⟨rest, hrest⟩ := List.isPrefixOf_iff_prefix.1 hword
    rw [declaresFormula_cons, ← hrest]
    rfl
  have hlast : File.parse r formula (content :: behind) =
      (r.run 2 opened behind).map fun result =>
        ⟨result.1.singles, result.1.plurals, r.sourcePath, result.1.headers, result.2⟩ := by
    rw [File.parse, Reading.run_cons_of_ok hr (hstep _)]
    change Except.map _ (Except.map _ (r.run 2 opened behind)) = _
    cases r.run 2 opened behind <;> rfl
  rw [hlast] at hsecond
  rw [File.parse] at hfirst ⊢
  rw [Reading.run_append hr]
  cases hfront : r.run 1 (State.initial formula) front with
  | error e =>
      rw [hfront] at hfirst
      cases hfirst
  | ok done =>
      obtain ⟨s, junk⟩ := done
      rw [hfront] at hfirst
      cases hfirst
      have hlayer : { s with key := key, isPlural := isPlural, pending := .key } =
          s.overlay false opened := rfl
      have hmoved : r.run (1 + front.length + 1) opened behind =
          renumberedRun (· + front.length) (r.run 2 opened behind) :=
        run_renumbered fun i _ => by omega
      simp only [Except.bind, Reading.run_cons_of_ok hr (hstep s), State.beyond]
      rw [hlayer, run_overlay hr _ hopened, hmoved]
      cases hbehind : r.run 2 opened behind with
      | error e =>
          rw [hbehind] at hsecond
          cases hsecond
      | ok result =>
          rw [hbehind] at hsecond
          cases hsecond
          rw [hdeclares]
          rfl

/-- A second source goes on with a plural and with a single of the first one, and is cut short by a
malformed line. -/
theorem parse_append_update :
    let front := ["msgid \"a\"", "msgstr \"x\"", "msgid_plural \"p\"", "msgstr[0] \"y\"",
      "msgid \"b\"", "msgstr \"z\""].map String.toList
    let behind := ["\"p\"", "msgstr[1] \"u\"", "msgid \"a\"", "msgstr \"w\"", "nonsense"].map
      String.toList
    ∃ file,
      File.parse ⟨false, none⟩ .empty (front ++ "msgid_plural \"\"".toList :: behind) = .ok file ∧
      file.singles.values.entries = [(['a'], ['w']), (['b'], ['z'])] ∧
      file.plurals.plurals.entries.map (fun e => (e.1, e.2.entries)) =
        [(['p'], [(0, ['y']), (1, ['u'])])] ∧
      file.junk.map JunkLine.lineNumber = [12] := by
  intro front behind
  obtain ⟨first, hfirst⟩ : ∃ first, File.parse ⟨false, none⟩ .empty front = .ok first := ⟨_, rfl⟩
  obtain ⟨second, hsecond⟩ : ∃ second,
      File.parse ⟨false, none⟩ .empty ("msgid_plural \"\"".toList :: behind) = .ok second :=
    ⟨_, rfl⟩
  refine ⟨_, parse_append rfl rfl rfl hfirst hsecond, ?_⟩
  cases hfirst
  cases hsecond
  exact ⟨rfl, rfl, rfl⟩

end Layers

end Po
end Phrasebook
