import Mathlib
import Phrasebook.Proofs.Plural.Degrading
import Phrasebook.Proofs.Po.Recovery
import Phrasebook.Resolver.Lookup

/-!
# Answers of a resolver

A resolver with a selection answers a question in exactly one way.

**Questions.**  A `Question` asks for the text of a key, with a quantity or without.  `Says`
tells what a list of files answers: the first file that knows the key decides, a quantity is
looked at by the formula of this very file, and without a template for its category there is no
text.
**Chain.**  `Chain` has one case for each outcome: the text of the active catalog without an
event, the text of the fallback catalog with the event that it was needed, the answer of the
policy with the event that a text is missing, and the failure of either catalog.
**Failures.**  A template that its arguments do not fit fails the question.  So does a formula
that divides by zero a number too long to be shown; any other broken formula selects the
category 0.
**Results.**  `Resolver.ask_chain`, and `Resolver.ask_long_quantity` for the failing formula.
-/

namespace Phrasebook

open Printf (formatTemplate)

/-- What a text is asked for with. -/
inductive Question
  | single
  | plural (quantity : Int)
deriving DecidableEq, Repr

namespace Question

variable (q : Question) (key : Text)

/-- The quantity of a question. -/
def quantity? : Question → Option Int
  | .single => none
  | .plural quantity => some quantity

/-- Does a file know the key? -/
def knows (f : Po.File) : Bool :=
  match q with
  | .single => f.singles.has key
  | .plural _ => f.plurals.has key

/-- The template that a file has; its own formula selects the category of a quantity. -/
def template? (f : Po.File) : Except NumeralError (Option Text) :=
  match q with
  | .single => .ok (f.template? (.single key))
  | .plural quantity =>
      (f.plurals.formula.evaluate quantity).map fun (category : Nat) =>
        f.template? (.plural key category)

/-- What a catalog finds. -/
def look [Machine] (args : List Argument) (c : Catalog) : Except TextError Lookup :=
  match q with
  | .single => c.single key args
  | .plural quantity => c.plural key quantity args

/-- Is the file the first one of the list that knows the key? -/
def IsDecidedBy (files : List Po.File) (f : Po.File) : Prop :=
  ∃ front behind, files = front ++ f :: behind ∧
    (∀ g ∈ front, q.knows key g = false) ∧ q.knows key f = true

/-- What a list of files answers. -/
inductive Says [Machine] (args : List Argument) (files : List Po.File) :
    Except TextError (Option Text) → Prop
  | unknown (h : ∀ f ∈ files, q.knows key f = false) : Says args files (.ok none)
  | noTemplate {f : Po.File} (hf : q.IsDecidedBy key files f)
      (h : q.template? key f = .ok none) : Says args files (.ok none)
  | text {f : Po.File} {template text : Text} (hf : q.IsDecidedBy key files f)
      (h : q.template? key f = .ok (some template))
      (hfill : formatTemplate template args = .ok text) : Says args files (.ok (some text))
  | misfit {f : Po.File} {template : Text} {e : Printf.TemplateError}
      (hf : q.IsDecidedBy key files f) (h : q.template? key f = .ok (some template))
      (hfill : formatTemplate template args = .error e) : Says args files (.error (.template e))
  | noCategory {f : Po.File} (hf : q.IsDecidedBy key files f)
      (h : q.template? key f = .error .tooLong) : Says args files (.error (.numeral .tooLong))

section Saying

variable {q} {key} {args : List Argument} {files : List Po.File} {f : Po.File}

theorem isDecidedBy_iff_find? :
    q.IsDecidedBy key files f ↔ files.find? (q.knows key) = some f := by
  rw [List.find?_eq_some_iff_append]
  constructor
  · rintro ⟨front, behind, hfiles, hfront, hf⟩
    exact ⟨hf, front, behind, hfiles, fun g hg => by simp [hfront g hg]⟩
  · rintro ⟨hf, front, behind, hfiles, hfront⟩
    exact ⟨front, behind, hfiles, fun g hg => by simpa using hfront g hg, hf⟩

theorem eq_of_template?_eq_error {e : NumeralError} (h : q.template? key f = .error e) :
    e = .tooLong := by
  cases q with
  | single => cases h
  | plural quantity => exact Plural.Formula.eq_of_evaluate_eq_error (map_eq_error_iff.1 h)

variable [Machine]

/-- What a file answers that knows the key. -/
def answerOf (q : Question) (key : Text) (args : List Argument) (f : Po.File) :
    Except TextError (Option Text) :=
  match q.template? key f with
  | .error e => .error (.numeral e)
  | .ok none => .ok none
  | .ok (some template) => (fill template args).map some

theorem value?_lookup_single (f : Po.File) (key : Text) (args : List Argument) :
    (f.singles.lookup key args).map Lookup.value? = single.answerOf key args f := by
  rw [SingleStore.lookup, answerOf, template?, Po.File.template?, Po.templateAt]
  cases f.singles.values.get? key with
  | none => rfl
  | some template =>
      dsimp only
      cases fill template args <;> rfl

theorem value?_lookup_plural (f : Po.File) (key : Text) (quantity : Int) (args : List Argument)
    (hf : f.plurals.has key = true) :
    (f.plurals.lookup key quantity args).map Lookup.value? =
      (plural quantity).answerOf key args f := by
  rw [PluralStore.lookup, answerOf, template?, Po.File.template?]
  rw [PluralStore.has, Table.has] at hf
  obtain ⟨templates, htemplates⟩ := Option.isSome_iff_exists.1 hf
  rw [htemplates]
  cases hc : f.plurals.formula.evaluate quantity with
  | error e => rfl
  | ok category =>
      have hplace : Po.templateAt f.singles f.plurals (.plural key category) =
          templates.get? category := by
        rw [Po.templateAt, htemplates, Option.bind_some]
      simp only [Except.map, Except.mapError, ok_bind, hplace]
      cases templates.get? category with
      | none => rfl
      | some template =>
          dsimp only
          cases fill template args <;> rfl

/-- What a catalog finds is what its first file answers that knows the key. -/
theorem value?_look (c : Catalog) :
    (q.look key args c).map Lookup.value? =
      ((c.files.find? (q.knows key)).map (q.answerOf key args)).getD (.ok none) := by
  cases q with
  | single =>
      have hknows : single.knows key = fun f => f.singles.has key := rfl
      rw [look, Catalog.single, hknows]
      cases c.files.find? fun f => f.singles.has key with
      | none => rfl
      | some f => exact value?_lookup_single f key args
  | plural quantity =>
      have hknows : (plural quantity).knows key = fun f => f.plurals.has key := rfl
      rw [look, Catalog.plural, hknows]
      cases hfind : c.files.find? fun f => f.plurals.has key with
      | none => rfl
      | some f =>
          have hf := List.find?_some hfind
          exact value?_lookup_plural f key quantity args hf

/-- Each list of files has one answer. -/
theorem says_iff {answer : Except TextError (Option Text)} :
    q.Says key args files answer ↔
      ((files.find? (q.knows key)).map (q.answerOf key args)).getD (.ok none) = answer := by
  constructor
  · intro h
    cases h with
    | unknown h =>
        rw [List.find?_eq_none.2 fun f hf => by simp [h f hf]]
        rfl
    | noTemplate hf h => simp [isDecidedBy_iff_find?.1 hf, answerOf, h]
    | text hf h hfill =>
        simp [isDecidedBy_iff_find?.1 hf, answerOf, h, fill, hfill, Except.mapError, Except.map]
    | misfit hf h hfill =>
        simp [isDecidedBy_iff_find?.1 hf, answerOf, h, fill, hfill, Except.mapError, Except.map]
    | noCategory hf h => simp [isDecidedBy_iff_find?.1 hf, answerOf, h]
  · rintro rfl
    cases hfind : files.find? (q.knows key) with
    | none => exact .unknown fun f hf => by simpa using List.find?_eq_none.1 hfind f hf
    | some f =>
        have hf := isDecidedBy_iff_find?.2 hfind
        rw [Option.map_some, Option.getD_some, answerOf]
        cases h : q.template? key f with
        | error e =>
            obtain rfl := eq_of_template?_eq_error h
            exact .noCategory hf h
        | ok template =>
            cases template with
            | none => exact .noTemplate hf h
            | some template =>
                dsimp only
                cases hfill : formatTemplate template args with
                | error e =>
                    rw [fill, hfill]
                    exact .misfit hf h hfill
                | ok text =>
                    rw [fill, hfill]
                    exact .text hf h hfill

theorem says_look {c : Catalog} {answer : Except TextError (Option Text)} :
    q.Says key args c.files answer ↔ (q.look key args c).map Lookup.value? = answer := by
  rw [says_iff, value?_look]

end Saying

end Question

namespace Selection

variable {s : Selection} {q : Question} {key : Text} {args : List Argument}

/-- What comes of a question, from what the two catalogs say. -/
inductive Chain [Machine] (s : Selection) (q : Question) (key : Text) (args : List Argument) :
    Except TextError Resolved → Prop
  | active {text : Text} (h : q.Says key args s.active.files (.ok (some text))) :
      Chain s q key args (.ok ⟨text, none⟩)
  | fallback {text : Text} (h : q.Says key args s.active.files (.ok none))
      (hother : q.Says key args s.fallback.files (.ok (some text))) :
      Chain s q key args
        (.ok ⟨text, some (.fallback key s.active.locale s.fallback.locale)⟩)
  | missing (h : q.Says key args s.active.files (.ok none))
      (hother : q.Says key args s.fallback.files (.ok none)) :
      Chain s q key args
        (.ok ⟨if s.sendsKey then key else [],
          some (.missing key s.active.locale s.fallback.locale q.quantity?)⟩)
  | activeFails {e : TextError} (h : q.Says key args s.active.files (.error e)) :
      Chain s q key args (.error e)
  | fallbackFails {e : TextError} (h : q.Says key args s.active.files (.ok none))
      (hother : q.Says key args s.fallback.files (.error e)) : Chain s q key args (.error e)

theorem resolve_eq [Machine] (s : Selection) (q : Question) (key : Text) (args : List Argument) :
    s.resolve key q.quantity? (q.look key args) =
      ((q.look key args s.active).map Lookup.value?).bind fun found =>
        match found with
        | some text => .ok ⟨text, none⟩
        | none =>
            ((q.look key args s.fallback).map Lookup.value?).bind fun other =>
              match other with
              | some text =>
                  .ok ⟨text, some (.fallback key s.active.locale s.fallback.locale)⟩
              | none =>
                  .ok ⟨if s.sendsKey then key else [],
                    some (.missing key s.active.locale s.fallback.locale q.quantity?)⟩ := by
  rw [resolve]
  cases q.look key args s.active with
  | error e => rfl
  | ok found =>
      rw [ok_bind]
      simp only [Except.map, Except.bind]
      cases found.value? with
      | some text => rfl
      | none =>
          cases q.look key args s.fallback with
          | error e => rfl
          | ok other =>
              rw [ok_bind]
              dsimp only
              cases other.value? <;> rfl

theorem chain_iff [Machine] {outcome : Except TextError Resolved} :
    s.Chain q key args outcome ↔ s.resolve key q.quantity? (q.look key args) = outcome := by
  rw [resolve_eq]
  constructor
  · intro h
    cases h with
    | active h => rw [Question.says_look.1 h, Except.bind]
    | fallback h hother =>
        rw [Question.says_look.1 h, Question.says_look.1 hother, Except.bind, Except.bind]
    | missing h hother =>
        rw [Question.says_look.1 h, Question.says_look.1 hother, Except.bind, Except.bind]
    | activeFails h => rw [Question.says_look.1 h, Except.bind]
    | fallbackFails h hother =>
        rw [Question.says_look.1 h, Question.says_look.1 hother, Except.bind, Except.bind]
  · rintro rfl
    cases hactive : (q.look key args s.active).map Lookup.value? with
    | error e => exact .activeFails (Question.says_look.2 hactive)
    | ok found =>
        have h := Question.says_look.2 hactive
        cases found with
        | some text => exact .active h
        | none =>
            dsimp only [Except.bind]
            cases hfallback : (q.look key args s.fallback).map Lookup.value? with
            | error e => exact .fallbackFails h (Question.says_look.2 hfallback)
            | ok other =>
                have hother := Question.says_look.2 hfallback
                cases other with
                | some text => exact .fallback h hother
                | none => exact .missing h hother

/-- A selection without the key has no answer to any question for it. -/
theorem says_none_of_hasText [Machine] (h : s.hasText key = false) (q : Question)
    (args : List Argument) :
    q.Says key args s.active.files (.ok none) ∧ q.Says key args s.fallback.files (.ok none) := by
  simp only [hasText, List.any_cons, List.any_nil, Bool.or_false, Bool.or_eq_false_iff,
    Catalog.hasSingle, Catalog.hasPlural, List.any_eq_false] at h
  have hunknown : ∀ c : Catalog, (∀ f ∈ c.files, ¬f.singles.has key = true) →
      (∀ f ∈ c.files, ¬f.plurals.has key = true) → q.Says key args c.files (.ok none) := by
    intro c hsingle hplural
    refine .unknown fun f hf => ?_
    cases q with
    | single => exact Bool.eq_false_iff.2 (hsingle f hf)
    | plural => exact Bool.eq_false_iff.2 (hplural f hf)
  exact ⟨hunknown _ h.1.1 h.1.2, hunknown _ h.2.1 h.2.2⟩

end Selection

namespace Resolver

/-- The answer to a question. -/
def ask [Machine] (r : Resolver) (q : Question) (key : Text) (args : List Argument) :
    Except ResolveError Resolved :=
  match q with
  | .single => r.text key args
  | .plural quantity => r.quantityText key quantity args

theorem ask_eq [Machine] {r : Resolver} {s : Selection} (hs : r.selection = some s) (q : Question)
    (key : Text) (args : List Argument) :
    r.ask q key args = (s.resolve key q.quantity? (q.look key args)).mapError .text := by
  have hrequired : r.required = .ok s := by
    simp [required, hs]
  cases q with
  | single => simp [ask, text, hrequired, Except.mapError, Question.quantity?]; rfl
  | plural quantity =>
      simp [ask, quantityText, hrequired, Except.mapError, Question.quantity?]; rfl

/-- With a selection a question has exactly one outcome.  Where the active catalog has a text or
fails, the fallback catalog does not matter, and a key that a resolver does not have is missing
for every question. -/
theorem ask_chain [Machine] {r : Resolver} {s : Selection} (hs : r.selection = some s)
    (q : Question) (key : Text) (args : List Argument) :
    (∃! outcome, s.Chain q key args outcome) ∧
    (∀ outcome, s.Chain q key args outcome ↔ r.ask q key args = outcome.mapError .text) ∧
    (∀ other, ¬q.Says key args s.active.files (.ok none) →
      ask { r with selection := some { s with fallback := other } } q key args =
        r.ask q key args) ∧
    (r.hasText key = false →
      r.ask q key args =
        .ok ⟨if s.sendsKey then key else [],
          some (.missing key s.active.locale s.fallback.locale q.quantity?)⟩) := by
  have hask := ask_eq hs q key args
  refine ⟨⟨_, Selection.chain_iff.2 rfl, fun _ h => (Selection.chain_iff.1 h).symm⟩, ?_, ?_, ?_⟩
  · intro outcome
    rw [Selection.chain_iff, hask]
    have hinjective : Function.Injective ResolveError.text := fun _ _ => ResolveError.text.inj
    exact ⟨congrArg _, fun h => mapError_injective hinjective h⟩
  · intro other hactive
    rw [hask, ask_eq rfl]
    rw [Question.says_look] at hactive
    rw [Selection.resolve_eq, Selection.resolve_eq]
    revert hactive
    dsimp only
    cases (q.look key args s.active).map Lookup.value? with
    | error e => intro; rfl
    | ok found =>
        cases found with
        | some text => intro; rfl
        | none => intro h; exact absurd rfl h
  · intro htext
    have htext : s.hasText key = false := by simpa [hasText, hs] using htext
    obtain ⟨h, hother⟩ := Selection.says_none_of_hasText htext q args
    rw [hask, Selection.chain_iff.1 (.missing h hother)]
    rfl

/-- A file with one plural key and its templates by category. -/
def fileOf (formula : Plural.Formula) (key : Text) (templates : Table Int Text) : Po.File where
  singles := .empty
  plurals := ⟨formula, Table.empty.set key templates⟩
  sourcePath := none
  headers := Table.empty
  junk := []

def french : LocaleTag := ⟨"fr".toList, none, by decide⟩

def english : LocaleTag := ⟨"en".toList, none, by decide⟩

/-- A resolver of French files with English ones to fall back to. -/
def market (frenchFiles englishFiles : List Po.File) : Resolver where
  config := Config.default
  selection := some
    { active := ⟨french, .ready, frenchFiles, []⟩
      fallback := ⟨english, .ready, englishFiles, []⟩
      sendsKey := false
      summary := .empty }
  index := none

/-- A French file that names no plural, and a general one. -/
def frenchApples : List Po.File :=
  [fileOf ⟨[⟨"n>1".toList, 1⟩], none, []⟩ "apple".toList
      (Table.empty.set 0 "une pomme".toList),
    fileOf .empty "apple".toList (Table.empty.set 0 "pomme".toList)]

/-- An English file with both numbers. -/
def englishApples : List Po.File :=
  [fileOf ⟨[⟨"n!=1".toList, 1⟩], none, []⟩ "apple".toList
    ((Table.empty.set 0 "an apple".toList).set 1 "apples".toList)]

theorem ask_chain_apples :
    (market frenchApples englishApples).ask (.plural 5) "apple".toList [] =
      .ok ⟨"apples".toList, some (.fallback "apple".toList french english)⟩ := by
  have hactive : (Question.plural 5).Says "apple".toList [] frenchApples (.ok none) :=
    .noTemplate ⟨[], _, rfl, nofun, by decide⟩ (by cbv)
  have hother : (Question.plural 5).Says "apple".toList [] englishApples
      (.ok (some "apples".toList)) :=
    .text ⟨[], _, rfl, nofun, by decide⟩ (by cbv) (by cbv)
  exact ((ask_chain (r := market frenchApples englishApples) rfl (.plural 5) "apple".toList
    []).2.1 _).1 (.fallback hactive hother)

/-- A file with a broken formula. -/
def brokenApples : List Po.File :=
  [fileOf Plural.divisionByZero "apple".toList (Table.empty.set 0 "an apple".toList)]

theorem ask_brokenApples [Machine] {n : Int} (h : Nat.pow 10 digitLimit ≤ (n * n).natAbs) :
    (market brokenApples brokenApples).ask (.plural n) "apple".toList [] =
      .error (.text (.numeral .tooLong)) := by
  have hhas : (fileOf Plural.divisionByZero "apple".toList
      (Table.empty.set 0 "an apple".toList)).plurals.has "apple".toList = true := by decide
  have hsays : (Question.plural n).Says "apple".toList [] brokenApples
      (.error (.numeral .tooLong)) :=
    .noCategory ⟨[], [], rfl, nofun, hhas⟩
      (map_eq_error_iff.2 (Plural.evaluate_long_dividend h))
  rw [ask_eq rfl, Selection.chain_iff.1 (.activeFails hsays)]
  rfl

/-- A broken formula selects the category 0, whose template is there, but a quantity with too
long a square gets neither this nor any other text. -/
theorem ask_long_quantity :
    (market brokenApples brokenApples).ask (.plural 1) "apple".toList [] =
        .ok ⟨"an apple".toList, none⟩ ∧
      (market brokenApples brokenApples).ask (.plural (Int.ofNat (Nat.pow 10 2150)))
        "apple".toList [] = .error (.text (.numeral .tooLong)) := by
  constructor
  · have hone : (Question.plural 1).Says "apple".toList [] brokenApples
        (.ok (some "an apple".toList)) :=
      .text ⟨[], [], rfl, nofun, by decide⟩ (by cbv) (by cbv)
    rw [ask_eq rfl, Selection.chain_iff.1 (.active hone)]
    rfl
  · have hsquare : ∀ k limit, limit = k + k → Nat.pow 10 limit ≤
        (Int.ofNat (Nat.pow 10 k) * Int.ofNat (Nat.pow 10 k)).natAbs := by
      rintro k limit rfl
      rw [Int.natAbs_mul]
      exact Nat.le_of_eq (Nat.pow_add 10 k k)
    exact ask_brokenApples (hsquare 2150 digitLimit rfl)

end Resolver
end Phrasebook
