import Mathlib
import Phrasebook.Po.Store
import Phrasebook.Proofs.Number.Reading
import Phrasebook.Proofs.Outcome

/-!
# Two ways to look up

A store is asked for a text by `get`, which fails at what is missing, and by `lookup`, which reports
it.

**Side by side.**  `Outcomes` lists what the two come to for one question, whatever the store is
(`SingleStore.outcomes`, `PluralStore.outcomes`).
**Agreement.**  A text, a missing key and a failure of the template are the same for both.  A
missing category is an error of `get` only if the message can show the quantity.
**Result.**  `stores_agree`: this holds of every store and every question.
-/

namespace Phrasebook

section Outcomes

variable {key : Text} {quantity? : Option Int} {missing : Text → GetError} {known : Bool}
  {got : Except GetError Text} {looked : Except TextError Lookup}

/-- What `got` and `looked` come to for one key, and whether the key is known. -/
inductive Outcomes (key : Text) (quantity? : Option Int) (missing : Text → GetError) :
    Bool → Except GetError Text → Except TextError Lookup → Prop
  | missingKey : Outcomes key quantity? missing false (.error (missing key)) (.ok .missingKey)
  | found (value : Text) (category : Option Nat) :
      Outcomes key quantity? missing true (.ok value) (.ok (.found value category))
  | failed (e : TextError) :
      Outcomes key quantity? missing true (.error (.text e)) (.error e)
  | missingCategory (category : Nat) (quantity : Int) (h : quantity? = some quantity) :
      Outcomes key quantity? missing true
        (.error (PluralStore.categoryError key category quantity))
        (.ok (.missingCategory category))

variable [Machine]

theorem Outcomes.of_fill (template : Text) (args : List Argument) (category : Option Nat) :
    Outcomes key quantity? missing true ((fill template args).mapError .text)
      ((fill template args).map (.found · category)) := by
  cases fill template args with
  | ok value => exact .found value category
  | error e => exact .failed e

theorem SingleStore.outcomes (s : SingleStore) (key : Text) (args : List Argument) :
    Outcomes key none .noString (s.has key) (s.get key args) (s.lookup key args) := by
  rw [SingleStore.has, Table.has, SingleStore.get, SingleStore.template, SingleStore.lookup]
  cases s.values.get? key with
  | none => exact .missingKey
  | some template => exact .of_fill template args none

theorem PluralStore.outcomes (s : PluralStore) (key : Text) (quantity : Int)
    (args : List Argument) :
    Outcomes key (some quantity) .noPlural (s.has key) (s.get key quantity args)
      (s.lookup key quantity args) := by
  rw [PluralStore.has, Table.has, PluralStore.get, PluralStore.categories, PluralStore.lookup]
  cases s.plurals.get? key with
  | none => exact .missingKey
  | some templates =>
      rw [ok_bind]
      cases s.formula.evaluate quantity with
      | error e => exact .failed (.numeral e)
      | ok category =>
          simp only [Except.mapError, ok_bind]
          cases templates.get? category with
          | none => exact .missingCategory category quantity rfl
          | some template => exact .of_fill template args (some category)

end Outcomes

section Agreement

variable {key : Text} {quantity? : Option Int} {missing : Text → GetError} {known : Bool}
  {got : Except GetError Text} {looked : Except TextError Lookup}

/-- The two come to the same.  A missing category is an error of its own if the quantity can be
shown in the message, and else the failure to show it. -/
structure Agree (key : Text) (quantity? : Option Int) (missing : Text → GetError) (known : Bool)
    (got : Except GetError Text) (looked : Except TextError Lookup) : Prop where
  found : ∀ value, got = .ok value ↔ ∃ category, looked = .ok (.found value category)
  missingKey : ∀ k, got = .error (missing k) ↔ k = key ∧ looked = .ok .missingKey
  missingCategory : ∀ k category quantity shown,
    got = .error (.noCategory k category quantity shown) ↔
      k = key ∧ quantity? = some quantity ∧ writeNumeral quantity = .ok shown ∧
        looked = .ok (.missingCategory category)
  misfit : ∀ e, got = .error (.text (.template e)) ↔ looked = .error (.template e)
  unknown : known = false ↔ looked = .ok .missingKey
  unshown : ∀ category quantity, looked = .ok (.missingCategory category) →
    quantity? = some quantity → digitLimit < (decimalDigits quantity.natAbs).length →
      got = .error (.text (.numeral .tooLong))

theorem categoryError_eq_noCategory_iff {category c : Nat} {quantity q : Int} {k shown : Text} :
    PluralStore.categoryError key category quantity = .noCategory k c q shown ↔
      (k = key ∧ c = category ∧ q = quantity) ∧ writeNumeral quantity = .ok shown := by
  rw [PluralStore.categoryError]
  cases writeNumeral quantity with
  | ok t =>
      constructor
      · intro h
        cases h
        exact ⟨⟨rfl, rfl, rfl⟩, rfl⟩
      · rintro ⟨⟨rfl, rfl, rfl⟩, h⟩
        cases h
        rfl
  | error e => simp

theorem categoryError_ne_template {category : Nat} {quantity : Int}
    {e : Printf.TemplateError} :
    PluralStore.categoryError key category quantity ≠ .text (.template e) := by
  rw [PluralStore.categoryError]
  cases writeNumeral quantity <;> simp

theorem categoryError_of_digitLimit_lt {category : Nat} {quantity : Int}
    (h : digitLimit < (decimalDigits quantity.natAbs).length) :
    PluralStore.categoryError key category quantity = .text (.numeral .tooLong) := by
  rw [PluralStore.categoryError, writeNumeral, if_pos h]

theorem Outcomes.agree (h : Outcomes key quantity? missing known got looked)
    (hmissing : missing = .noString ∨ missing = .noPlural) :
    Agree key quantity? missing known got looked := by
  have hinjective : ∀ j k, missing j = missing k ↔ j = k := by
    rcases hmissing with rfl | rfl <;> simp
  have htext : ∀ k e, missing k ≠ .text e := by
    rcases hmissing with rfl | rfl <;> simp
  have hcategory : ∀ j k c q t, missing j ≠ .noCategory k c q t := by
    rcases hmissing with rfl | rfl <;> simp
  have herror : ∀ k c q, PluralStore.categoryError key c q ≠ missing k := by
    intro k c q
    rw [PluralStore.categoryError]
    cases writeNumeral q with
    | ok t => exact (hcategory _ _ _ _ _).symm
    | error e => exact (htext _ _).symm
  cases h with
  | missingKey =>
      constructor <;> simp [hinjective, htext, hcategory, eq_comm]
  | found value category =>
      constructor <;> simp
  | failed e =>
      constructor <;> simp [(htext _ _).symm]
  | missingCategory category quantity hquantity =>
      subst hquantity
      constructor
      · simp
      · simp [herror]
      · intro k c q shown
        rw [Except.error.injEq, categoryError_eq_noCategory_iff]
        constructor
        · rintro ⟨⟨rfl, rfl, rfl⟩, hshown⟩
          exact ⟨rfl, rfl, hshown, rfl⟩
        · rintro ⟨rfl, hq, hshown, hc⟩
          cases hq
          cases hc
          exact ⟨⟨rfl, rfl, rfl⟩, hshown⟩
      · simp [categoryError_ne_template]
      · simp
      · intro c q hc hq hlong
        cases hq
        rw [categoryError_of_digitLimit_lt hlong]

/-- Both stores give the same answer in both ways: the same text, the same missing key and the same
failure of a template, and the same missing category if the quantity can be shown. -/
theorem stores_agree [Machine] (singles : SingleStore) (plurals : PluralStore) (key : Text)
    (quantity : Int) (args : List Argument) :
    Agree key none .noString (singles.has key) (singles.get key args) (singles.lookup key args) ∧
      Agree key (some quantity) .noPlural (plurals.has key) (plurals.get key quantity args)
        (plurals.lookup key quantity args) :=
  ⟨(singles.outcomes key args).agree (.inl rfl),
    (plurals.outcomes key quantity args).agree (.inr rfl)⟩

/-- A category without template is reported for every quantity, but a quantity with too many digits
is no missing category for `get`. -/
theorem get_long_quantity :
    ((PluralStore.empty .empty).add ['p'] 1 ['x']).lookup ['p']
        (Int.ofNat (Nat.pow 10 digitLimit)) [] = .ok (.missingCategory 0) ∧
      ((PluralStore.empty .empty).add ['p'] 1 ['x']).get ['p']
        (Int.ofNat (Nat.pow 10 digitLimit)) [] = .error (.text (.numeral .tooLong)) := by
  have hlookup : ∀ quantity, ((PluralStore.empty .empty).add ['p'] 1 ['x']).lookup ['p']
      quantity [] = .ok (.missingCategory 0) := fun _ => rfl
  have hget : ∀ quantity, ((PluralStore.empty .empty).add ['p'] 1 ['x']).get ['p'] quantity [] =
      .error (PluralStore.categoryError ['p'] 0 quantity) := fun _ => rfl
  have hlong : ∀ n, Nat.pow 10 digitLimit ≤ n → writeNumeral (Int.ofNat n) = .error .tooLong :=
    fun n hn => writeNumeral_eq_error_iff.2 ⟨hn, rfl⟩
  refine ⟨hlookup _, ?_⟩
  rw [hget, PluralStore.categoryError, hlong _ (Nat.le_refl _)]

end Agreement

end Phrasebook
