import Mathlib
import Phrasebook.Proofs.Plural.Legible
import Phrasebook.Proofs.Plural.Magnitude

/-!
# Degrading formulas

A header that is broken leads to the category 0 and not to a failure, up to numbers that cannot be
read and chains that stand too deep one in the other.

**Rules.**  For a quantity a rule passes, holds or breaks: a default passes, and so does a condition
with the value 0; a condition with another value holds; a condition that is no expression, or that
divides by zero, breaks.
**Categories.**  `Yields` says which category rules yield, without an algorithm: that of the first
rule that does not pass, if this one holds, and 0 if it breaks; if all of them pass, that of the
last default, or 0.  `exists_yields` and `Yields.unique`: this is one category.
**Selecting.**  `Yields.select_eq`: it is what a formula selects, unless the rules overflow.  They
do if a division by zero that is reached has a dividend that is too long to be shown, for which
the quantity needs more than eight digits.
**Result.**  `Formula.ofHeader_degrades`, from any text to the category.
-/

namespace Phrasebook
namespace Plural

section Verdicts

variable {n : Int} {r : Rule}

/-- Is the value of the rule's condition the given one? -/
def Rule.HasValue (n : Int) (r : Rule) (v : Int) : Prop :=
  r.isDefault = false ∧ ∃ c, compile r.condition = .ok c ∧ c.tree.evaluate n = .ok v

/-- Does the rule's condition divide the given number by zero? -/
def Rule.Divides (n : Int) (r : Rule) (a : Int) : Prop :=
  r.isDefault = false ∧ ∃ c op, compile r.condition = .ok c ∧ c.tree.DividesByZero n op a

/-- Is the rule a default, or is its condition false? -/
def Rule.Passes (n : Int) (r : Rule) : Prop :=
  r.isDefault = true ∨ r.HasValue n 0

/-- Is the rule's condition true? -/
def Rule.Holds (n : Int) (r : Rule) : Prop :=
  ∃ v, r.HasValue n v ∧ v ≠ 0

/-- Is the rule's condition no expression, or does it divide by zero? -/
def Rule.Breaks (n : Int) (r : Rule) : Prop :=
  r.isDefault = false ∧ (∃ e, compile r.condition = .error e) ∨ ∃ a, r.Divides n a

/-- Does the rule's condition divide a number by zero that is too long to be shown? -/
def Rule.Overflows (n : Int) (r : Rule) : Prop :=
  ∃ a, r.Divides n a ∧ ¬ IsWithin digitLimit a

/-- A rule that does not pass holds or breaks. -/
theorem Rule.holds_or_breaks (h : ¬ r.Passes n) : r.Holds n ∨ r.Breaks n := by
  rw [Passes, not_or, Bool.not_eq_true] at h
  obtain ⟨hdefault, hvalue⟩ := h
  cases hcompile : compile r.condition with
  | error e => exact .inr (.inl ⟨hdefault, e, hcompile⟩)
  | ok c =>
      cases heval : c.tree.evaluate n with
      | error e =>
          obtain ⟨op, a, hdivides, -⟩ := Expr.evaluate_eq_error_iff.1 heval
          exact .inr (.inr ⟨a, hdefault, c, op, hcompile, hdivides⟩)
      | ok v =>
          refine .inl ⟨v, ⟨hdefault, c, hcompile, heval⟩, ?_⟩
          rintro rfl
          exact hvalue ⟨hdefault, c, hcompile, heval⟩

/-- The category of the last default, or the given one. -/
def lastDefault (default : Nat) (rules : List Rule) : Nat :=
  ((rules.filter Rule.isDefault).getLast?.map Rule.index).getD default

theorem lastDefault_cons (default : Nat) (r : Rule) (rules : List Rule) :
    lastDefault default (r :: rules) = lastDefault (lastDefault default [r]) rules := by
  cases hr : r.isDefault with
  | true =>
      simp only [lastDefault, List.filter_cons, hr, List.filter_nil, if_true,
        List.getLast?_cons]
      cases (rules.filter Rule.isDefault).getLast? <;> rfl
  | false => simp [lastDefault, hr]

end Verdicts

section Steps

variable {n v : Int} {r : Rule} {rules front : List Rule} {default : Nat}

open Formula (select)

theorem select_of_hasValue (h : r.HasValue n v) :
    select n (r :: rules) default = if v = 0 then select n rules default else .ok r.index := by
  obtain ⟨hdefault, c, hcompile, heval⟩ := h
  have htest : c.test n = .ok (v != 0) := by
    rw [Compiled.test, Compiled.evaluate, heval]
    rfl
  rw [select, hdefault, hcompile]
  by_cases hv : v = 0
  · simp only [htest, hv, if_true]
    rfl
  · rw [bne_iff_ne.2 hv] at htest
    simp only [htest, if_neg hv]
    rfl

theorem select_of_passes (h : r.Passes n) :
    select n (r :: rules) default = select n rules (lastDefault default [r]) := by
  rcases h with hdefault | hvalue
  · rw [select, if_pos hdefault]
    simp [lastDefault, hdefault]
  · rw [select_of_hasValue hvalue, if_pos rfl]
    simp [lastDefault, hvalue.1]

theorem select_of_holds (h : r.Holds n) : select n (r :: rules) default = .ok r.index := by
  obtain ⟨v, hvalue, hv⟩ := h
  rw [select_of_hasValue hvalue, if_neg hv]

theorem select_of_overflows (h : r.Overflows n) :
    select n (r :: rules) default = .error .tooLong := by
  obtain ⟨a, ⟨hdefault, c, op, hcompile, hdivides⟩, hlong⟩ := h
  have htest : c.test n = .error (.numeral .tooLong) := by
    rw [Compiled.test, Compiled.evaluate, hdivides.evaluate_eq,
      divisionError_eq_numeral_iff.2 ⟨Nat.not_lt.1 hlong, rfl⟩]
    rfl
  rw [select, hdefault, hcompile]
  simp only [htest]
  rfl

theorem select_of_breaks (h : r.Breaks n) (hshort : ¬ r.Overflows n) :
    select n (r :: rules) default = .ok 0 := by
  rcases h with ⟨hdefault, e, hcompile⟩ | ⟨a, hdivides⟩
  · rw [select, hdefault, hcompile]
    rfl
  · obtain ⟨hdefault, c, op, hcompile, hzero⟩ := hdivides
    have htest : c.test n = .error (divisionError op a) := by
      rw [Compiled.test, Compiled.evaluate, hzero.evaluate_eq]
      rfl
    rw [select, hdefault, hcompile]
    cases herror : divisionError op a with
    | divisionByZero o shown =>
        rw [herror] at htest
        simp only [htest]
        rfl
    | numeral e =>
        have hlong := (divisionError_eq_numeral_iff.1 herror).1
        exact absurd ⟨a, ⟨hdefault, c, op, hcompile, hzero⟩, Nat.not_lt.2 hlong⟩ hshort

/-- Rules that pass change no more than the default. -/
theorem select_append (h : ∀ s ∈ front, s.Passes n) :
    select n (front ++ rules) default = select n rules (lastDefault default front) := by
  induction front generalizing default with
  | nil => rfl
  | cons s front ih =>
      obtain ⟨hs, hfront⟩ := List.forall_mem_cons.1 h
      rw [List.cons_append, select_of_passes hs, ih hfront, ← lastDefault_cons]

end Steps

section Categories

variable {n : Int} {rules : List Rule} {k k' : Nat}

open Formula (select)

/-- Do all the rules in front of a rule pass? -/
def Reaches (n : Int) (rules : List Rule) (r : Rule) : Prop :=
  ∃ front rest, rules = front ++ r :: rest ∧ ∀ s ∈ front, s.Passes n

/-- Which category do the rules yield? -/
inductive Yields (n : Int) (rules : List Rule) : Nat → Prop
  | holds {r : Rule} : Reaches n rules r → r.Holds n → Yields n rules r.index
  | breaks {r : Rule} : Reaches n rules r → r.Breaks n → Yields n rules 0
  | passes : (∀ r ∈ rules, r.Passes n) → Yields n rules (lastDefault 0 rules)

/-- Is a rule reached that divides a number by zero that is too long to be shown? -/
def Overflows (n : Int) (rules : List Rule) : Prop :=
  ∃ r, Reaches n rules r ∧ r.Overflows n

theorem passes_or_reaches (n : Int) (rules : List Rule) :
    (∀ r ∈ rules, r.Passes n) ∨ ∃ r, Reaches n rules r ∧ ¬ r.Passes n := by
  induction rules with
  | nil => exact .inl nofun
  | cons r rules ih =>
      by_cases hr : r.Passes n
      · rcases ih with hpasses | ⟨s, ⟨front, rest, rfl, hfront⟩, hs⟩
        · exact .inl (List.forall_mem_cons.2 ⟨hr, hpasses⟩)
        · exact .inr ⟨s, ⟨r :: front, rest, rfl, List.forall_mem_cons.2 ⟨hr, hfront⟩⟩, hs⟩
      · exact .inr ⟨r, ⟨[], rules, rfl, nofun⟩, hr⟩

theorem exists_yields (n : Int) (rules : List Rule) : ∃ k, Yields n rules k := by
  rcases passes_or_reaches n rules with hpasses | ⟨r, hreaches, hr⟩
  · exact ⟨_, .passes hpasses⟩
  · rcases Rule.holds_or_breaks hr with hholds | hbreaks
    · exact ⟨_, .holds hreaches hholds⟩
    · exact ⟨0, .breaks hreaches hbreaks⟩

theorem Overflows.select_eq (h : Overflows n rules) : select n rules 0 = .error .tooLong := by
  obtain ⟨r, ⟨front, rest, rfl, hfront⟩, hr⟩ := h
  rw [select_append hfront, select_of_overflows hr]

/-- Rules select the category that they yield, unless they overflow. -/
theorem Yields.select_eq (h : Yields n rules k) :
    select n rules 0 = .ok k ∧ ¬ Overflows n rules ∨
      select n rules 0 = .error .tooLong ∧ k = 0 ∧ Overflows n rules := by
  have hshort : select n rules 0 = .ok k → ¬ Overflows n rules := by
    intro hk hlong
    rw [hlong.select_eq] at hk
    cases hk
  cases h with
  | @holds r hreaches hholds =>
      obtain ⟨front, rest, rfl, hfront⟩ := hreaches
      have hk : select n (front ++ r :: rest) 0 = .ok r.index := by
        rw [select_append hfront, select_of_holds hholds]
      exact .inl ⟨hk, hshort hk⟩
  | @breaks r hreaches hbreaks =>
      by_cases hlong : r.Overflows n
      · have hoverflows : Overflows n rules := ⟨r, hreaches, hlong⟩
        exact .inr ⟨hoverflows.select_eq, rfl, hoverflows⟩
      · obtain ⟨front, rest, rfl, hfront⟩ := hreaches
        have hk : select n (front ++ r :: rest) 0 = .ok 0 := by
          rw [select_append hfront, select_of_breaks hbreaks hlong]
        exact .inl ⟨hk, hshort hk⟩
  | passes hpasses =>
      have hk : select n rules 0 = .ok (lastDefault 0 rules) := by
        rw [← List.append_nil rules, select_append hpasses, List.append_nil]
        rfl
      exact .inl ⟨hk, hshort hk⟩

theorem Yields.eq_getD (h : Yields n rules k) : k = (select n rules 0).toOption.getD 0 := by
  rcases h.select_eq with ⟨hk, -⟩ | ⟨hk, rfl, -⟩ <;> rw [hk] <;> rfl

theorem Yields.unique (h : Yields n rules k) (h' : Yields n rules k') : k = k' :=
  h.eq_getD.trans h'.eq_getD.symm

/-- A formula selects a category, or it has divided by zero a number too long to be shown. -/
theorem Formula.eq_of_evaluate_eq_error {f : Formula} {e : NumeralError}
    (h : f.evaluate n = .error e) : e = .tooLong := by
  obtain ⟨k, hk⟩ := exists_yields n f.rules
  rcases hk.select_eq with ⟨hselect, -⟩ | ⟨hselect, -, -⟩
  · cases hselect.symm.trans h
  · exact (Except.error.inj (hselect.symm.trans h)).symm

/-- No quantity of at most eight digits overflows. -/
theorem not_isWithin_of_overflows (h : Overflows n rules) : ¬ IsWithin 8 n := by
  obtain ⟨r, -, a, ⟨-, c, op, hcompile, hdivides⟩, hlong⟩ := h
  exact fun hn => hlong (isWithin_of_dividesByZero hcompile hn hdivides)

end Categories

section Headers

variable [Machine] {t : Text}

/-- Is there no expression in the text, or one that is no chain of rules? -/
def LacksRules (expression : Text) : Prop :=
  expression = [] ∨ ∃ value, decompose expression = .error (.notACategory value)

theorem Formula.ofHeader_cases {f : Formula} (h : ofHeader t = .ok f) :
    f.expression = headerExpression t ∧
      (LacksRules f.expression ∧ f.rules = [] ∨
        f.expression ≠ [] ∧ decompose f.expression = .ok f.rules) := by
  obtain ⟨categories, -, hrules⟩ := bind_eq_ok_iff.1 h
  simp only [List.isEmpty_iff] at hrules
  split at hrules
  · rename_i hempty
    cases hrules
    exact ⟨hempty.symm, .inl ⟨.inl rfl, rfl⟩⟩
  · rename_i hexpression
    split at hrules
    · rename_i rules hdecompose
      cases hrules
      exact ⟨rfl, .inr ⟨hexpression, hdecompose⟩⟩
    · rename_i value hdecompose
      cases hrules
      exact ⟨rfl, .inl ⟨.inr ⟨value, hdecompose⟩, rfl⟩⟩
    · cases hrules
    · cases hrules

/-- A formula degrades instead of failing: a text has a formula unless it misreads or its chains
stand too deep, and for every quantity the rules of the formula yield exactly one category, which is
selected unless they overflow. -/
theorem Formula.ofHeader_degrades (t : Text) :
    (∃ e, ofHeader t = .error (.numeral e) ∧ Misreads t e) ∨
      ofHeader t = .error .nestedTooDeep ∧ IsTooDeep t ∨
      ∃ f, ofHeader t = .ok f ∧ f.expression = headerExpression t ∧
        (LacksRules f.expression ∧ f.rules = [] ∧ (∀ q, f.evaluate q = .ok 0) ∨
          f.expression ≠ [] ∧ decompose f.expression = .ok f.rules ∧ ¬IsTooDeep t) ∧
        ∀ q, ∃ k, Yields q f.rules k ∧ (∀ k', Yields q f.rules k' → k' = k) ∧
          (f.evaluate q = .ok k ∧ ¬ Overflows q f.rules ∨
            f.evaluate q = .error .tooLong ∧ k = 0 ∧ Overflows q f.rules ∧ ¬ IsWithin 8 q) := by
  cases hformula : ofHeader t with
  | error failure =>
      rcases failure_of_ofHeader hformula with ⟨e, rfl, hmisreads⟩ | ⟨rfl, hdeep⟩
      · exact .inl ⟨e, rfl, hmisreads⟩
      · exact .inr (.inl ⟨rfl, hdeep⟩)
  | ok f =>
      obtain ⟨hexpression, hrules⟩ := ofHeader_cases hformula
      refine .inr (.inr ⟨f, rfl, hexpression, ?_, fun q => ?_⟩)
      · rcases hrules with ⟨hlacks, hnone⟩ | hrules
        · refine .inl ⟨hlacks, hnone, fun q => ?_⟩
          rw [evaluate, hnone]
          rfl
        · obtain ⟨hne, hdecompose⟩ := hrules
          refine .inr ⟨hne, hdecompose, ?_⟩
          rw [IsTooDeep, ← hexpression]
          exact not_nestsChains_of_decomposeWithin hdecompose
      · obtain ⟨k, hk⟩ := exists_yields q f.rules
        refine ⟨k, hk, fun k' hk' => hk'.unique hk, ?_⟩
        rcases hk.select_eq with hselected | ⟨hselected, hzero, hlong⟩
        · exact .inl hselected
        · exact .inr ⟨hselected, hzero, hlong, not_isWithin_of_overflows hlong⟩

end Headers

/-- The category of a branch is taken for a number, which a superscript is not; and the dividend of
a division by zero is written out, whatever its length. -/
theorem Formula.ofHeader_superscript :
    ofHeader "plural=n ? ² : 0;".toList = .error (.numeral (.notDecimal ['²'])) ∧
      ofHeader "nplurals=2; plural=n*n/0;".toList = .ok divisionByZero ∧
        divisionByZero.evaluate (Int.ofNat (Nat.pow 10 2150)) = .error .tooLong := by
  have hsquare : ∀ k limit, limit = k + k → Nat.pow 10 limit ≤
      (Int.ofNat (Nat.pow 10 k) * Int.ofNat (Nat.pow 10 k)).natAbs := by
    rintro k limit rfl
    rw [Int.natAbs_mul]
    exact Nat.le_of_eq (Nat.pow_add 10 k k)
  have hsuperscript : decomposeWithin 1 "n ? ² : 0".toList =
      .error (.numeral (.notDecimal ['²'])) := by cbv
  have hbare : decomposeWithin 1 "n*n/0".toList = .ok divisionByZero.rules := by cbv
  refine ⟨?_, ?_, evaluate_long_dividend (hsquare 2150 digitLimit rfl)⟩
  · have hcategories : declaredCategories "plural=n ? ² : 0;".toList = .ok none := by cbv
    have hcore : headerExpression "plural=n ? ² : 0;".toList = "n ? ² : 0".toList := by cbv
    rw [ofHeader_eq hcategories hcore (by decide),
      decompose_eq hsuperscript (by simp) (by decide), ofRules]
  · have hcategories : declaredCategories "nplurals=2; plural=n*n/0;".toList = .ok (some 2) := by
      cbv
    have hcore : headerExpression "nplurals=2; plural=n*n/0;".toList = "n*n/0".toList := by cbv
    rw [ofHeader_eq hcategories hcore (by decide), decompose_eq hbare (by simp) (by decide)]
    rfl

end Plural
end Phrasebook
