import Mathlib
import Phrasebook.Proofs.Plural.Magnitude

/-!
# Dividing

Whole numbers are divided with the quotient cut off towards zero, and never by zero.

**Quotients.**  `IsDivision` says without an algorithm how two numbers are divided.  This is what
the truncated quotient and its remainder do, and nothing else (`isDivision_iff`), and the quotient
is the fraction without what stands behind its point (`IsDivision.quotient_eq`).
**Visits.**  `Expr.Visits` says which parts of an expression are evaluated for its value, and
`Expr.Divides` which divisions are among them.  If one of them has the divisor 0, then the
expression divides by zero, and only then (`Expr.dividesByZero_iff`).
**Results.**
* `Compiled.value_divides`: every division on the way to the value has its quotient or its
  remainder as its value, or it fails the expression, which is then blamed for it.
* `Compiled.value_long_dividend`: but for a dividend that is too long to be shown it is not blamed.
-/

namespace Phrasebook
namespace Plural

/-- A fraction without what stands behind its point. -/
def towardsZero (x : ℚ) : Int :=
  if 0 ≤ x then ⌊x⌋ else ⌈x⌉

/-- Does `b` go into `a` `q` times, with `r` left?  What is left is smaller than the divisor and
has the sign of the dividend. -/
structure IsDivision (a b q r : Int) : Prop where
  dividend_eq : a = b * q + r
  remainder_lt : |r| < |b|
  sign_eq : r = 0 ∨ r.sign = a.sign

section Quotients

variable {a b q r : Int}

theorem IsDivision.divisor_ne_zero (h : IsDivision a b q r) : b ≠ 0 := by
  rintro rfl
  have hlt := h.remainder_lt
  rw [abs_zero] at hlt
  exact absurd (abs_nonneg r) (not_le.2 hlt)

theorem IsDivision.remainder_nonneg (h : IsDivision a b q r) (ha : 0 ≤ a) : 0 ≤ r := by
  rcases h.sign_eq with rfl | hsign
  · exact le_refl 0
  · rwa [← Int.sign_nonneg_iff, hsign, Int.sign_nonneg_iff]

theorem IsDivision.remainder_nonpos (h : IsDivision a b q r) (ha : a ≤ 0) : r ≤ 0 := by
  rcases h.sign_eq with rfl | hsign
  · exact le_refl 0
  · rwa [← Int.sign_nonpos_iff, hsign, Int.sign_nonpos_iff]

theorem isDivision_truncated (hb : b ≠ 0) :
    IsDivision a b (truncatedQuotient a b) (truncatedRemainder a b) where
  dividend_eq := (add_sub_cancel (b * truncatedQuotient a b) a).symm
  remainder_lt := by
    rw [truncatedRemainder_eq_tmod, Int.abs_eq_natAbs, Int.abs_eq_natAbs, Int.natAbs_tmod]
    exact Int.ofNat_lt.2 (Nat.mod_lt _ (Int.natAbs_pos.2 hb))
  sign_eq := by
    rw [truncatedRemainder_eq_tmod, Int.sign_tmod]
    split
    · rename_i hdvd
      exact .inl (Int.tmod_eq_zero_of_dvd hdvd)
    · exact .inr rfl

/-- What stands behind the point is not negative if the fraction is not. -/
theorem IsDivision.rest_nonneg (h : IsDivision a b q r) (hx : 0 ≤ (a / b : ℚ)) :
    0 ≤ (r / b : ℚ) := by
  rcases div_nonneg_iff.1 hx with ⟨ha, hb⟩ | ⟨ha, hb⟩
  · exact div_nonneg (Int.cast_nonneg (h.remainder_nonneg (Int.cast_nonneg_iff.1 ha))) hb
  · exact div_nonneg_of_nonpos (Int.cast_nonpos.2 (h.remainder_nonpos (Int.cast_nonpos.1 ha))) hb

theorem IsDivision.rest_nonpos (h : IsDivision a b q r) (hx : (a / b : ℚ) ≤ 0) :
    (r / b : ℚ) ≤ 0 := by
  rcases div_nonpos_iff.1 hx with ⟨ha, hb⟩ | ⟨ha, hb⟩
  · exact div_nonpos_of_nonneg_of_nonpos
      (Int.cast_nonneg (h.remainder_nonneg (Int.cast_nonneg_iff.1 ha))) hb
  · exact div_nonpos_of_nonpos_of_nonneg
      (Int.cast_nonpos.2 (h.remainder_nonpos (Int.cast_nonpos.1 ha))) hb

/-- The quotient is the fraction cut off towards zero. -/
theorem IsDivision.quotient_eq (h : IsDivision a b q r) : q = towardsZero (a / b) := by
  have hb : (b : ℚ) ≠ 0 := Int.cast_ne_zero.2 h.divisor_ne_zero
  have hfraction : (a / b : ℚ) = q + r / b := by
    rw [h.dividend_eq, Int.cast_add, Int.cast_mul, add_div, mul_div_cancel_left₀ _ hb]
  have hlt : |(r / b : ℚ)| < 1 := by
    rw [abs_div, div_lt_one (abs_pos.2 hb)]
    exact_mod_cast h.remainder_lt
  obtain ⟨hbelow, habove⟩ := abs_lt.1 hlt
  rw [towardsZero]
  -- what stands behind the point is less than one and has the sign of the fraction
  split
  · rename_i hx
    have hrest := h.rest_nonneg hx
    exact (Int.floor_eq_iff.2 ⟨by linarith, by linarith⟩).symm
  · rename_i hx
    have hrest := h.rest_nonpos (le_of_not_ge hx)
    exact (Int.ceil_eq_iff.2 ⟨by linarith, by linarith⟩).symm

/-- Numbers are divided by the truncated quotient and its remainder, and in no other way. -/
theorem isDivision_iff : IsDivision a b q r ↔
    b ≠ 0 ∧ q = truncatedQuotient a b ∧ r = truncatedRemainder a b := by
  constructor
  · intro h
    have hb := h.divisor_ne_zero
    have hq : q = truncatedQuotient a b :=
      h.quotient_eq.trans (isDivision_truncated hb).quotient_eq.symm
    refine ⟨hb, hq, ?_⟩
    rw [truncatedRemainder, ← hq]
    exact eq_sub_of_add_eq' h.dividend_eq.symm
  · rintro ⟨hb, rfl, rfl⟩
    exact isDivision_truncated hb

example : truncatedQuotient (-7) 2 = -3 ∧ truncatedRemainder (-7) 2 = -1 ∧
    truncatedQuotient 7 (-2) = -3 ∧ truncatedRemainder 7 (-2) = 1 := by
  decide

end Quotients

/-- Is the second expression evaluated for the value of the first one?  A logical operator and a
branch leave parts out, and nothing is evaluated behind a part that has no value. -/
inductive Expr.Visits (n : Int) : Expr → Expr → Prop
  | self (x : Expr) : Visits n x x
  | negation {x z : Expr} : Visits n x z → Visits n (.negation x) z
  | left {op : BinaryOp} {x y z : Expr} : Visits n x z → Visits n (.binary op x y) z
  | right {op : BinaryOp} {x y z : Expr} {a : Int} :
      x.evaluate n = .ok a → op.settledBy? a = none → Visits n y z →
      Visits n (.binary op x y) z
  | test {t x y z : Expr} : Visits n t z → Visits n (.conditional t x y) z
  | ifTrue {t x y z : Expr} {a : Int} :
      t.evaluate n = .ok a → a ≠ 0 → Visits n x z → Visits n (.conditional t x y) z
  | ifFalse {t x y z : Expr} :
      t.evaluate n = .ok 0 → Visits n y z → Visits n (.conditional t x y) z

/-- Is a division of `l` by `r` evaluated for the value of the expression, where these have the
values `a` and `b`? -/
structure Expr.Divides (n : Int) (x : Expr) (op : BinaryOp) (l r : Expr) (a b : Int) : Prop where
  visits : x.Visits n (.binary op l r)
  isDivision : op = .div ∨ op = .mod
  dividend_eq : l.evaluate n = .ok a
  divisor_eq : r.evaluate n = .ok b

section Visits

variable {n a b : Int} {op : BinaryOp} {l r x y : Expr}

theorem BinaryOp.apply_division (hop : op = .div ∨ op = .mod) (hb : b ≠ 0) :
    op.apply a b = .ok (if op = .div then truncatedQuotient a b else truncatedRemainder a b) := by
  rcases hop with rfl | rfl <;> exact if_neg hb

theorem Expr.Divides.evaluate_eq (h : x.Divides n op l r a b) :
    (Expr.binary op l r).evaluate n = op.apply a b := by
  rw [evaluate, h.dividend_eq, ok_bind, BinaryOp.settledBy?_division h.isDivision]
  simp only [h.divisor_eq, ok_bind]

/-- A part that is evaluated divides by zero only together with the whole. -/
theorem Expr.Visits.dividesByZero (h : x.Visits n y) (hy : y.DividesByZero n op a) :
    x.DividesByZero n op a := by
  induction h with
  | self => exact hy
  | negation _ ih => exact .negation (ih hy)
  | left _ ih => exact .left (ih hy)
  | right hx hsettled _ ih => exact .right hx hsettled (ih hy)
  | test _ ih => exact .test (ih hy)
  | ifTrue ht hne _ ih => exact .ifTrue ht hne (ih hy)
  | ifFalse ht _ ih => exact .ifFalse ht (ih hy)

theorem Expr.exists_divides_mono (hvisits : ∀ z, y.Visits n z → x.Visits n z)
    (h : ∃ l r, y.Divides n op l r a b) : ∃ l r, x.Divides n op l r a b := by
  obtain ⟨l, r, h⟩ := h
  exact ⟨l, r, { h with visits := hvisits _ h.visits }⟩

/-- An expression divides by zero exactly if a division that is evaluated for its value has the
divisor 0. -/
theorem Expr.dividesByZero_iff : x.DividesByZero n op a ↔ ∃ l r, x.Divides n op l r a 0 := by
  constructor
  · intro h
    -- a division in a part is one in the whole, since the whole visits what the part visits
    induction h with
    | negation _ ih => exact exists_divides_mono (fun _ => .negation) ih
    | left _ ih => exact exists_divides_mono (fun _ => .left) ih
    | right hx hsettled _ ih => exact exists_divides_mono (fun _ => .right hx hsettled) ih
    | here hop hx hy => exact ⟨_, _, .self _, hop, hx, hy⟩
    | test _ ih => exact exists_divides_mono (fun _ => .test) ih
    | ifTrue ht hne _ ih => exact exists_divides_mono (fun _ => .ifTrue ht hne) ih
    | ifFalse ht _ ih => exact exists_divides_mono (fun _ => .ifFalse ht) ih
  · rintro ⟨l, r, h⟩
    exact h.visits.dividesByZero (.here h.isDivision h.dividend_eq h.divisor_eq)

end Visits

/-- Is it the failure of dividing `a` by zero in an expression with the given text?  The text is
blamed, unless `a` is too long to be shown. -/
inductive EvalFailure.Reports (source : Text) (op : BinaryOp) (a : Int) (f : EvalFailure) : Prop
  | shown : IsWithin digitLimit a → f.error = .divisionByZero op (integerText a) →
      f.expression? = some source → Reports source op a f
  | hidden : ¬ IsWithin digitLimit a → f.error = .numeral .tooLong → f.expression? = none →
      Reports source op a f

section Values

variable {c : Compiled} {n a b : Int} {op : BinaryOp} {l r : Expr} {f : EvalFailure}

theorem divisionError_of_isWithin (h : IsWithin digitLimit a) :
    divisionError op a = .divisionByZero op (integerText a) := by
  have hlength := (length_decimalDigits_le_iff (by decide)).2 h
  rw [divisionError, writeNumeral_eq_ok hlength]

theorem EvalFailure.reports_divisionError (source : Text) (op : BinaryOp) (a : Int) :
    Reports source op a ⟨divisionError op a, source⟩ := by
  by_cases h : IsWithin digitLimit a
  · rw [divisionError_of_isWithin h]
    exact .shown h rfl rfl
  · rw [divisionError_eq_numeral_iff.2 ⟨Nat.not_lt.1 h, rfl⟩]
    exact .hidden h rfl rfl

theorem Compiled.value_eq_error_iff : c.value n = .error f ↔
    ∃ op a, c.tree.DividesByZero n op a ∧ f = ⟨divisionError op a, c.source⟩ := by
  rw [value, mapError_eq_error_iff]
  constructor
  · rintro ⟨e, heval, rfl⟩
    obtain ⟨op, a, hdivides, rfl⟩ := Expr.evaluate_eq_error_iff.1 heval
    exact ⟨op, a, hdivides, rfl⟩
  · rintro ⟨op, a, hdivides, rfl⟩
    exact ⟨_, hdivides.evaluate_eq, rfl⟩

/-- Every division that is evaluated has its quotient or its remainder as its value, or it has the
divisor 0 and fails the whole. -/
theorem Compiled.value_of_divides (h : c.tree.Divides n op l r a b) :
    b ≠ 0 ∧ (Expr.binary op l r).evaluate n =
        .ok (if op = .div then truncatedQuotient a b else truncatedRemainder a b) ∨
      b = 0 ∧ ∃ f, c.value n = .error f ∧ f.Reports c.source op a := by
  by_cases hb : b = 0
  · subst hb
    have hzero : c.tree.DividesByZero n op a := Expr.dividesByZero_iff.2 ⟨l, r, h⟩
    exact .inr ⟨rfl, _, value_eq_error_iff.2 ⟨op, a, hzero, rfl⟩,
      EvalFailure.reports_divisionError c.source op a⟩
  · exact .inl ⟨hb, h.evaluate_eq.trans (BinaryOp.apply_division h.isDivision hb)⟩

theorem Compiled.exists_value_or_divides (c : Compiled) (n : Int) :
    (∃ v, c.value n = .ok v) ∨ ∃ op l r a, c.tree.Divides n op l r a 0 := by
  cases hvalue : c.value n with
  | ok v => exact .inl ⟨v, rfl⟩
  | error f =>
      obtain ⟨op, a, hzero, -⟩ := value_eq_error_iff.1 hvalue
      obtain ⟨l, r, h⟩ := Expr.dividesByZero_iff.1 hzero
      exact .inr ⟨op, l, r, a, h⟩

/-- For quantities of at most eight digits the text that was read is blamed for every failure. -/
theorem Compiled.expression?_of_isWithin {t : Text} (hcompile : compile t = .ok c)
    (hn : IsWithin 8 n) (hvalue : c.value n = .error f) : f.expression? = some c.source := by
  obtain ⟨op, a, hzero, rfl⟩ := value_eq_error_iff.1 hvalue
  rw [divisionError_of_isWithin (isWithin_of_dividesByZero hcompile hn hzero)]
  rfl

/-- Division is cut off towards zero for all signs, and nothing is divided by zero.  What divides
numbers is the truncated quotient with its remainder, and nothing else.  On the way to the value of
an expression a division gets that far only with a divisor other than 0; the divisor 0 fails the
expression, and nothing else does.  The failure blames the expression unless the dividend is too
long, for which the quantity needs more than eight digits. -/
theorem Compiled.value_divides (c : Compiled) (n : Int) :
    (∀ a b q r : Int, IsDivision a b q r ↔
        b ≠ 0 ∧ q = truncatedQuotient a b ∧ r = truncatedRemainder a b) ∧
      (∀ a b q r : Int, IsDivision a b q r → q = towardsZero (a / b)) ∧
      (∀ op l r a b, c.tree.Divides n op l r a b →
        b ≠ 0 ∧ (Expr.binary op l r).evaluate n =
            .ok (if op = .div then truncatedQuotient a b else truncatedRemainder a b) ∨
          b = 0 ∧ ∃ f, c.value n = .error f ∧ f.Reports c.source op a) ∧
      ((∃ v, c.value n = .ok v) ∨ ∃ op l r a, c.tree.Divides n op l r a 0) ∧
      ∀ t f, compile t = .ok c → IsWithin 8 n → c.value n = .error f →
        f.expression? = some c.source := by
  refine ⟨fun _ _ _ _ => isDivision_iff, fun _ _ _ _ => IsDivision.quotient_eq, ?_,
    exists_value_or_divides c n, ?_⟩
  · intro op l r a b h
    exact value_of_divides h
  · intro t f hcompile hn hvalue
    exact expression?_of_isWithin hcompile hn hvalue

end Values

section LongDividends

/-- An expression that divides the square of the quantity by zero. -/
def squareByZero : Compiled :=
  ⟨"n*n/0".toList, .binary .div (.binary .mul .quantity .quantity) (.number 0)⟩

theorem dividesByZero_squareByZero (n : Int) :
    squareByZero.tree.DividesByZero n .div (n * n) :=
  .here (.inl rfl) rfl rfl

theorem value_squareByZero (n : Int) :
    squareByZero.value n = .error ⟨divisionError .div (n * n), squareByZero.source⟩ :=
  Compiled.value_eq_error_iff.2 ⟨_, _, dividesByZero_squareByZero n, rfl⟩

/-- Half the digits that a number may have are too many for a number that is squared. -/
theorem value_squareByZero_pow {k : Nat} (h : digitLimit = k + k) :
    squareByZero.value (Int.ofNat (Nat.pow 10 k)) =
      .error ⟨.numeral .tooLong, squareByZero.source⟩ := by
  have hlong : Nat.pow 10 digitLimit ≤
      (Int.ofNat (Nat.pow 10 k) * Int.ofNat (Nat.pow 10 k)).natAbs := by
    rw [h, Int.natAbs_mul]
    exact Nat.le_of_eq (Nat.pow_add 10 k k)
  rw [value_squareByZero, divisionError_eq_numeral_iff.2 ⟨hlong, rfl⟩]

/-- The expression `n*n/0` is blamed for dividing by zero, unless the square is too long. -/
theorem Compiled.value_long_dividend :
    compile "n*n/0".toList = .ok squareByZero ∧
      (∀ n, squareByZero.tree.DividesByZero n .div (n * n)) ∧
      (∃ f, squareByZero.value 1 = .error f ∧ f.expression? = some squareByZero.source) ∧
      ∃ f, squareByZero.value (Int.ofNat (Nat.pow 10 2150)) = .error f ∧
        f.expression? = none := by
  refine ⟨by cbv, dividesByZero_squareByZero, ⟨_, value_squareByZero 1, by cbv⟩,
    ⟨.numeral .tooLong, squareByZero.source⟩, ?_, rfl⟩
  apply value_squareByZero_pow
  rfl

end LongDividends

end Plural
end Phrasebook
