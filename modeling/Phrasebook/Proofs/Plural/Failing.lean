import Phrasebook.Plural.Formula
import Phrasebook.Proofs.Number.Reading
import Phrasebook.Proofs.Outcome

/-!
# Expressions that fail

**Divisions by zero.**  `Expr.DividesByZero` says which division by zero the value of an
expression comes upon, with its dividend; `Expr.evaluate_eq_error_iff`: an expression has no value
exactly if there is one.
**Long dividends.**  A formula that divides by zero selects the category 0, unless the dividend is
too long for the message of the error.  `evaluate_long_dividend`: so it is for `n*n/0` and every
quantity whose square has more digits than a numeral may have.
-/

namespace Phrasebook
namespace Plural

section Expressions

variable {n : Int}

/-- Does the value of the expression come upon a division by zero with the given operator and
dividend?  What a logical operator or a branch leaves out is not come upon. -/
inductive Expr.DividesByZero (n : Int) : Expr → BinaryOp → Int → Prop
  | negation {x : Expr} {op : BinaryOp} {a : Int} :
      DividesByZero n x op a → DividesByZero n (.negation x) op a
  | left {o op : BinaryOp} {x y : Expr} {a : Int} :
      DividesByZero n x op a → DividesByZero n (.binary o x y) op a
  | right {o op : BinaryOp} {x y : Expr} {a b : Int} :
      x.evaluate n = .ok b → o.settledBy? b = none → DividesByZero n y op a →
      DividesByZero n (.binary o x y) op a
  | here {op : BinaryOp} {x y : Expr} {a : Int} :
      op = .div ∨ op = .mod → x.evaluate n = .ok a → y.evaluate n = .ok 0 →
      DividesByZero n (.binary op x y) op a
  | test {t x y : Expr} {op : BinaryOp} {a : Int} :
      DividesByZero n t op a → DividesByZero n (.conditional t x y) op a
  | ifTrue {t x y : Expr} {op : BinaryOp} {a b : Int} :
      t.evaluate n = .ok b → b ≠ 0 → DividesByZero n x op a →
      DividesByZero n (.conditional t x y) op a
  | ifFalse {t x y : Expr} {op : BinaryOp} {a : Int} :
      t.evaluate n = .ok 0 → DividesByZero n y op a → DividesByZero n (.conditional t x y) op a

theorem BinaryOp.apply_eq_error_iff {op : BinaryOp} {a b : Int} {e : EvalError} :
    op.apply a b = .error e ↔ (op = .div ∨ op = .mod) ∧ b = 0 ∧ e = divisionError op a := by
  cases op with
  | div | mod =>
      rw [apply]
      split
      · rename_i hb
        simp [hb, eq_comm]
      · rename_i hb
        simp [hb]
  | _ => simp [apply]

theorem BinaryOp.settledBy?_division {op : BinaryOp} (h : op = .div ∨ op = .mod) (a : Int) :
    op.settledBy? a = none := by
  rcases h with rfl | rfl <;> rfl

theorem Expr.DividesByZero.evaluate_eq {x : Expr} {op : BinaryOp} {a : Int}
    (h : x.DividesByZero n op a) : x.evaluate n = .error (divisionError op a) := by
  induction h with
  | negation _ ih | left _ ih | test _ ih => exact bind_eq_error_iff.2 (.inl ih)
  | right hx hsettled _ ih =>
      refine bind_eq_error_iff.2 (.inr ⟨_, hx, ?_⟩)
      rw [hsettled]
      exact bind_eq_error_iff.2 (.inl ih)
  | here hop hx hy =>
      refine bind_eq_error_iff.2 (.inr ⟨_, hx, ?_⟩)
      rw [BinaryOp.settledBy?_division hop]
      exact bind_eq_error_iff.2 (.inr ⟨0, hy, BinaryOp.apply_eq_error_iff.2 ⟨hop, rfl, rfl⟩⟩)
  | ifTrue ht hb _ ih => exact bind_eq_error_iff.2 (.inr ⟨_, ht, (if_neg hb).trans ih⟩)
  | ifFalse ht _ ih => exact bind_eq_error_iff.2 (.inr ⟨0, ht, ih⟩)

/-- An expression has no value exactly if it divides by zero. -/
theorem Expr.evaluate_eq_error_iff {x : Expr} {e : EvalError} :
    x.evaluate n = .error e ↔ ∃ op a, x.DividesByZero n op a ∧ e = divisionError op a := by
  constructor
  · intro h
    induction x with
    | number value => cases h
    | quantity => cases h
    | negation operand ih =>
        rcases bind_eq_error_iff.1 h with hoperand | ⟨a, -, hpure⟩
        · obtain ⟨op, a, hdivides, he⟩ := ih hoperand
          exact ⟨op, a, .negation hdivides, he⟩
        · cases hpure
    | binary o left right ihl ihr =>
        rcases bind_eq_error_iff.1 h with hleft | ⟨a, ha, hright⟩
        · obtain ⟨op, a, hdivides, he⟩ := ihl hleft
          exact ⟨op, a, .left hdivides, he⟩
        · split at hright
          · cases hright
          · rename_i hsettled
            rcases bind_eq_error_iff.1 hright with hright | ⟨b, hb, happly⟩
            · obtain ⟨op, c, hdivides, he⟩ := ihr hright
              exact ⟨op, c, .right ha hsettled hdivides, he⟩
            · obtain ⟨ho, rfl, he⟩ := BinaryOp.apply_eq_error_iff.1 happly
              exact ⟨o, a, .here ho ha hb, he⟩
    | conditional test ifTrue ifFalse iht ihx ihy =>
        rcases bind_eq_error_iff.1 h with htest | ⟨t, ht, hbranch⟩
        · obtain ⟨op, a, hdivides, he⟩ := iht htest
          exact ⟨op, a, .test hdivides, he⟩
        · split at hbranch
          · rename_i hzero
            subst hzero
            obtain ⟨op, a, hdivides, he⟩ := ihy hbranch
            exact ⟨op, a, .ifFalse ht hdivides, he⟩
          · rename_i hnonzero
            obtain ⟨op, a, hdivides, he⟩ := ihx hbranch
            exact ⟨op, a, .ifTrue ht hnonzero hdivides, he⟩
  · rintro ⟨op, a, hdivides, rfl⟩
    exact hdivides.evaluate_eq

theorem divisionError_eq_numeral_iff {op : BinaryOp} {a : Int} {e : NumeralError} :
    divisionError op a = .numeral e ↔ Nat.pow 10 digitLimit ≤ a.natAbs ∧ e = .tooLong := by
  rw [← writeNumeral_eq_error_iff, divisionError]
  cases writeNumeral a with
  | ok shown => simp
  | error d => simp

end Expressions

section Formulas

/-- The formula whose one condition is `n*n/0`. -/
def divisionByZero : Formula :=
  ⟨[⟨"n*n/0".toList, 1⟩], some 2, "n*n/0".toList⟩

theorem evaluate_long_dividend {n : Int} (h : Nat.pow 10 digitLimit ≤ (n * n).natAbs) :
    divisionByZero.evaluate n = .error .tooLong := by
  have hcompile : compile "n*n/0".toList =
      .ok ⟨"n*n/0".toList, .binary .div (.binary .mul .quantity .quantity) (.number 0)⟩ := by
    cbv
  have hdefault : Rule.isDefault ⟨"n*n/0".toList, 1⟩ = false := by decide
  have htest : Compiled.test
      ⟨"n*n/0".toList, .binary .div (.binary .mul .quantity .quantity) (.number 0)⟩ n =
        .error (divisionError .div (n * n)) := rfl
  simp only [Formula.evaluate, divisionByZero, Formula.select, hdefault, hcompile, htest]
  rw [divisionError_eq_numeral_iff.2 ⟨h, rfl⟩]
  rfl

end Formulas

end Plural
end Phrasebook
