import Phrasebook.Plural.Token
import Phrasebook.Number.Numeral

/-!
# Plural expressions

The value of an expression is a whole number.  A comparison or a logical operator yields 0
or 1, the second operand of a logical operator is looked at only if the first one leaves the
result open, and a quotient is cut off towards zero.

**Errors.**  A division by zero is the only error of an expression.  Its message shows the
dividend, which may be too long to be written; that is an error of its own.
-/

namespace Phrasebook
namespace Plural

/-- A plural expression. -/
inductive Expr
  | number (value : Nat)
  | quantity
  | negation (operand : Expr)
  | binary (op : BinaryOp) (left right : Expr)
  | conditional (test ifTrue ifFalse : Expr)
deriving DecidableEq, Repr

/-- Why an expression has no value. -/
inductive EvalError
  | divisionByZero (op : BinaryOp) (shownDividend : Text)
  | numeral (e : NumeralError)
deriving DecidableEq, Repr

/-- The words for an error. -/
def EvalError.message : EvalError → String
  | .divisionByZero op shown =>
      let dividend := String.ofList shown
      let operator := String.ofList op.toText
      s!"Division by zero in {dividend} {operator} 0"
  | .numeral e => e.message

/-- The quotient of two whole numbers, cut off towards zero. -/
def truncatedQuotient (a b : Int) : Int :=
  let q : Int := ((a.natAbs / b.natAbs : Nat) : Int)
  if decide (0 ≤ a) = decide (0 ≤ b) then q else -q

/-- What the truncated quotient leaves of the dividend. -/
def truncatedRemainder (a b : Int) : Int :=
  a - b * truncatedQuotient a b

/-- A truth value as a number. -/
def truth (b : Bool) : Int :=
  if b then 1 else 0

/-- The error of dividing a number by zero. -/
def divisionError (op : BinaryOp) (dividend : Int) : EvalError :=
  match writeNumeral dividend with
  | .ok shown => .divisionByZero op shown
  | .error e => .numeral e

/-- An operator applied to the values of both operands. -/
def BinaryOp.apply (op : BinaryOp) (a b : Int) : Except EvalError Int :=
  match op with
  | .or => .ok (truth (a != 0 || b != 0))
  | .and => .ok (truth (a != 0 && b != 0))
  | .eq => .ok (truth (a == b))
  | .ne => .ok (truth (a != b))
  | .lt => .ok (truth (decide (a < b)))
  | .le => .ok (truth (decide (a ≤ b)))
  | .gt => .ok (truth (decide (b < a)))
  | .ge => .ok (truth (decide (b ≤ a)))
  | .add => .ok (a + b)
  | .sub => .ok (a - b)
  | .mul => .ok (a * b)
  | .div => if b = 0 then .error (divisionError op a) else .ok (truncatedQuotient a b)
  | .mod => if b = 0 then .error (divisionError op a) else .ok (truncatedRemainder a b)

/-- Does the value of the first operand settle the value of the operator? -/
def BinaryOp.settledBy? (op : BinaryOp) (a : Int) : Option Int :=
  match op with
  | .or => if a = 0 then none else some 1
  | .and => if a = 0 then some 0 else none
  | _ => none

/-- The value of an expression for a quantity. -/
def Expr.evaluate (n : Int) : Expr → Except EvalError Int
  | .number value => .ok value
  | .quantity => .ok n
  | .negation operand => do
      let a ← operand.evaluate n
      pure (truth (a == 0))
  | .binary op left right => do
      let a ← left.evaluate n
      match op.settledBy? a with
      | some value => pure value
      | none =>
          let b ← right.evaluate n
          op.apply a b
  | .conditional test ifTrue ifFalse => do
      let t ← test.evaluate n
      if t = 0 then ifFalse.evaluate n else ifTrue.evaluate n

/-- An expression with operators in front of their operands and all parentheses. -/
def Expr.toPolish : Expr → Text
  | .number value => decimalDigits value
  | .quantity => ['n']
  | .negation operand => "(! ".toList ++ operand.toPolish ++ [')']
  | .binary op left right =>
      '(' :: op.toText ++ ' ' :: left.toPolish ++ ' ' :: right.toPolish ++ [')']
  | .conditional test ifTrue ifFalse =>
      "(? ".toList ++ test.toPolish ++ ' ' :: ifTrue.toPolish ++ ' ' :: ifFalse.toPolish ++ [')']

end Plural
end Phrasebook
