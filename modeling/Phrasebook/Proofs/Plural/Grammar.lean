import Phrasebook.Plural.Expr

/-!
# The grammar of plural expressions

**Grammar.**  `Derives` gives the rules by which lexemes make up an expression.  An expression
is a condition, or a condition with a question mark and two branches, of which the second one
extends as far as possible.  Each of the six levels of operators groups to the left.
**Nesting.**  A derivation also tells its nesting: the largest number of parentheses, operands
of negations and branches that lie around one place.
-/

namespace Phrasebook
namespace Plural

/-- What the rules of the grammar are about. -/
inductive Category
  | expression
  | level (k : Nat)
  | unary
  | primary
deriving DecidableEq, Repr

/-- The lexemes of an expression and how deeply they are nested. -/
inductive Derives : Category → List Lexeme → Expr → Nat → Prop
  | conditional {t a b : List Lexeme} {test x y : Expr} {i j k : Nat} :
      Derives (.level 1) t test i →
      Derives .expression a x j →
      Derives .expression b y k →
      Derives .expression (t ++ .question :: a ++ .colon :: b) (.conditional test x y)
        (max i (max j k + 1))
  | condition {ls : List Lexeme} {e : Expr} {n : Nat} :
      Derives (.level 1) ls e n → Derives .expression ls e n
  | binary {op : BinaryOp} {l r : List Lexeme} {x y : Expr} {i j : Nat} :
      Derives (.level op.level) l x i →
      Derives (.level (op.level + 1)) r y j →
      Derives (.level op.level) (l ++ .binary op :: r) (.binary op x y) (max i j)
  | tighter {k : Nat} {ls : List Lexeme} {e : Expr} {n : Nat} :
      k ≤ 6 → Derives (.level (k + 1)) ls e n → Derives (.level k) ls e n
  | operand {ls : List Lexeme} {e : Expr} {n : Nat} :
      Derives .unary ls e n → Derives (.level 7) ls e n
  | negation {ls : List Lexeme} {e : Expr} {n : Nat} :
      Derives .unary ls e n → Derives .unary (.negation :: ls) (.negation e) (n + 1)
  | atom {ls : List Lexeme} {e : Expr} {n : Nat} :
      Derives .primary ls e n → Derives .unary ls e n
  | number (digits : Text) :
      Derives .primary [.number digits] (.number (Nat.ofDigitChars 10 digits 0)) 0
  | quantity : Derives .primary [.quantity] .quantity 0
  | parens {ls : List Lexeme} {e : Expr} {n : Nat} :
      Derives .expression ls e n → Derives .primary (.openParen :: ls ++ [.closeParen]) e (n + 1)

theorem level_le (op : BinaryOp) : 1 ≤ op.level ∧ op.level ≤ 6 := by
  cases op <;> decide

/-- What is derived at a level is derived at every level that binds less tightly. -/
theorem Derives.loosen {k : Nat} {ls : List Lexeme} {e : Expr} {n : Nat}
    (h : Derives (.level k) ls e n) (hk : k ≤ 7) {min : Nat} (hmin : min ≤ k) :
    Derives (.level min) ls e n := by
  induction k with
  | zero =>
      obtain rfl : min = 0 := Nat.le_zero.1 hmin
      exact h
  | succ k ih =>
      rcases Nat.lt_or_eq_of_le hmin with hlt | rfl
      · exact ih (.tighter (by omega) h) (by omega) (by omega)
      · exact h

theorem Derives.ne_nil {c : Category} {ls : List Lexeme} {e : Expr} {n : Nat}
    (h : Derives c ls e n) : ls ≠ [] := by
  induction h <;> simp_all

/-- A primary begins with no negation. -/
theorem Derives.head?_ne_negation {ls : List Lexeme} {e : Expr} {n : Nat}
    (h : Derives .primary ls e n) : ls.head? ≠ some .negation := by
  cases h <;> simp

end Plural
end Phrasebook
