import Phrasebook.Proofs.Plural.Grammar
import Phrasebook.Proofs.Plural.Lexing

/-!
# Brackets

The parentheses and branch marks of a text are those of its lexemes, and they tell how it was
derived.

**Nesting.**  `isNested floor depth` follows the depth of parentheses: it ends at the floor, it
never falls below it, and no branch mark stands at depth zero.
**Derivations.**  What is derived below an expression has its branch marks in parentheses; in an
expression they may stand anywhere.
**Results.**
* `Splits.brackets_eq`: splitting keeps the brackets.
* `Derives.conditional_inv`: the first branch mark outside parentheses ends the condition, the
  next one the first branch.
* `Derives.parens_inv`: parentheses around all lexemes are the last step of a derivation.
-/

namespace Phrasebook
namespace Plural

/-- The characters that tell how an expression is built. -/
inductive Bracket
  | opening
  | closing
  | branch
deriving DecidableEq

/-- What a character is among the brackets. -/
def Bracket.ofChar? (c : Char) : Option Bracket :=
  if c = '(' then some .opening
  else if c = ')' then some .closing
  else if c = '?' ∨ c = ':' then some .branch
  else none

/-- What a lexeme is among the brackets. -/
def Lexeme.bracket? : Lexeme → Option Bracket
  | .openParen => some .opening
  | .closeParen => some .closing
  | .question | .colon => some .branch
  | _ => none

/-- The brackets of a text. -/
def brackets (t : Text) : List Bracket :=
  t.filterMap Bracket.ofChar?

/-- The brackets of lexemes. -/
def lexemeBrackets (ls : List Lexeme) : List Bracket :=
  ls.filterMap Lexeme.bracket?

/-- Do the brackets lead from a depth down to the floor and never below it, with no branch at
depth zero? -/
def isNested (floor : Nat) : Nat → List Bracket → Bool
  | depth, [] => depth == floor
  | depth, .opening :: rest => isNested floor (depth + 1) rest
  | depth, .closing :: rest => decide (floor < depth) && isNested floor (depth - 1) rest
  | depth, .branch :: rest => decide (0 < depth) && isNested floor depth rest

/-- The depth behind a bracket. -/
def Bracket.depthBehind (depth : Nat) : Bracket → Nat
  | .opening => depth + 1
  | .closing => depth - 1
  | .branch => depth

section Nesting

variable {floor depth k d : Nat} {a b : List Bracket}

theorem isNested_closing :
    isNested floor depth (.closing :: b) = true ↔
      floor < depth ∧ isNested floor (depth - 1) b = true := by
  rw [isNested, Bool.and_eq_true, decide_eq_true_eq]

theorem isNested_branch :
    isNested floor depth (.branch :: b) = true ↔
      0 < depth ∧ isNested floor depth b = true := by
  rw [isNested, Bool.and_eq_true, decide_eq_true_eq]

theorem isNested_tail {x : Bracket} (h : isNested floor depth (x :: b) = true) :
    isNested floor (x.depthBehind depth) b = true := by
  cases x with
  | opening => exact h
  | closing => exact (isNested_closing.1 h).2
  | branch => exact (isNested_branch.1 h).2

/-- Nested brackets can be passed over at any greater depth. -/
theorem isNested_append (h : isNested k d a = true) (j : Nat) (hfloor : floor ≤ j + k)
    (b : List Bracket) : isNested floor (j + d) (a ++ b) = isNested floor (j + k) b := by
  induction a generalizing d with
  | nil =>
      obtain rfl : d = k := by simpa [isNested] using h
      rfl
  | cons x a ih =>
      cases x with
      | opening => exact ih h
      | closing =>
          obtain ⟨hd, h⟩ := isNested_closing.1 h
          have hlt : floor < j + d := by omega
          have hrest : isNested floor (j + d - 1) (a ++ b) = isNested floor (j + k) b := by
            rw [show j + d - 1 = j + (d - 1) by omega]
            exact ih h
          rw [List.cons_append, isNested, decide_eq_true hlt, Bool.true_and, hrest]
      | branch =>
          obtain ⟨hd, h⟩ := isNested_branch.1 h
          have hlt : 0 < j + d := by omega
          rw [List.cons_append, isNested, decide_eq_true hlt, Bool.true_and, ih h]

theorem isNested_lift (h : isNested k d a = true) (j : Nat) :
    isNested (j + k) (j + d) a = true := by
  have happend := isNested_append h j (Nat.le_refl (j + k)) []
  rw [List.append_nil] at happend
  rw [happend]
  exact beq_self_eq_true (j + k)

/-- Brackets that lead down to zero are no part of brackets that stay above it. -/
theorem not_isNested_one_append (h : isNested 0 d a = true) (hd : 0 < d) (b : List Bracket) :
    isNested 1 d (a ++ b) = false := by
  induction a generalizing d with
  | nil =>
      have hzero : d = 0 := by simpa [isNested] using h
      omega
  | cons x a ih =>
      cases x with
      | opening => exact ih h (Nat.succ_pos d)
      | closing =>
          obtain ⟨-, h⟩ := isNested_closing.1 h
          rw [List.cons_append, isNested, Bool.and_eq_false_iff, decide_eq_false_iff_not]
          by_cases hone : 1 < d
          · exact .inr (ih h (by omega))
          · exact .inl hone
      | branch =>
          obtain ⟨-, h⟩ := isNested_branch.1 h
          rw [List.cons_append, isNested, ih h hd, Bool.and_false]

end Nesting

section Lists

variable {c : Char} {l : Lexeme}

@[simp] theorem brackets_nil : brackets [] = [] := rfl

@[simp] theorem brackets_append (s t : Text) : brackets (s ++ t) = brackets s ++ brackets t :=
  List.filterMap_append

theorem brackets_cons (c : Char) (t : Text) :
    brackets (c :: t) = (Bracket.ofChar? c).toList ++ brackets t := by
  rw [brackets, List.filterMap_cons]
  cases Bracket.ofChar? c <;> rfl

@[simp] theorem lexemeBrackets_nil : lexemeBrackets [] = [] := rfl

@[simp] theorem lexemeBrackets_append (ls ms : List Lexeme) :
    lexemeBrackets (ls ++ ms) = lexemeBrackets ls ++ lexemeBrackets ms :=
  List.filterMap_append

theorem lexemeBrackets_cons (l : Lexeme) (ls : List Lexeme) :
    lexemeBrackets (l :: ls) = l.bracket?.toList ++ lexemeBrackets ls := by
  rw [lexemeBrackets, List.filterMap_cons]
  cases l.bracket? <;> rfl

/-- A character of a class without brackets is none. -/
theorem ofChar?_eq_none {p : Char → Bool} (h : p c = true)
    (hp : p '(' = false ∧ p ')' = false ∧ p '?' = false ∧ p ':' = false) :
    Bracket.ofChar? c = none := by
  have hne : ∀ x, p x = false → c ≠ x := by
    rintro x hx rfl
    rw [hx] at h
    cases h
  unfold Bracket.ofChar?
  rw [if_neg (hne _ hp.1), if_neg (hne _ hp.2.1), if_neg]
  rintro (hc | hc)
  · exact hne _ hp.2.2.1 hc
  · exact hne _ hp.2.2.2 hc

theorem ofChar?_of_isBlank (h : isBlank c = true) : Bracket.ofChar? c = none :=
  ofChar?_eq_none h (by decide)

theorem brackets_of_isAsciiDigit {digits : Text} (h : ∀ c ∈ digits, isAsciiDigit c = true) :
    brackets digits = [] := by
  rw [brackets, List.filterMap_eq_nil_iff]
  exact fun c hc => ofChar?_eq_none (h c hc) (by decide)

theorem Lexeme.brackets_toText {rest : Text} (h : l.Fits rest) :
    brackets l.toText = l.bracket?.toList := by
  cases l with
  | number digits => exact brackets_of_isAsciiDigit h.2
  | binary op => cases op <;> rfl
  | _ => rfl

theorem Splits.brackets_eq {t : Text} {ls : List Lexeme} (h : Splits t ls) :
    brackets t = lexemeBrackets ls := by
  induction h with
  | nil => rfl
  | blank hc _ ih =>
      rw [brackets_cons, ofChar?_of_isBlank hc, ih]
      rfl
  | lexeme hlong _ ih =>
      rw [brackets_append, Lexeme.brackets_toText hlong.1, ih, lexemeBrackets_cons]

end Lists

section Derivations

/-- How the brackets of a category are nested. -/
def Category.Nests : Category → List Bracket → Prop
  | .expression => fun b => isNested 1 1 b = true
  | _ => fun b => isNested 0 0 b = true

theorem Derives.nests {c : Category} {ls : List Lexeme} {e : Expr} {n : Nat}
    (h : Derives c ls e n) : c.Nests (lexemeBrackets ls) := by
  induction h with
  | @conditional t a b test x y i j k _ _ _ iht iha ihb =>
      have ht := isNested_append iht 1 (Nat.le_refl 1)
      have ha := isNested_append iha 0 (Nat.le_refl 1)
      simp only [Category.Nests, lexemeBrackets_append, lexemeBrackets_cons, List.append_assoc,
        List.cons_append]
      refine (ht _).trans ?_
      refine isNested_branch.2 ⟨Nat.one_pos, ?_⟩
      refine (ha _).trans ?_
      exact isNested_branch.2 ⟨Nat.one_pos, ihb⟩
  | condition _ ih => exact isNested_lift ih 1
  | @binary op l r x y i j _ _ ihl ihr =>
      simp only [Category.Nests, lexemeBrackets_append, lexemeBrackets_cons]
      exact (isNested_append ihl 0 (Nat.le_refl 0) _).trans ihr
  | tighter _ _ ih => exact ih
  | operand _ ih => exact ih
  | negation _ ih => exact ih
  | atom _ ih => exact ih
  | number => rfl
  | quantity => rfl
  | parens _ ih =>
      simp only [Category.Nests, lexemeBrackets_append, lexemeBrackets_cons, List.append_assoc]
      exact (isNested_append ih 0 (Nat.zero_le 1) _).trans rfl

/-- Where nested lexemes may end there is no branch mark. -/
theorem not_isNested_branch {d : Nat} {y : Lexeme} (q : List Lexeme)
    (hd : isNested 0 d (lexemeBrackets []) = true) (hy : y.bracket? = some .branch) :
    isNested 0 d (lexemeBrackets (y :: q)) = false := by
  have hzero : d = 0 := by simpa [isNested] using hd
  rw [lexemeBrackets_cons, hy, hzero]
  rfl

/-- Two parts in front of branch marks agree if all their own branch marks are nested. -/
theorem split_unique {d : Nat} {p p' s s' : List Lexeme} {x x' : Lexeme}
    (hp : isNested 0 d (lexemeBrackets p) = true) (hp' : isNested 0 d (lexemeBrackets p') = true)
    (hx : x.bracket? = some .branch) (hx' : x'.bracket? = some .branch)
    (h : p ++ x :: s = p' ++ x' :: s') : p = p' ∧ x = x' ∧ s = s' := by
  induction p generalizing d p' with
  | nil =>
      cases p' with
      | nil =>
          obtain ⟨hxx, hss⟩ := List.cons.inj h
          exact ⟨rfl, hxx, hss⟩
      | cons y q =>
          obtain ⟨rfl, -⟩ := List.cons.inj h
          rw [not_isNested_branch q hp hx] at hp'
          cases hp'
  | cons y q ih =>
      cases p' with
      | nil =>
          obtain ⟨rfl, -⟩ := List.cons.inj h
          rw [not_isNested_branch q hp' hx'] at hp
          cases hp
      | cons y' q' =>
          obtain ⟨rfl, hrest⟩ := List.cons.inj h
          rw [lexemeBrackets_cons] at hp hp'
          cases hy : y.bracket? with
          | none =>
              rw [hy] at hp hp'
              obtain ⟨rfl, hmarks⟩ := ih hp hp' hrest
              exact ⟨rfl, hmarks⟩
          | some b =>
              rw [hy] at hp hp'
              obtain ⟨rfl, hmarks⟩ := ih (isNested_tail hp) (isNested_tail hp') hrest
              exact ⟨rfl, hmarks⟩

/-- A parenthesis that is closed by the last lexeme is closed by none in front of it. -/
theorem not_closed_before {ls l r : List Lexeme} {x : Lexeme}
    (hls : isNested 1 1 (lexemeBrackets ls) = true) (hl : isNested 0 0 (lexemeBrackets l) = true)
    (hne : l ≠ []) : .openParen :: ls ++ [.closeParen] ≠ l ++ x :: r := by
  intro h
  cases l with
  | nil => exact hne rfl
  | cons y l =>
      obtain ⟨rfl, hrest⟩ := List.cons.inj h
      obtain ⟨front, last, hlast⟩ : ∃ front last, x :: r = front ++ [last] :=
        ⟨_, _, (List.dropLast_concat_getLast (List.cons_ne_nil x r)).symm⟩
      have hinner : ls ++ [.closeParen] = (l ++ front) ++ [last] := by
        rw [List.append_assoc, ← hlast]
        exact hrest
      obtain ⟨rfl, -⟩ := List.append_inj' hinner rfl
      have hclosed : isNested 0 1 (lexemeBrackets l) = true := hl
      rw [lexemeBrackets_append, not_isNested_one_append hclosed Nat.one_pos] at hls
      cases hls

theorem Derives.parens_inv {c : Category} {ls all : List Lexeme} {e : Expr} {n : Nat}
    (h : Derives c all e n) (hall : .openParen :: ls ++ [.closeParen] = all)
    (hls : isNested 1 1 (lexemeBrackets ls) = true) : ∃ m < n, Derives .expression ls e m := by
  induction h with
  | conditional ht _ _ =>
      rw [List.append_assoc] at hall
      exact absurd hall (not_closed_before hls ht.nests ht.ne_nil)
  | binary hl _ => exact absurd hall (not_closed_before hls hl.nests hl.ne_nil)
  | condition _ ih => exact ih hall
  | tighter _ _ ih => exact ih hall
  | operand _ ih => exact ih hall
  | atom _ ih => exact ih hall
  | negation _ => cases hall
  | number => cases hall
  | quantity => cases hall
  | @parens _ _ n he _ =>
      obtain ⟨-, h⟩ := List.cons.inj hall
      obtain ⟨rfl, -⟩ := List.append_inj' h rfl
      exact ⟨n, Nat.lt_succ_self n, he⟩

/-- The branch marks outside parentheses tell the parts of a conditional. -/
theorem Derives.conditional_inv {lc lv lr : List Lexeme} {e : Expr} {n : Nat}
    (h : Derives .expression (lc ++ .question :: (lv ++ .colon :: lr)) e n)
    (hc : isNested 0 0 (lexemeBrackets lc) = true)
    (hv : isNested 0 0 (lexemeBrackets lv) = true) :
    ∃ test x y i j k, e = .conditional test x y ∧ Derives .expression lc test i ∧
      Derives .expression lv x j ∧ Derives .expression lr y k := by
  generalize hall : lc ++ .question :: (lv ++ .colon :: lr) = all at h
  cases h with
  | condition h =>
      -- below an expression no branch mark stands outside parentheses
      have hnests : isNested 0 0 (lexemeBrackets all) = true := h.nests
      rw [← hall, lexemeBrackets_append, isNested_append hc 0 (Nat.le_refl 0)] at hnests
      cases hnests
  | @conditional t a b test x y i j k ht hx hy =>
      rw [List.append_assoc, List.cons_append] at hall
      obtain ⟨rfl, -, hrest⟩ := split_unique hc ht.nests rfl rfl hall
      cases hx with
      | condition hx =>
          obtain ⟨rfl, -, rfl⟩ := split_unique hv hx.nests rfl rfl hrest
          exact ⟨test, x, y, i, j, k, rfl, .condition ht, .condition hx, hy⟩
      | conditional ht' _ _ =>
          rw [List.append_assoc, List.append_assoc] at hrest
          obtain ⟨-, hmark, -⟩ := split_unique hv ht'.nests rfl rfl hrest
          cases hmark

end Derivations

end Plural
end Phrasebook
