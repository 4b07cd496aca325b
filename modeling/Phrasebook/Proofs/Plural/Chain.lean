import Phrasebook.Proofs.Plural.Denoting
import Phrasebook.Proofs.Plural.Legible

/-!
# Chains

A chain `C ? V : R` has a condition without branches outside parentheses, a value that is a
number or a chain in parentheses, and a rest that is a value or a chain again.

**Pieces.**  `IsPiece` says this of texts, up to blanks and pairs of parentheses, which `Encloses`
counts.
**Rules.**  `chainRules` is what `decompose` does with a chain.  The rules of a chain are those of
its value below its condition and, behind them, those of its rest (`chainRules_branch`).
-/

namespace Phrasebook
namespace Plural

section Pieces

/-- The text is a core with blanks at its ends, in the given number of pairs of parentheses, and
with blanks at the ends of those. -/
inductive Encloses (core : Text) : Nat → Text → Prop
  | core : Encloses core 0 core
  | before {n : Nat} {t : Text} {c : Char} :
      isBlank c = true → Encloses core n t → Encloses core n (c :: t)
  | behind {n : Nat} {t : Text} {c : Char} :
      isBlank c = true → Encloses core n t → Encloses core n (t ++ [c])
  | parens {n : Nat} {t : Text} :
      Encloses core n t → Encloses core (n + 1) ('(' :: (t ++ [')']))

/-- Do the parentheses of the text come in pairs? -/
def IsBalanced (t : Text) : Prop :=
  isNested 1 1 (brackets t) = true

/-- Is the text balanced, with no branch mark outside parentheses? -/
def IsCondition (t : Text) : Prop :=
  isNested 0 0 (brackets t) = true

/-- Is the text a number? -/
def IsLiteral (t : Text) : Prop :=
  t ≠ [] ∧ ∀ c ∈ t, isAsciiDigit c = true

/-- What chains are made of. -/
inductive Piece
  | chain
  | value
deriving DecidableEq

/-- The texts of chains and of their values. -/
inductive IsPiece : Piece → Text → Prop
  | branch {c v r : Text} {rest : Piece} :
      IsCondition c → IsPiece .value v → IsPiece rest r →
      IsPiece .chain (c ++ '?' :: (v ++ ':' :: r))
  | literal {digits t : Text} {n : Nat} :
      IsLiteral digits → Encloses digits n t → IsPiece .value t
  | nested {chain t : Text} {n : Nat} :
      IsPiece .chain chain → Text.trim chain = chain → Encloses chain (n + 1) t →
      IsPiece .value t

end Pieces

section Enclosing

variable {core t : Text} {n : Nat} {c : Char}

theorem brackets_cons_blank (h : isBlank c = true) (t : Text) :
    brackets (c :: t) = brackets t := by
  rw [brackets_cons, ofChar?_of_isBlank h]
  rfl

theorem brackets_concat_blank (h : isBlank c = true) (t : Text) :
    brackets (t ++ [c]) = brackets t := by
  rw [brackets_append, brackets_cons_blank h, brackets_nil, List.append_nil]

theorem IsCondition.isBalanced (h : IsCondition t) : IsBalanced t :=
  isNested_lift h 1

theorem IsBalanced.parens (h : IsBalanced t) : IsCondition ('(' :: (t ++ [')'])) := by
  rw [IsCondition, brackets_cons, brackets_append]
  exact (isNested_append h 0 (Nat.zero_le 1) _).trans rfl

theorem Encloses.isBalanced (h : Encloses core n t) (hcore : IsBalanced core) :
    IsBalanced t := by
  induction h with
  | core => exact hcore
  | before hc _ ih => rwa [IsBalanced, brackets_cons_blank hc]
  | behind hc _ ih => rwa [IsBalanced, brackets_concat_blank hc]
  | parens _ ih => exact ih.parens.isBalanced

/-- Parentheses hide the branch marks of the core. -/
theorem Encloses.isCondition (h : Encloses core n t) (hcore : IsBalanced core)
    (hn : n = 0 → IsCondition core) : IsCondition t := by
  induction h with
  | core => exact hn rfl
  | before hc _ ih =>
      rw [IsCondition, brackets_cons_blank hc]
      exact ih hn
  | behind hc _ ih =>
      rw [IsCondition, brackets_concat_blank hc]
      exact ih hn
  | parens h _ => exact (h.isBalanced hcore).parens

theorem Encloses.denotes {e : Expr} (h : Encloses core n t) (hcore : IsBalanced core)
    (ht : Denotes t e) : Denotes core e := by
  induction h with
  | core => exact ht
  | before hc _ ih => exact ih ((denotes_cons_iff hc).1 ht)
  | behind hc _ ih => exact ih ((denotes_concat_iff hc).1 ht)
  | parens h ih => exact ih (ht.parens_inv (h.isBalanced hcore))

theorem Encloses.length_le (h : Encloses core n t) : core.length + 2 * n ≤ t.length := by
  induction h with
  | core => exact Nat.le_refl _
  | before _ _ ih =>
      rw [List.length_cons]
      omega
  | behind _ _ ih =>
      rw [List.length_append]
      omega
  | parens _ ih =>
      rw [List.length_cons, List.length_append, List.length_singleton]
      omega

theorem trim_parens (t : Text) : Text.trim ('(' :: (t ++ [')'])) = '(' :: (t ++ [')']) := by
  refine Text.trim_eq_self (fun c hc => ?_) (fun c hc => ?_)
  · obtain rfl : '(' = c := Option.some.inj hc
    rfl
  · rw [← List.cons_append, List.getLast?_concat] at hc
    obtain rfl : ')' = c := Option.some.inj hc
    rfl

/-- Stripping finds the core and takes all pairs of parentheses away. -/
theorem Encloses.stripParens_trim (h : Encloses core n t) (hcore : IsBalanced core)
    (htrim : Text.trim core = core) (hbare : isWrapped core = false) :
    stripParens (Text.trim t) = core ∧ core.length + 2 * n ≤ (Text.trim t).length := by
  induction h with
  | core =>
      rw [htrim, stripParens_of_not_wrapped hbare]
      exact ⟨rfl, Nat.le_refl _⟩
  | before hc _ ih =>
      rw [Text.trim_cons_of_isBlank hc]
      exact ih
  | behind hc _ ih =>
      rw [Text.trim_concat_of_isBlank hc]
      exact ih
  | @parens n t h ih =>
      rw [trim_parens, stripParens_parens (h.isBalanced hcore)]
      refine ⟨ih.1, ?_⟩
      have hlen := Text.length_trim_le t
      have hinner := ih.2
      simp only [List.length_cons, List.length_append, List.length_nil]
      omega

end Enclosing

section Shapes

variable {t : Text} {p : Piece}

theorem IsLiteral.isCondition (h : IsLiteral t) : IsCondition t := by
  rw [IsCondition, brackets_of_isAsciiDigit h.2]
  rfl

theorem IsPiece.isBalanced (h : IsPiece p t) : IsBalanced t ∧ (p = .value → IsCondition t) := by
  induction h with
  | @branch c v r rest hc _ _ ihv ihr =>
      refine ⟨?_, fun h => nomatch h⟩
      have hpass : ∀ {s : Text}, IsBalanced s → ∀ b, isNested 1 1 (brackets s ++ b) =
          isNested 1 1 b := fun hs b => isNested_append hs 0 (Nat.le_refl 1) b
      have hquestion : ∀ s, isNested 1 1 (brackets ('?' :: s)) = isNested 1 1 (brackets s) :=
        fun _ => rfl
      have hcolon : ∀ s, isNested 1 1 (brackets (':' :: s)) = isNested 1 1 (brackets s) :=
        fun _ => rfl
      rw [IsBalanced, brackets_append, hpass hc.isBalanced, hquestion, brackets_append,
        hpass ihv.1, hcolon]
      exact ihr.1
  | literal hdigits h =>
      have hcondition := hdigits.isCondition
      exact ⟨h.isBalanced hcondition.isBalanced,
        fun _ => h.isCondition hcondition.isBalanced fun _ => hcondition⟩
  | nested _ _ h ih =>
      exact ⟨h.isBalanced ih.1, fun _ => h.isCondition ih.1 fun hn => nomatch hn⟩

theorem IsPiece.hasTopLevel (h : IsPiece .chain t) : hasTopLevel '?' t = true := by
  cases h with
  | branch hc _ _ => rw [Plural.hasTopLevel, cutTopLevel?_mark (.inl rfl) hc]; rfl

theorem IsCondition.hasTopLevel (h : IsCondition t) : hasTopLevel '?' t = false := by
  have hcut : cutTopLevel? '?' 0 t = none := cutTopLevel?_of_isNested (.inl rfl) h
  rw [Plural.hasTopLevel, hcut]
  rfl

theorem IsPiece.isWrapped (h : IsPiece .chain t) : isWrapped t = false := by
  rw [Bool.eq_false_iff]
  intro hwrapped
  obtain ⟨u, rfl, hu⟩ := (isWrapped_iff t).1 hwrapped
  have hmark := h.hasTopLevel
  rw [IsCondition.hasTopLevel (IsBalanced.parens hu)] at hmark
  cases hmark

end Shapes

section Rules

variable {c v r t cond : Text} {fuel : Nat}

/-- The rules of a chain by at most `fuel` calls for the chains in it. -/
def chainRules (fuel : Nat) (t : Text) : Except RuleError (List Rule) :=
  ((splitTopLevel ':' 0 t).mapM (segmentRules (decomposeWithin fuel))).map List.flatten

theorem decomposeWithin_succ (h : hasTopLevel '?' t = true) :
    decomposeWithin (fuel + 1) t = chainRules fuel t := by
  rw [decomposeWithin, h]
  simp [chainRules]

theorem chainRules_value (h : IsCondition v) :
    chainRules fuel v = branchRules (decomposeWithin fuel) [] v := by
  have hcolon : cutTopLevel? ':' 0 v = none := cutTopLevel?_of_isNested (.inr rfl) h
  have hquestion : cutTopLevel? '?' 0 v = none := cutTopLevel?_of_isNested (.inl rfl) h
  rw [chainRules, splitTopLevel_eq, hcolon, List.mapM_cons, List.mapM_nil, segmentRules,
    hquestion]
  cases branchRules (decomposeWithin fuel) [] v with
  | error e => rfl
  | ok rules => exact congrArg Except.ok (List.append_nil rules)

/-- The rules of the value below the condition, and behind them those of the rest. -/
theorem chainRules_branch (hc : IsCondition c) (hv : IsCondition v) :
    chainRules fuel (c ++ '?' :: (v ++ ':' :: r)) =
      branchRules (decomposeWithin fuel) (Text.trim c) v >>= fun front =>
        (chainRules fuel r).map (front ++ ·) := by
  have hcolon : cutTopLevel? ':' 0 (c ++ '?' :: (v ++ ':' :: r)) = some (c ++ '?' :: v, r) := by
    have hbehind : cutTopLevel? ':' 0 (v ++ ':' :: r) = some (v, r) :=
      cutTopLevel?_mark (.inr rfl) hv r
    have hmark : cutTopLevel? ':' 0 ('?' :: (v ++ ':' :: r)) = some ('?' :: v, r) := by
      rw [cutTopLevel?, if_neg (by decide), show depthAfter 0 '?' = 0 from rfl, hbehind]
      rfl
    have hcut := cutTopLevel?_append (cutTopLevel?_of_isNested (.inr rfl) hc)
      ('?' :: (v ++ ':' :: r))
    rw [depthBehind_of_isNested hc] at hcut
    refine hcut.trans ?_
    rw [show ((0 : Nat) : Int) = 0 from rfl, hmark]
    rfl
  have hquestion : cutTopLevel? '?' 0 (c ++ '?' :: v) = some (c, v) :=
    cutTopLevel?_mark (.inl rfl) hc v
  unfold chainRules
  rw [splitTopLevel_eq, hcolon]
  simp only [List.mapM_cons, segmentRules, hquestion]
  cases branchRules (decomposeWithin fuel) (Text.trim c) v with
  | error e => rfl
  | ok front => cases (splitTopLevel ':' 0 r).mapM (segmentRules (decomposeWithin fuel)) <;> rfl

theorem branchRules_literal {digits : Text} {n : Nat}
    {chainRules : Text → Except RuleError (List Rule)} (hdigits : IsLiteral digits)
    (hlen : digits.length ≤ digitLimit) (h : Encloses digits n v) :
    branchRules chainRules cond v =
      .ok (guardRules cond [⟨[], Nat.ofDigitChars 10 digits 0⟩]) := by
  have hbare : isWrapped digits = false := by
    rw [Bool.eq_false_iff]
    intro hwrapped
    obtain ⟨u, rfl, -⟩ := (isWrapped_iff digits).1 hwrapped
    exact absurd (hdigits.2 '(' (List.mem_cons_self ..)) (by decide)
  have hstrip :=
    (h.stripParens_trim hdigits.isCondition.isBalanced (trim_of_isAsciiDigit hdigits.2) hbare).1
  rw [branchRules]
  simp only [hstrip, allIn_isDigit hdigits.1 hdigits.2, if_true,
    readNumeral_of_isAsciiDigit hdigits.1 hdigits.2 hlen]
  cases cond <;> rfl

theorem branchRules_nested {chain : Text} {n : Nat}
    {chainRules : Text → Except RuleError (List Rule)} (hchain : IsPiece .chain chain)
    (htrim : Text.trim chain = chain) (h : Encloses chain (n + 1) v) :
    branchRules chainRules cond v = (chainRules chain).map (guardRules cond) := by
  obtain ⟨hstrip, hlen⟩ := h.stripParens_trim hchain.isBalanced.1 htrim hchain.isWrapped
  have hne : chain ≠ Text.trim v := by
    intro he
    rw [← he] at hlen
    omega
  exact branchRules_of_innerChain? (innerChain?_eq_some_iff.2 ⟨hstrip, hne, hchain.hasTopLevel⟩)

end Rules

end Plural
end Phrasebook
