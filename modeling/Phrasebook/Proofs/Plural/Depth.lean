import Phrasebook.Proofs.Plural.Chain
import Phrasebook.Proofs.Plural.Legible

/-!
# How deep texts are nested

**Nesting.**  `nesting` is how deep the parentheses of a text are nested.  Its parts are nested no
deeper, and an expression is derived no deeper than that (`Derives.peak_le`).
**Parentheses** that are taken away make a text less deep (`nesting_stripParens_lt`).
**Chains** stand no deeper one in the other than the parentheses are nested
(`NestsChains.le_nesting`), so that neither an expression nor a header with few parentheses is too
deep for the machine.
-/

namespace Phrasebook
namespace Plural

section Nesting

variable {d d' : Nat} {a b : List Bracket}

/-- The greatest depth that brackets reach from a depth.  A closing parenthesis too many closes
nothing. -/
def peak (depth : Nat) : List Bracket → Nat
  | [] => depth
  | b :: rest => max depth (peak (b.depthBehind depth) rest)

/-- How deep the parentheses of a text are nested. -/
def nesting (t : Text) : Nat :=
  peak 0 (brackets t)

theorem le_peak (d : Nat) (a : List Bracket) : d ≤ peak d a := by
  cases a with
  | nil => exact Nat.le_refl d
  | cons x a => exact Nat.le_max_left d _

theorem peak_append (d : Nat) (a b : List Bracket) :
    peak d (a ++ b) = max (peak d a) (peak (a.foldl Bracket.depthBehind d) b) := by
  induction a generalizing d with
  | nil => exact (Nat.max_eq_right (le_peak d b)).symm
  | cons x a ih =>
      rw [List.cons_append, peak, ih, peak, List.foldl_cons, Nat.max_assoc]

theorem Bracket.depthBehind_mono (x : Bracket) (h : d ≤ d') :
    x.depthBehind d ≤ x.depthBehind d' := by
  cases x with
  | opening => exact Nat.succ_le_succ h
  | closing => exact Nat.sub_le_sub_right h 1
  | branch => exact h

theorem peak_mono (h : d ≤ d') (a : List Bracket) : peak d a ≤ peak d' a := by
  induction a generalizing d d' with
  | nil => exact h
  | cons x a ih =>
      have hrest := ih (x.depthBehind_mono h)
      rw [peak, peak]
      omega

theorem nesting_le_of_isInfix {s t : Text} (h : s <:+: t) : nesting s ≤ nesting t := by
  obtain ⟨front, behind, rfl⟩ := h
  rw [nesting, nesting, brackets_append, brackets_append, peak_append, peak_append]
  exact (peak_mono (Nat.zero_le _) _).trans ((le_max_right _ _).trans (le_max_left _ _))

/-- What is derived leads back to the depth where it begins, and reaches no further above it than it
is nested. -/
theorem Derives.peak_le {c : Category} {ls : List Lexeme} {e : Expr} {n : Nat}
    (h : Derives c ls e n) (d : Nat) :
    (lexemeBrackets ls).foldl Bracket.depthBehind d = d ∧ peak d (lexemeBrackets ls) ≤ d + n := by
  -- neither a branch mark nor any other lexeme between two parts changes the depth
  have hjoin : ∀ {ls ms : List Lexeme} {x : Lexeme} {i j : Nat} {d : Nat},
      x.bracket? = none ∨ x.bracket? = some .branch →
      (lexemeBrackets ls).foldl Bracket.depthBehind d = d ∧ peak d (lexemeBrackets ls) ≤ d + i →
      (lexemeBrackets ms).foldl Bracket.depthBehind d = d ∧ peak d (lexemeBrackets ms) ≤ d + j →
      (lexemeBrackets (ls ++ x :: ms)).foldl Bracket.depthBehind d = d ∧
        peak d (lexemeBrackets (ls ++ x :: ms)) ≤ d + max i j := by
    intro ls ms x i j d hx hls hms
    rw [lexemeBrackets_append, lexemeBrackets_cons, List.foldl_append, peak_append, hls.1]
    rcases hx with hx | hx <;> rw [hx]
    · exact ⟨hms.1, by simp only [Option.toList_none, List.nil_append]; omega⟩
    · refine ⟨hms.1, ?_⟩
      simp only [Option.toList_some, List.singleton_append, peak, Bracket.depthBehind]
      omega
  induction h generalizing d with
  | @conditional t a b test x y i j k _ _ _ iht iha ihb =>
      have hbranches := hjoin (x := .colon) (.inr rfl) (iha d) (ihb d)
      have hall := hjoin (x := .question) (.inr rfl) (iht d) hbranches
      rw [List.append_assoc, List.cons_append]
      exact ⟨hall.1, hall.2.trans (by omega)⟩
  | condition _ ih | tighter _ _ ih | operand _ ih | atom _ ih => exact ih d
  | binary _ _ ihl ihr => exact hjoin (.inl rfl) (ihl d) (ihr d)
  | negation _ ih => exact ⟨(ih d).1, (ih d).2.trans (by omega)⟩
  | number | quantity => exact ⟨rfl, Nat.le_refl d⟩
  | parens _ ih =>
      obtain ⟨hdepth, hpeak⟩ := ih (d + 1)
      rw [List.cons_append, lexemeBrackets_cons, lexemeBrackets_append, Lexeme.bracket?,
        Option.toList_some, List.singleton_append, List.foldl_cons, List.foldl_append, peak,
        Bracket.depthBehind, peak_append, hdepth]
      refine ⟨rfl, ?_⟩
      have hclose : peak (d + 1) (lexemeBrackets [.closeParen]) = d + 1 := by
        simp [lexemeBrackets, Lexeme.bracket?, peak, Bracket.depthBehind]
      rw [hclose]
      omega

/-- An expression is nested no deeper than its limit. -/
theorem nesting_le_of_compile {t : Text} {c : Compiled} (h : compile t = .ok c) :
    nesting t ≤ maxDepth := by
  obtain ⟨-, ls, n, hsplits, hderived, hn⟩ := grammatical_of_compile h
  have hpeak := (hderived.peak_le 0).2
  rw [nesting, hsplits.brackets_eq]
  omega

end Nesting

section Parentheses

variable {floor d n : Nat} {a : List Bracket} {core t u : Text}

theorem peak_succ (h : isNested (floor + 1) (d + 1) a = true) :
    peak (d + 1) a = peak d a + 1 := by
  induction a generalizing d with
  | nil => rfl
  | cons x a ih =>
      have hrest := isNested_tail h
      cases x with
      | opening =>
          rw [peak, peak, Bracket.depthBehind, Bracket.depthBehind, ih hrest]
          omega
      | closing =>
          obtain ⟨hd, -⟩ := isNested_closing.1 h
          obtain ⟨inner, rfl⟩ : ∃ inner, d = inner + 1 := ⟨d - 1, by omega⟩
          have hinner : peak (inner + 1) a = peak inner a + 1 := ih hrest
          rw [peak, peak, Bracket.depthBehind, Bracket.depthBehind, Nat.add_sub_cancel,
            Nat.add_sub_cancel, hinner]
          omega
      | branch =>
          rw [peak, peak, Bracket.depthBehind, Bracket.depthBehind, ih hrest]
          omega

theorem nesting_lt_parens (h : IsBalanced t) : nesting t < nesting ('(' :: (t ++ [')'])) := by
  have hopen : brackets ('(' :: (t ++ [')'])) = .opening :: (brackets t ++ [.closing]) := by
    rw [brackets_cons, brackets_append]
    rfl
  rw [nesting, nesting, hopen, peak, Bracket.depthBehind, peak_append, peak_succ h]
  omega

theorem nesting_unwrap_lt (h : isWrapped t = true) : nesting (unwrap t) < nesting t := by
  obtain ⟨u, rfl, hu⟩ := (isWrapped_iff t).1 h
  rw [unwrap_parens]
  exact Nat.lt_of_le_of_lt (nesting_le_of_isInfix (Text.isInfix_trim u)) (nesting_lt_parens hu)

/-- Parentheses that are taken away make a text less deep. -/
theorem nesting_stripParens_lt (h : stripParens t ≠ t) : nesting (stripParens t) < nesting t := by
  rw [stripParens] at h ⊢
  split
  next hwrapped =>
    have hinner := nesting_le_of_isInfix (isInfix_stripParens (unwrap t))
    exact Nat.lt_of_le_of_lt hinner (nesting_unwrap_lt hwrapped)
  next hbare => exact absurd (dif_neg hbare) h

theorem Encloses.nesting_le (h : Encloses core n t) (hcore : IsBalanced core) :
    nesting core + n ≤ nesting t := by
  induction h with
  | core => exact Nat.le_refl _
  | before hc _ ih =>
      rw [nesting, nesting, brackets_cons_blank hc]
      exact ih
  | behind hc _ ih =>
      rw [nesting, nesting, brackets_concat_blank hc]
      exact ih
  | parens h ih =>
      have hlt := nesting_lt_parens (h.isBalanced hcore)
      omega

end Parentheses

section Chains

variable {depth : Nat} {chain inner t : Text}

/-- A chain for a branch of a chain is nested less deep. -/
theorem nesting_lt_of_mem_innerChains (h : inner ∈ innerChains chain) :
    nesting inner < nesting chain := by
  rw [innerChains] at h
  split at h
  next => cases h
  next =>
    obtain ⟨segment, hsegment, hinner⟩ := List.mem_filterMap.1 h
    obtain ⟨rfl, hne, -⟩ := innerChain?_eq_some_iff.1 hinner
    have hbranch : (partsOf segment).2 <:+: segment := by
      unfold partsOf
      split
      next => exact List.infix_rfl
      next hcut => exact (isInfix_of_cutTopLevel? hcut).2
    have hpart : Text.trim (partsOf segment).2 <:+: chain :=
      (Text.isInfix_trim _).trans (hbranch.trans (isInfix_of_mem_splitTopLevel hsegment))
    exact Nat.lt_of_lt_of_le (nesting_stripParens_lt hne) (nesting_le_of_isInfix hpart)

theorem NestsChains.le_nesting (h : NestsChains depth chain) : depth ≤ nesting chain := by
  induction depth generalizing chain with
  | zero => exact Nat.zero_le _
  | succ depth ih =>
      obtain ⟨inner, hmem, hinner⟩ := h
      exact Nat.lt_of_le_of_lt (ih hinner) (nesting_lt_of_mem_innerChains hmem)

/-- Chains in a header with few parentheses do not stand too deep. -/
theorem not_isTooDeep_of_nesting_le [Machine] {line : Text}
    (h : nesting line ≤ Machine.chainDepth) : ¬IsTooDeep line := by
  intro hdeep
  have hle := hdeep.le_nesting
  have hpart := nesting_le_of_isInfix (isInfix_headerExpression line)
  omega

end Chains

end Plural
end Phrasebook
