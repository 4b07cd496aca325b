import Mathlib
import Phrasebook.Proofs.Plural.Degrading
import Phrasebook.Proofs.Plural.Depth
import Phrasebook.Proofs.Plural.Flattening

/-!
# The limits of formulas

The limits on length and nesting are those of a condition.  A formula has as many conditions as its
chain has branches, each of them with room for itself.

**Oversize.**  A text is oversize if it is longer than an expression may be or nested deeper.
Nothing oversize is an expression.
**Results.**
* `Formula.evaluate_of_isOversize`: a condition that is oversize, or has a part that is, selects the
  category 0 as soon as it is reached.  An expression without branches is one condition.
* `Formula.ofHeader_enclosed`: the values of a chain have no limit, nor has the chain as a whole.
* `ofExpression_nestedChain`: how deep chains may stand one in the other is up to the machine.
-/

namespace Phrasebook
namespace Plural

section Conditions

variable {q : Int} {part t : Text} {rules : List Rule} {r : Rule}

/-- Is the text too long or nested too deep for an expression? -/
def IsOversize (t : Text) : Prop :=
  maxLength < t.length ∨ maxDepth < nesting t

instance (t : Text) : Decidable (IsOversize t) :=
  inferInstanceAs (Decidable (_ ∨ _))

theorem IsOversize.of_isInfix (h : IsOversize part) (hpart : part <:+: t) : IsOversize t :=
  h.imp (fun hlong => hlong.trans_le hpart.length_le)
    fun hdeep => hdeep.trans_le (nesting_le_of_isInfix hpart)

/-- No expression is oversize. -/
theorem IsOversize.compile_ne_ok (h : IsOversize t) (c : Compiled) : compile t ≠ .ok c := by
  intro hcompile
  rcases h with hlong | hdeep
  · exact absurd hlong (Nat.not_lt.2 (length_le_of_compile hcompile))
  · exact absurd hdeep (Nat.not_lt.2 (nesting_le_of_compile hcompile))

/-- A condition that is oversize is broken, and not because of a division. -/
theorem Rule.breaks_of_isOversize (h : IsOversize r.condition) (hdefault : r.isDefault = false) :
    r.Breaks q ∧ ¬ r.Overflows q := by
  constructor
  · cases hcompile : compile r.condition with
    | ok c => exact absurd hcompile (h.compile_ne_ok c)
    | error e => exact .inl ⟨hdefault, e, hcompile⟩
  · rintro ⟨a, ⟨-, c, op, hcompile, -⟩, -⟩
    exact h.compile_ne_ok c hcompile

theorem Reaches.select_eq_zero (h : Reaches q rules r) (hdefault : r.isDefault = false)
    (hsize : IsOversize r.condition) : Formula.select q rules 0 = .ok 0 := by
  obtain ⟨front, rest, rfl, hfront⟩ := h
  obtain ⟨hbreaks, hshort⟩ := Rule.breaks_of_isOversize hsize hdefault
  rw [select_append hfront, select_of_breaks hbreaks hshort]

end Conditions

section Expressions

variable {t : Text}

theorem trim_stripParens (h : Text.trim t = t) : Text.trim (stripParens t) = stripParens t := by
  induction t using stripParens.induct with
  | case1 t hwrapped ih =>
      rw [stripParens, dif_pos hwrapped]
      exact ih (Text.trim_trim _)
  | case2 t hbare =>
      rw [stripParens, dif_neg hbare]
      exact h

theorem trim_headerExpression (line : Text) :
    Text.trim (headerExpression line) = headerExpression line := by
  unfold headerExpression
  cases behindPlural? false line with
  | none => rfl
  | some assigned => exact trim_stripParens (Text.trim_trim _)

/-- Does the text have no branch mark outside parentheses? -/
def IsBare (t : Text) : Prop :=
  hasTopLevel '?' t = false ∧ hasTopLevel ':' t = false

theorem IsCondition.isBare (h : IsCondition t) : IsBare t := by
  have hcolon : cutTopLevel? ':' 0 t = none := cutTopLevel?_of_isNested (.inr rfl) h
  refine ⟨h.hasTopLevel, ?_⟩
  rw [Plural.hasTopLevel, hcolon]
  rfl

theorem decompose_of_isBare [Machine] (h : IsBare t) : decompose t = .ok [⟨Text.trim t, 1⟩] := by
  have hcolon : cutTopLevel? ':' 0 t = none := by
    simpa [hasTopLevel] using h.2
  rw [decompose, decomposeWithin, splitTopLevel_eq, hcolon, h.1]
  rfl

end Expressions

section Chains

/-- The text in as many pairs of parentheses as are given. -/
def enclosed (count : Nat) (t : Text) : Text :=
  List.replicate count '(' ++ t ++ List.replicate count ')'

theorem enclosed_succ (count : Nat) (t : Text) :
    enclosed (count + 1) t = '(' :: (enclosed count t ++ [')']) := by
  rw [enclosed, enclosed, List.replicate_succ, List.replicate_succ', List.cons_append,
    List.cons_append, List.append_assoc, List.append_assoc, List.append_assoc]

theorem encloses_enclosed (count : Nat) (t : Text) : Encloses t count (enclosed count t) := by
  induction count with
  | zero =>
      have hself : enclosed 0 t = t := List.append_nil t
      rw [hself]
      exact .core
  | succ count ih =>
      rw [enclosed_succ]
      exact .parens ih

theorem le_nesting_enclosed (count : Nat) (t : Text) : count ≤ nesting (enclosed count t) := by
  have hpeak : ∀ d, peak d (brackets (List.replicate count '(')) = d + count := by
    induction count with
    | zero => exact fun d => rfl
    | succ count ih =>
        intro d
        have hstep : peak d (brackets (List.replicate (count + 1) '(')) =
            max d (peak (d + 1) (brackets (List.replicate count '('))) := rfl
        rw [hstep, ih]
        omega
  have hfront : List.replicate count '(' <:+: enclosed count t := by
    rw [enclosed, List.append_assoc]
    exact (List.prefix_append _ _).isInfix
  have hle := nesting_le_of_isInfix hfront
  rwa [nesting, hpeak, Nat.zero_add] at hle

/-- The chain `n?1:0` with its condition and its first category in pairs of parentheses. -/
def enclosedChain (i j : Nat) : Text :=
  enclosed i ['n'] ++ '?' :: (enclosed j ['1'] ++ ':' :: ['0'])

/-- The sum `n+1` with the number in pairs of parentheses. -/
def enclosedSum (count : Nat) : Text :=
  ['n', '+'] ++ enclosed count ['1']

/-- Has the text no other characters than these chains and sums? -/
def IsPlain (t : Text) : Prop :=
  t ⊆ ['n', '+', '?', '(', '1', ')', ':', '0']

theorem isPlain_replicate {c : Char} (h : IsPlain [c]) (count : Nat) :
    IsPlain (List.replicate count c) := by
  intro x hx
  rw [(List.mem_replicate.1 hx).2]
  exact h (List.mem_singleton_self c)

theorem isPlain_enclosed {c : Char} (h : IsPlain [c]) (count : Nat) :
    IsPlain (enclosed count [c]) :=
  List.append_subset.2 ⟨List.append_subset.2
    ⟨isPlain_replicate (by simp [IsPlain]) count, h⟩, isPlain_replicate (by simp [IsPlain]) count⟩

theorem isPlain_enclosedChain (i j : Nat) : IsPlain (enclosedChain i j) := by
  refine List.append_subset.2 ⟨isPlain_enclosed (by simp [IsPlain]) i, ?_⟩
  refine List.cons_subset.2 ⟨by simp, List.append_subset.2 ⟨?_, by simp⟩⟩
  exact isPlain_enclosed (by simp [IsPlain]) j

theorem isPlain_enclosedSum (count : Nat) : IsPlain (enclosedSum count) :=
  List.append_subset.2 ⟨by simp, isPlain_enclosed (by simp [IsPlain]) count⟩

theorem IsPlain.trim_eq {t : Text} (h : IsPlain t) : Text.trim t = t := by
  have hletters : ['n', '+', '?', '(', '1', ')', ':', '0'].all (fun c => !isBlank c) = true := by
    decide
  exact Text.trim_of_forall_mem fun c hc => by simpa using List.all_eq_true.1 hletters c (h hc)

theorem IsPlain.not_mem {t : Text} (h : IsPlain t) : 's' ∉ t ∧ ';' ∉ t :=
  ⟨fun hs => absurd (h hs) (by decide), fun hs => absurd (h hs) (by decide)⟩

theorem isLiteral_digit {d : Char} (h : isAsciiDigit d = true) : IsLiteral [d] :=
  ⟨List.cons_ne_nil d [], by simpa using h⟩

theorem isCondition_enclosed {t : Text} (h : IsCondition t) (count : Nat) :
    IsCondition (enclosed count t) :=
  (encloses_enclosed count t).isCondition h.isBalanced fun _ => h

theorem isCondition_quantity (count : Nat) : IsCondition (enclosed count ['n']) :=
  isCondition_enclosed (t := ['n']) rfl count

theorem isPiece_enclosedChain (i j : Nat) : IsPiece .chain (enclosedChain i j) :=
  .branch (isCondition_quantity i)
    (.literal (isLiteral_digit rfl) (encloses_enclosed j ['1']))
    (.literal (isLiteral_digit rfl) .core)

/-- The parentheses around a category are taken away, those around a condition are not. -/
theorem chainRules_enclosed (fuel i j : Nat) (r : Text) :
    chainRules fuel (enclosed i ['n'] ++ '?' :: (enclosed j ['1'] ++ ':' :: r)) =
      (chainRules fuel r).map (⟨enclosed i ['n'], 1⟩ :: ·) := by
  have hone : IsLiteral ['1'] := isLiteral_digit rfl
  have hplain : IsPlain (enclosed i ['n']) := isPlain_enclosed (by simp [IsPlain]) i
  have hne : enclosed i ['n'] ≠ [] := by
    simp [enclosed]
  have hfront : branchRules (decomposeWithin fuel) (Text.trim (enclosed i ['n']))
      (enclosed j ['1']) = .ok [⟨enclosed i ['n'], 1⟩] := by
    rw [hplain.trim_eq, branchRules_literal hone (by decide) (encloses_enclosed j ['1']),
      guardRules,
      List.isEmpty_eq_false_iff.2 hne]
    rfl
  rw [chainRules_branch (isCondition_quantity i) (isCondition_enclosed hone.isCondition j), hfront]
  rfl

theorem chainRules_zero (fuel : Nat) : chainRules fuel ['0'] = .ok [⟨[], 0⟩] := by
  have hzero : IsLiteral ['0'] := isLiteral_digit rfl
  rw [chainRules_value hzero.isCondition]
  exact branchRules_literal hzero (by decide) .core

theorem decompose_enclosedChain [Machine] (i j : Nat) :
    decompose (enclosedChain i j) = .ok [⟨enclosed i ['n'], 1⟩, ⟨[], 0⟩] := by
  rw [decompose, decomposeWithin_succ (isPiece_enclosedChain i j).hasTopLevel, enclosedChain,
    chainRules_enclosed, chainRules_zero]
  rfl

/-- A chain of plain characters is the expression of its formula as it stands. -/
theorem ofExpression_chain [Machine] {t : Text} (hplain : IsPlain t) (hpiece : IsPiece .chain t) :
    Formula.ofExpression t none = Formula.ofRules none t (decompose t) := by
  have hstrip : stripParens (Text.trim t) = t := by
    rw [hplain.trim_eq, stripParens_of_not_wrapped hpiece.isWrapped]
  have hne : t ≠ [] := by
    rintro rfl
    exact absurd hpiece.hasTopLevel Bool.false_ne_true
  exact ofExpression_eq hplain.not_mem.1 hplain.not_mem.2 hpiece.isBalanced.1 hstrip hne

theorem ofExpression_enclosedChain [Machine] (i j : Nat) :
    Formula.ofExpression (enclosedChain i j) none =
      .ok ⟨[⟨enclosed i ['n'], 1⟩, ⟨[], 0⟩], none, enclosedChain i j⟩ := by
  rw [ofExpression_chain (isPlain_enclosedChain i j) (isPiece_enclosedChain i j),
    decompose_enclosedChain, Formula.ofRules]

theorem isCondition_enclosedSum (count : Nat) : IsCondition (enclosedSum count) :=
  isCondition_enclosed (isLiteral_digit (d := '1') rfl).isCondition count

theorem ofExpression_enclosedSum [Machine] (count : Nat) :
    Formula.ofExpression (enclosedSum count) none =
      .ok ⟨[⟨enclosedSum count, 1⟩], none, enclosedSum count⟩ := by
  have hcondition := isCondition_enclosedSum count
  have hplain := isPlain_enclosedSum count
  have hrules := decompose_of_isBare hcondition.isBare
  rw [hplain.trim_eq] at hrules
  have hstrip : stripParens (Text.trim (enclosedSum count)) = enclosedSum count := by
    rw [hplain.trim_eq, stripParens_of_not_wrapped rfl]
  rw [ofExpression_eq hplain.not_mem.1 hplain.not_mem.2 hcondition.isBalanced hstrip
    (List.cons_ne_nil _ _), hrules, Formula.ofRules]

theorem le_size_enclosedChain (i j : Nat) :
    2 * (i + j) + 5 ≤ (enclosedChain i j).length ∧ j ≤ nesting (enclosedChain i j) := by
  have hpart : enclosed j ['1'] <:+: enclosedChain i j := by
    refine ⟨enclosed i ['n'] ++ ['?'], ":0".toList, ?_⟩
    rw [enclosedChain, List.append_assoc, List.append_assoc]
    rfl
  refine ⟨?_, (le_nesting_enclosed j ['1']).trans (nesting_le_of_isInfix hpart)⟩
  simp only [enclosedChain, enclosed, List.length_append, List.length_cons, List.length_nil,
    List.length_replicate]
  omega

/-- The chain `n?1:0` with as many chains like it, one in the other, for the last category. -/
def nestedChain : Nat → Text
  | 0 => enclosedChain 0 0
  | depth + 1 => "n?1:".toList ++ '(' :: (nestedChain depth ++ [')'])

theorem isPlain_nestedChain (depth : Nat) : IsPlain (nestedChain depth) := by
  induction depth with
  | zero => exact isPlain_enclosedChain 0 0
  | succ depth ih =>
      refine List.append_subset.2 ⟨by simp, List.cons_subset.2 ⟨by simp, ?_⟩⟩
      exact List.append_subset.2 ⟨ih, by simp⟩

theorem isPiece_nestedChain (depth : Nat) : IsPiece .chain (nestedChain depth) := by
  induction depth with
  | zero => exact isPiece_enclosedChain 0 0
  | succ depth ih =>
      have hrest : IsPiece .value ('(' :: (nestedChain depth ++ [')'])) :=
        .nested ih (isPlain_nestedChain depth).trim_eq (.parens .core)
      exact .branch (isCondition_quantity 0) (.literal (isLiteral_digit rfl) .core) hrest

/-- Every chain in the chain takes one more call. -/
theorem chainRules_nestedChain (fuel depth : Nat) :
    chainRules fuel (nestedChain depth) =
      if depth ≤ fuel then .ok (List.replicate (depth + 1) ⟨['n'], 1⟩ ++ [⟨[], 0⟩])
      else .error .nestedTooDeep := by
  induction depth generalizing fuel with
  | zero => exact (chainRules_enclosed fuel 0 0 ['0']).trans (by rw [chainRules_zero]; rfl)
  | succ depth ih =>
      have hpiece := isPiece_nestedChain depth
      have hparens : IsCondition ('(' :: (nestedChain depth ++ [')'])) := hpiece.isBalanced.1.parens
      have hinner : chainRules fuel ('(' :: (nestedChain depth ++ [')'])) =
          (decomposeWithin fuel (nestedChain depth)).map (guardRules []) := by
        rw [chainRules_value hparens,
          branchRules_nested hpiece (isPlain_nestedChain depth).trim_eq (.parens .core)]
      refine (chainRules_enclosed fuel 0 0 ('(' :: (nestedChain depth ++ [')']))).trans ?_
      rw [hinner]
      cases fuel with
      | zero => rfl
      | succ fuel =>
          rw [decomposeWithin_succ hpiece.hasTopLevel, ih fuel]
          simp only [Nat.succ_le_succ_iff]
          split <;> rfl

/-- The machine gives up on chains in chains that stand too deep, and on these only. -/
theorem ofExpression_nestedChain [Machine] (depth : Nat) :
    Formula.ofExpression (nestedChain depth) none =
      if depth ≤ Machine.chainDepth then
        .ok ⟨List.replicate (depth + 1) ⟨['n'], 1⟩ ++ [⟨[], 0⟩], none, nestedChain depth⟩
      else .error .nestedTooDeep := by
  have hpiece := isPiece_nestedChain depth
  rw [ofExpression_chain (isPlain_nestedChain depth) hpiece, decompose,
    decomposeWithin_succ hpiece.hasTopLevel, chainRules_nestedChain,
    apply_ite (Formula.ofRules none _)]
  rfl

end Chains

section Results

variable [Machine] {line : Text} {f : Formula}

/-- The limits hold for every condition: where a condition that is oversize, or has an oversize part
such as a condition around it, is reached, the category is 0; and an expression without branches is
one condition. -/
theorem Formula.evaluate_of_isOversize (h : ofHeader line = .ok f) (q : Int) :
    (∀ r part, Reaches q f.rules r → r.isDefault = false → part <:+: r.condition →
        IsOversize part → f.evaluate q = .ok 0) ∧
      (IsBare f.expression → IsOversize f.expression → f.evaluate q = .ok 0) := by
  have hreached : ∀ r part, Reaches q f.rules r → r.isDefault = false → part <:+: r.condition →
      IsOversize part → f.evaluate q = .ok 0 :=
    fun r part hreaches hdefault hpart hsize =>
      hreaches.select_eq_zero hdefault (hsize.of_isInfix hpart)
  refine ⟨hreached, fun hbare hsize => ?_⟩
  obtain ⟨hexpression, ⟨-, hnone⟩ | ⟨hne, hrules⟩⟩ := ofHeader_cases h
  · rw [evaluate, hnone]
    rfl
  · have htrim : Text.trim f.expression = f.expression := by
      rw [hexpression, trim_headerExpression]
    rw [decompose_of_isBare hbare, htrim] at hrules
    have hdefault : Rule.isDefault ⟨f.expression, 1⟩ = false := by
      rw [Rule.isDefault, htrim, List.isEmpty_eq_false_iff]
      exact hne
    have hfirst : Reaches q f.rules ⟨f.expression, 1⟩ :=
      ⟨[], [], (Except.ok.inj hrules).symm, fun _ hr => absurd hr List.not_mem_nil⟩
    exact hreached _ _ hfirst hdefault List.infix_rfl hsize

end Results

/-- A condition in too many parentheses selects the category 0, and so does a sum in which a number
stands in too many. -/
theorem Formula.evaluate_of_isOversize_enclosed :
    (∃ f, ofHeader ("plural=".toList ++ enclosedChain 101 0 ++ [';']) = .ok f ∧
        ∀ q, f.evaluate q = .ok 0) ∧
      ∃ f, ofHeader ("plural=".toList ++ enclosedSum 101 ++ [';']) = .ok f ∧
        ∀ q, f.evaluate q = .ok 0 := by
  constructor
  · refine ⟨_, ofExpression_enclosedChain 101 0, fun q => ?_⟩
    have hdefault : Rule.isDefault ⟨enclosed 101 ['n'], 1⟩ = false := by decide
    have hsize : IsOversize (enclosed 101 ['n']) :=
      .inr (Nat.lt_of_lt_of_le (by decide) (le_nesting_enclosed 101 ['n']))
    exact (evaluate_of_isOversize (ofExpression_enclosedChain 101 0) q).1 ⟨enclosed 101 ['n'], 1⟩
      (enclosed 101 ['n']) ⟨[], [⟨[], 0⟩], rfl, nofun⟩ hdefault List.infix_rfl hsize
  · have hpart : enclosed 101 ['1'] <:+: enclosedSum 101 := (List.suffix_append _ _).isInfix
    have hdeep : 101 ≤ nesting (enclosedSum 101) :=
      (le_nesting_enclosed 101 ['1']).trans (nesting_le_of_isInfix hpart)
    have hsize : IsOversize (enclosedSum 101) := .inr (Nat.lt_of_lt_of_le (by decide) hdeep)
    have hformula := ofExpression_enclosedSum 101
    refine ⟨_, hformula, fun q => ?_⟩
    exact (evaluate_of_isOversize hformula q).2 (isCondition_enclosedSum 101).isBare hsize

/-- The chain as a whole has no limit: it is both too long and nested too deep for an expression,
and its condition is neither. -/
theorem Formula.ofHeader_enclosed :
    ∃ f, ofHeader ("plural=".toList ++ enclosedChain 0 500 ++ [';']) = .ok f ∧
      maxLength < f.expression.length ∧ maxDepth < nesting f.expression ∧
      f.evaluate 1 = .ok 1 := by
  obtain ⟨hlong, hdeep⟩ := le_size_enclosedChain 0 500
  have hselect : Formula.select 1 [⟨['n'], 1⟩, ⟨[], 0⟩] 0 = .ok 1 := by cbv
  refine ⟨_, ofExpression_enclosedChain 0 500, ?_, ?_, hselect⟩
  · exact Nat.lt_of_lt_of_le (by decide : maxLength < 2 * (0 + 500) + 5) hlong
  · exact Nat.lt_of_lt_of_le (by decide : maxDepth < 500) hdeep

end Plural
end Phrasebook
