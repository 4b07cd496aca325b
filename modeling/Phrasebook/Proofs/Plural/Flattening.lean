import Mathlib
import Phrasebook.Proofs.Plural.Depth

/-!
# Flattening chains

A formula made of the rules of a chain selects the category that the chain computes.

**Choices.**  The rules of a chain are a choice: conditions with categories, and a category
behind them all.  `choose_under` is why rules may be moved below a condition.
**Invariant.**  `Flattening` says of a piece that its rules express a choice that computes what
the text of the piece denotes.  It goes from the parts of a piece to the piece.
**Result.**  `evaluate_ofExpression`, for chains and for bare conditions.
-/

namespace Phrasebook
namespace Plural

section Choices

variable {q : Int} {otherwise : Nat}

/-- The category behind the first condition that holds, or else the last one. -/
def choose (q : Int) (otherwise : Nat) : List (Expr × Nat) → Except EvalError Nat
  | [] => .ok otherwise
  | (condition, category) :: rest => do
      let value ← condition.evaluate q
      if value = 0 then choose q otherwise rest else pure category

/-- A branch that needs a condition as well. -/
def under (condition : Expr) (branch : Expr × Nat) : Expr × Nat :=
  (.binary .and condition branch.1, branch.2)

theorem evaluate_and (x y : Expr) :
    (Expr.binary .and x y).evaluate q = x.evaluate q >>= fun a =>
      if a = 0 then .ok 0 else y.evaluate q >>= fun b => .ok (truth (b != 0)) := by
  rw [Expr.evaluate]
  cases x.evaluate q with
  | error e => rfl
  | ok a =>
      simp only [ok_bind, BinaryOp.settledBy?]
      by_cases ha : a = 0
      · rw [if_pos ha, if_pos ha]
        rfl
      · rw [if_neg ha, if_neg ha]
        simp only [BinaryOp.apply, show (a != 0) = true by simpa using ha, Bool.true_and]

/-- Branches below a condition and the condition itself choose as a conditional does. -/
theorem choose_under (condition : Expr) (category : Nat) (branches rest : List (Expr × Nat)) :
    choose q otherwise (branches.map (under condition) ++ (condition, category) :: rest) =
      condition.evaluate q >>= fun value =>
        if value = 0 then choose q otherwise rest else choose q category branches := by
  induction branches with
  | nil => rfl
  | cons branch branches ih =>
      rw [List.map_cons, List.cons_append, under, choose, ih, evaluate_and]
      cases condition.evaluate q with
      | error e => rfl
      | ok a =>
          simp only [ok_bind]
          by_cases ha : a = 0
          · rw [ha]
            rfl
          · rw [if_neg ha, if_neg ha, if_neg ha, choose]
            cases branch.1.evaluate q with
            | error e => rfl
            | ok b =>
                by_cases hb : b = 0
                · rw [hb]
                  rfl
                · have htruth : truth (b != 0) = 1 := by
                    rw [show (b != 0) = true by simpa using hb]
                    rfl
                  simp only [ok_bind, htruth, if_neg hb]
                  rfl

end Choices

section Rules

/-- Rules with the conditions and categories of a choice. -/
inductive Expresses : List Rule → List (Expr × Nat) → Nat → Prop
  | otherwise (category : Nat) : Expresses [⟨[], category⟩] [] category
  | branch {rule : Rule} {e : Expr} {rules : List Rule} {branches : List (Expr × Nat)}
      {otherwise : Nat} :
      Denotes rule.condition e → Expresses rules branches otherwise →
      Expresses (rule :: rules) ((e, rule.index) :: branches) otherwise

theorem isDefault_of_denotes {rule : Rule} {e : Expr} (h : Denotes rule.condition e) :
    rule.isDefault = false := by
  rw [Rule.isDefault]
  simpa using h.trim_ne_nil

/-- Rules below a condition, followed by other rules, express the choice below the condition. -/
theorem Expresses.guarded {rules others : List Rule} {branches rest : List (Expr × Nat)}
    {category otherwise : Nat} {c : Text} {condition : Expr} (hc : Denotes c condition)
    (h : Expresses rules branches category) (hothers : Expresses others rest otherwise) :
    Expresses (rules.map (Rule.below c) ++ others)
      (branches.map (under condition) ++ (condition, category) :: rest) otherwise := by
  induction h with
  | otherwise category =>
      have hlast : Expresses (⟨c, category⟩ :: others) ((condition, category) :: rest) otherwise :=
        .branch hc hothers
      exact hlast
  | @branch rule e rules branches k he _ ih =>
      have hrule : rule.below c =
          ⟨'(' :: c ++ ") && (".toList ++ rule.condition ++ [')'], rule.index⟩ := by
        rw [Rule.below, isDefault_of_denotes he, if_neg Bool.false_ne_true]
      rw [List.map_cons, List.cons_append, List.map_cons, List.cons_append, hrule]
      exact .branch (hc.conjunction he) ih

/-- The category that comes of a choice; a division by zero gives the first one. -/
def settle : Except EvalError Nat → Except NumeralError Nat
  | .ok category => .ok category
  | .error (.divisionByZero ..) => .ok 0
  | .error (.numeral e) => .error e

theorem select_of_expresses {rules : List Rule} {branches : List (Expr × Nat)} {otherwise : Nat}
    (h : Expresses rules branches otherwise)
    (hcompile : ∀ rule ∈ rules, rule.isDefault = false → ∃ c, compile rule.condition = .ok c)
    (q : Int) (default : Nat) :
    Formula.select q rules default = settle (choose q otherwise branches) := by
  induction h with
  | otherwise category => rfl
  | @branch rule e rules branches k he _ ih =>
      have hdefault := isDefault_of_denotes he
      obtain ⟨c, hc⟩ := hcompile rule (List.mem_cons_self ..) hdefault
      obtain rfl : c.tree = e := (denotes_of_compile hc).unique he
      have hrest := ih fun r hr => hcompile r (List.mem_cons_of_mem _ hr)
      rw [Formula.select, hdefault, if_neg Bool.false_ne_true, hc, choose]
      simp only [Compiled.test, Compiled.evaluate]
      cases c.tree.evaluate q with
      | error e => cases e <;> rfl
      | ok value =>
          by_cases hvalue : value = 0
          · rw [hvalue]
            exact hrest
          · simp only [Except.map, ok_bind, show (value != 0) = true by simpa using hvalue]
            rw [if_neg hvalue]
            rfl

end Rules

section Pieces

/-- The rules of a piece express a choice that computes what the piece denotes.  The rules of a
value may stand below a condition.  As many calls are needed as parentheses are nested. -/
structure Flattening (p : Piece) (t : Text) (e : Expr) (rules : List Rule)
    (branches : List (Expr × Nat)) (otherwise : Nat) : Prop where
  expresses : Expresses rules branches otherwise
  computes : ∀ q, e.evaluate q = (choose q otherwise branches).map (fun k : Nat => (k : Int))
  rules_eq : ∀ fuel, nesting t ≤ fuel → chainRules fuel t = .ok rules
  guarded_eq : p = .value → ∀ fuel, nesting t ≤ fuel → ∀ cond,
    branchRules (decomposeWithin fuel) cond t = .ok (guardRules cond rules)

variable {p : Piece} {t : Text} {e : Expr}

/-- A value is the last segment of a chain if no condition stands in front of it. -/
theorem Flattening.of_value {rules : List Rule} {branches : List (Expr × Nat)} {otherwise : Nat}
    (ht : IsCondition t) (hexpresses : Expresses rules branches otherwise)
    (hcomputes : ∀ q, e.evaluate q = (choose q otherwise branches).map (fun k : Nat => (k : Int)))
    (hguarded : ∀ fuel, nesting t ≤ fuel → ∀ cond,
      branchRules (decomposeWithin fuel) cond t = .ok (guardRules cond rules)) :
    Flattening .value t e rules branches otherwise where
  expresses := hexpresses
  computes := hcomputes
  rules_eq := fun fuel hfuel => by
    rw [chainRules_value ht, hguarded fuel hfuel]
    rfl
  guarded_eq := fun _ => hguarded

theorem IsPiece.flattening (h : IsPiece p t) (ht : Denotes t e) (hlen : t.length ≤ digitLimit) :
    ∃ rules branches otherwise, Flattening p t e rules branches otherwise := by
  induction h generalizing e with
  | @branch c v r rest hc hv _ ihv ihr =>
      have hcondition := hv.isBalanced.2 rfl
      obtain ⟨test, ifTrue, ifFalse, rfl, htest, htrue, hfalse⟩ :=
        ht.conditional_inv hc hcondition
      have hlength : v.length + r.length ≤ (c ++ '?' :: (v ++ ':' :: r)).length := by
        simp only [List.length_append, List.length_cons]
        omega
      obtain ⟨front, branches, category, hfront⟩ := ihv htrue (by omega)
      obtain ⟨others, choices, otherwise, hothers⟩ := ihr hfalse (by omega)
      have hvalue : nesting v ≤ nesting (c ++ '?' :: (v ++ ':' :: r)) :=
        nesting_le_of_isInfix ⟨c ++ ['?'], ':' :: r, by simp⟩
      have hrest : nesting r ≤ nesting (c ++ '?' :: (v ++ ':' :: r)) :=
        nesting_le_of_isInfix ⟨c ++ '?' :: (v ++ [':']), [], by simp⟩
      have htrim := denotes_trim_iff.2 htest
      have hguard : guardRules (Text.trim c) front = front.map (Rule.below (Text.trim c)) := by
        rw [guardRules, if_neg]
        simpa using htest.trim_ne_nil
      refine ⟨_, _, otherwise, hfront.expresses.guarded htrim hothers.expresses, fun q => ?_,
        fun fuel hfuel => ?_, fun h => nomatch h⟩
      · rw [choose_under, Expr.evaluate]
        cases test.evaluate q with
        | error e => rfl
        | ok value =>
            simp only [ok_bind]
            split
            · exact hothers.computes q
            · exact hfront.computes q
      · rw [chainRules_branch hc hcondition,
          hfront.guarded_eq rfl fuel (hvalue.trans hfuel), hguard,
          ok_bind, hothers.rules_eq fuel (hrest.trans hfuel)]
        rfl
  | @literal digits t n hdigits h =>
      have hvalue : IsPiece .value t := .literal hdigits h
      have hnumber := denotes_digits hdigits.1 hdigits.2
      obtain rfl := (h.denotes hdigits.isCondition.isBalanced ht).unique hnumber
      have hlength := h.length_le
      refine ⟨_, _, _, .of_value (hvalue.isBalanced.2 rfl) (.otherwise _) (fun _ => rfl) ?_⟩
      exact fun fuel _ cond => branchRules_literal hdigits (by omega) h
  | @nested chain t n hchain htrim h ih =>
      have hvalue : IsPiece .value t := .nested hchain htrim h
      have hlength := h.length_le
      obtain ⟨rules, branches, otherwise, hinner⟩ :=
        ih (h.denotes hchain.isBalanced.1 ht) (by omega)
      refine ⟨rules, branches, otherwise,
        .of_value (hvalue.isBalanced.2 rfl) hinner.expresses hinner.computes ?_⟩
      intro fuel hfuel cond
      have hdepth := h.nesting_le hchain.isBalanced.1
      obtain ⟨inner, rfl⟩ : ∃ inner, fuel = inner + 1 := ⟨fuel - 1, by omega⟩
      rw [branchRules_nested hchain htrim h, decomposeWithin_succ hchain.hasTopLevel,
        hinner.rules_eq inner (by omega)]
      rfl

end Pieces

section Headers

variable {t : Text}

theorem categoryDigits?_of_not_mem (h : 's' ∉ t) : categoryDigits? t = none := by
  induction t with
  | nil => rfl
  | cons c t ih =>
      have hword : Text.startsWith (c :: t) "nplurals".toList = false := by
        rw [Bool.eq_false_iff]
        intro hstarts
        obtain ⟨rest, hrest⟩ := List.isPrefixOf_iff_prefix.1 hstarts
        rw [← hrest] at h
        exact h (List.mem_append_left rest (by decide))
      rw [List.mem_cons, not_or] at h
      rw [categoryDigits?, behindAssignment?, hword]
      exact ih h.2

theorem cutTopLevel?_of_not_mem {target : Char} (h : target ∉ t) (depth : Int) :
    cutTopLevel? target depth t = none := by
  induction t generalizing depth with
  | nil => rfl
  | cons c t ih =>
      rw [List.mem_cons, not_or] at h
      rw [cutTopLevel?, if_neg (fun hc => h.1 hc.1.symm), ih h.2]
      rfl

theorem depthBehind_add (d j : Int) (t : Text) : depthBehind (d + j) t = depthBehind d t + j := by
  induction t generalizing d with
  | nil => rfl
  | cons c t ih =>
      have hstep : depthAfter (d + j) c = depthAfter d c + j := by
        unfold depthAfter
        repeat' split
        all_goals omega
      rw [depthBehind, List.foldl_cons, hstep]
      exact ih (depthAfter d c)

theorem headerExpression_eq (hsemicolon : ';' ∉ t) (ht : IsBalanced t) :
    headerExpression ("plural=".toList ++ t ++ [';']) = stripParens (Text.trim t) := by
  have hassigned : behindPlural? false ("plural=".toList ++ t ++ [';']) = some (t ++ [';']) := rfl
  have hend : withoutLineEnd (t ++ [';']) = t ++ [';'] := by
    have hkept : ∀ (init : Text) (x : Char), x ≠ ';' →
        Text.dropSuffix (t ++ [';']) (init ++ [x]) = t ++ [';'] := by
      intro init x hx
      rw [Text.dropSuffix, if_neg]
      intro hends
      obtain ⟨front, hfront⟩ := List.isSuffixOf_iff_suffix.1 hends
      rw [← List.append_assoc] at hfront
      obtain ⟨-, hlast⟩ := List.append_inj' hfront rfl
      exact hx (List.cons.inj hlast).1
    have hquote : Text.dropSuffix (t ++ [';']) ['"'] = t ++ [';'] := hkept [] '"' (by decide)
    rw [withoutLineEnd, hquote]
    exact hkept ['\\'] 'n' (by decide)
  have hdepth : depthBehind 0 t = 0 := by
    have hshift := depthBehind_add 0 1 t
    have hbalanced : depthBehind 1 t = 1 := depthBehind_of_isNested ht
    rw [Int.zero_add, hbalanced] at hshift
    omega
  have hcut : cutTopLevel? ';' 0 (t ++ [';']) = some (t, []) := by
    rw [cutTopLevel?_append (cutTopLevel?_of_not_mem hsemicolon 0), hdepth]
    simp [cutTopLevel?]
  rw [headerExpression, hassigned]
  simp only [hend, hcut]

theorem ofExpression_eq [Machine] {core : Text} (hs : 's' ∉ t) (hsemicolon : ';' ∉ t)
    (ht : IsBalanced t) (hcore : stripParens (Text.trim t) = core) (hne : core ≠ []) :
    Formula.ofExpression t none = Formula.ofRules none core (decompose core) := by
  have hword : "plural=".toList = ['p', 'l', 'u', 'r', 'a', 'l', '='] := rfl
  have hletters : 's' ∉ "plural=".toList ++ t ++ [';'] := by
    rw [hword]
    simp [hs]
  have hcategories :
      Formula.declaredCategories ("plural=".toList ++ t ++ [';']) = .ok none := by
    rw [Formula.declaredCategories, categoryDigits?_of_not_mem hletters]
  have hheader : Formula.headerValue t none = "plural=".toList ++ t ++ [';'] := rfl
  rw [Formula.ofExpression, hheader]
  exact Formula.ofHeader_eq hcategories ((headerExpression_eq hsemicolon ht).trans hcore) hne

end Headers

section Formulas

/-- A chain or a bare condition, up to blanks and pairs of parentheses around all of it. -/
inductive IsChainExpression : Text → Prop
  | chain {core t : Text} {n : Nat} :
      IsPiece .chain core → Text.trim core = core → Encloses core n t → IsChainExpression t
  | condition {core t : Text} {n : Nat} :
      IsCondition core → Text.trim core = core →
      (∀ u, core = '(' :: (u ++ [')']) → ¬ IsBalanced u) → Encloses core n t →
      IsChainExpression t

/-- The category that the value of an expression stands for.  A chain computes the category; any
other expression tells one from many. -/
def expectedCategory (branches : Bool) : Except EvalError Int → Except NumeralError Int
  | .ok value => .ok (if branches then value else truth (value != 0))
  | .error (.divisionByZero ..) => .ok 0
  | .error (.numeral e) => .error e

/-- Do rules, as far as their conditions are expressions, select what is expected of a chain or of
a bare condition? -/
def Selects (branches : Bool) (e : Expr) (rules : List Rule) : Prop :=
  (∀ rule ∈ rules, rule.isDefault = false → ∃ c, compile rule.condition = .ok c) →
    ∀ q, (Formula.select q rules 0).map (fun k : Nat => (k : Int)) =
      expectedCategory branches (e.evaluate q)

variable {t core : Text} {e : Expr} {n : Nat}

theorem expectedCategory_eq (chosen : Except EvalError Nat) :
    (settle chosen).map (fun k : Nat => (k : Int)) =
      expectedCategory true (chosen.map (fun k : Nat => (k : Int))) := by
  cases chosen with
  | ok category => rfl
  | error e => cases e <;> rfl

variable [Machine]

/-- A text that denotes an expression is read from a header as it stands. -/
theorem ofExpression_of_denotes {rules : List Rule} (ht : Denotes t e) (hbalanced : IsBalanced t)
    (hstrip : stripParens (Text.trim t) = core) (hcore : Denotes core e)
    (hrules : decompose core = .ok rules) :
    Formula.ofExpression t none = .ok ⟨rules, none, core⟩ := by
  obtain ⟨ls, n, hls, -⟩ := ht
  have hne : core ≠ [] := by
    rintro rfl
    exact hcore.trim_ne_nil rfl
  rw [ofExpression_eq (hls.not_mem (by decide)) (hls.not_mem (by decide)) hbalanced hstrip hne,
    hrules, Formula.ofRules]

theorem IsPiece.select_eq (h : IsPiece .chain core) (hcore : Denotes core e)
    (hlen : core.length ≤ digitLimit) (hdepth : nesting core ≤ Machine.chainDepth) :
    ∃ rules, decompose core = .ok rules ∧ Selects true e rules := by
  obtain ⟨rules, branches, otherwise, hrules⟩ := h.flattening hcore hlen
  refine ⟨rules, ?_, fun hcompile q => ?_⟩
  · rw [decompose, decomposeWithin_succ h.hasTopLevel]
    exact hrules.rules_eq Machine.chainDepth hdepth
  · rw [select_of_expresses hrules.expresses hcompile, expectedCategory_eq, hrules.computes]

theorem IsCondition.select_eq (h : IsCondition core) (htrim : Text.trim core = core)
    (hcore : Denotes core e) :
    ∃ rules, decompose core = .ok rules ∧ Selects false e rules := by
  refine ⟨[⟨core, 1⟩], ?_, fun hcompile q => ?_⟩
  · have hcolon : cutTopLevel? ':' 0 core = none := cutTopLevel?_of_isNested (.inr rfl) h
    rw [decompose, decomposeWithin, splitTopLevel_eq, hcolon, h.hasTopLevel, htrim]
    rfl
  · have hdefault : Rule.isDefault ⟨core, 1⟩ = false := isDefault_of_denotes hcore
    obtain ⟨c, hc⟩ := hcompile ⟨core, 1⟩ (List.mem_singleton_self _) hdefault
    obtain rfl : c.tree = e := (denotes_of_compile hc).unique hcore
    rw [Formula.select, hdefault, if_neg Bool.false_ne_true, hc]
    simp only [Compiled.test, Compiled.evaluate, Formula.select]
    cases c.tree.evaluate q with
    | error e => cases e <;> rfl
    | ok value =>
        simp only [Except.map, expectedCategory]
        cases value != 0 <;> rfl

/-- A formula made of a chain selects the category that the chain computes, and one made of a
bare condition tells one from many, as far as the conditions of its rules are expressions. -/
theorem evaluate_ofExpression {c : Compiled} (ht : IsChainExpression t)
    (hc : compile t = .ok c) :
    ∃ f, Formula.ofExpression t none = .ok f ∧
      ((∀ rule ∈ f.rules, rule.isDefault = false → ∃ d, compile rule.condition = .ok d) →
        ∀ q, (f.evaluate q).map (fun k : Nat => (k : Int)) =
          expectedCategory (hasTopLevel '?' (stripParens (Text.trim t))) (c.evaluate q)) := by
  have htree := denotes_of_compile hc
  have hlen : t.length ≤ digitLimit := Nat.le_trans (length_le_of_compile hc) (by decide)
  have hdepth : nesting t ≤ Machine.chainDepth :=
    (nesting_le_of_compile hc).trans Machine.hundred_le_chainDepth
  cases ht with
  | chain hcore htrim h =>
      have hbalanced := hcore.isBalanced.1
      have hcoreTree := h.denotes hbalanced htree
      have hcoreLen := h.length_le
      have hcoreDepth := h.nesting_le hbalanced
      obtain ⟨rules, hrules, hselect⟩ := hcore.select_eq hcoreTree (by omega) (by omega)
      have hstrip := (h.stripParens_trim hbalanced htrim hcore.isWrapped).1
      refine ⟨_, ofExpression_of_denotes htree (h.isBalanced hbalanced) hstrip hcoreTree hrules, ?_⟩
      rw [hstrip, hcore.hasTopLevel]
      exact hselect
  | @condition core _ n hcore htrim hbare h =>
      have hbalanced := hcore.isBalanced
      have hcoreTree := h.denotes hbalanced htree
      obtain ⟨rules, hrules, hselect⟩ := hcore.select_eq htrim hcoreTree
      have hwrapped : isWrapped core = false := by
        rw [Bool.eq_false_iff]
        intro hwrapped
        obtain ⟨u, hu, hinner⟩ := (isWrapped_iff _).1 hwrapped
        exact hbare u hu hinner
      have hstrip := (h.stripParens_trim hbalanced htrim hwrapped).1
      refine ⟨_, ofExpression_of_denotes htree (h.isBalanced hbalanced) hstrip hcoreTree hrules, ?_⟩
      rw [hstrip, hcore.hasTopLevel]
      exact hselect

end Formulas

/-- A chain in parentheses with a chain for a value. -/
theorem evaluate_ofExpression_nested :
    ∃ f, Formula.ofExpression "(n?(n?1:0):2)".toList none = .ok f ∧
      ∀ q, (f.evaluate q).map (fun k : Nat => (k : Int)) = expectedCategory true
        ((Expr.conditional .quantity (.conditional .quantity (.number 1) (.number 0))
          (.number 2)).evaluate q) := by
  have hliteral : ∀ d : Char, isAsciiDigit d = true → IsPiece .value [d] := by
    intro d hd
    exact .literal ⟨by simp, by simpa using hd⟩ .core
  have hinner : IsPiece .chain "n?1:0".toList :=
    .branch (c := ['n']) rfl (hliteral '1' rfl) (hliteral '0' rfl)
  have hvalue : IsPiece .value "(n?1:0)".toList := .nested hinner rfl (.parens .core)
  have hcore : IsPiece .chain "n?(n?1:0):2".toList :=
    .branch (c := ['n']) rfl hvalue (hliteral '2' rfl)
  have hcompile : compile "(n?(n?1:0):2)".toList =
      .ok ⟨"(n?(n?1:0):2)".toList,
        .conditional .quantity (.conditional .quantity (.number 1) (.number 0)) (.number 2)⟩ := by
    cbv
  have hexpression : IsChainExpression "(n?(n?1:0):2)".toList :=
    .chain hcore rfl (.parens .core)
  obtain ⟨f, hf, hselect⟩ := evaluate_ofExpression hexpression hcompile
  have hcondition : compile "n".toList = .ok ⟨"n".toList, .quantity⟩ := by cbv
  have hguarded : compile "(n) && (n)".toList =
      .ok ⟨"(n) && (n)".toList, .binary .and .quantity .quantity⟩ := by cbv
  have hcalls : decomposeWithin 2 "n?(n?1:0):2".toList =
      .ok [⟨"(n) && (n)".toList, 1⟩, ⟨"n".toList, 0⟩, ⟨[], 2⟩] := by cbv
  have hrules : decompose "n?(n?1:0):2".toList =
      .ok [⟨"(n) && (n)".toList, 1⟩, ⟨"n".toList, 0⟩, ⟨[], 2⟩] :=
    decompose_eq hcalls (by simp) (by decide)
  have hstrip : stripParens (Text.trim "(n?(n?1:0):2)".toList) = "n?(n?1:0):2".toList := by cbv
  have hcoreTree := denotes_of_compile (t := "n?(n?1:0):2".toList) (by cbv)
  have hformula :=
    ofExpression_of_denotes (denotes_of_compile hcompile) rfl hstrip hcoreTree hrules
  rw [hf] at hformula
  obtain rfl := Except.ok.inj hformula
  refine ⟨_, hf, fun q => ?_⟩
  rw [hselect, hstrip, hcore.hasTopLevel]
  · rfl
  · intro rule hrule hdefault
    simp only [List.mem_cons, List.not_mem_nil, or_false] at hrule
    rcases hrule with rfl | rfl | rfl
    · exact ⟨_, hguarded⟩
    · exact ⟨_, hcondition⟩
    · cases hdefault

end Plural
end Phrasebook
