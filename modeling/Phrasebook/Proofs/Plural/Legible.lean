import Phrasebook.Plural.Formula
import Phrasebook.Proofs.Number.Reading
import Phrasebook.Proofs.Outcome
import Phrasebook.Proofs.Plural.Nesting

/-!
# Formulas of legible headers

**Parts.**  Whatever the reading of a header cuts out of it is a part of the header, the
numerals among the rest.
**Chains in chains.**  `NestsChains` says how deep chains stand one in the other.  The machine gives
up only on chains that stand deeper than it lets them (`nestsChains_of_decomposeWithin`), and then
there are no rules (`not_nestsChains_of_decomposeWithin`).
**Results.**
* `Formula.failure_of_ofHeader`: a header without a formula has a run of digits that is no
  numeral, or chains that stand too deep.
* `Formula.exists_ofHeader`: a header in which every run of digits can be read and no chain stands
  too deep has a formula, whatever else stands in it.
-/

namespace Phrasebook
namespace Plural

section Parts

variable {target : Char} {depth : Int} {t front rest part : Text}

theorem eq_of_cutTopLevel? (h : cutTopLevel? target depth t = some (front, rest)) :
    t = front ++ target :: rest := by
  induction t generalizing depth front with
  | nil => cases h
  | cons c t ih =>
      rw [cutTopLevel?] at h
      split at h
      · rename_i hc
        cases h
        rw [hc.1, List.nil_append]
      · obtain ⟨cut, hcut, hpair⟩ := Option.map_eq_some_iff.1 h
        cases hpair
        rw [ih hcut, List.cons_append]

theorem isInfix_of_cutTopLevel? (h : cutTopLevel? target depth t = some (front, rest)) :
    front <:+: t ∧ rest <:+: t := by
  rw [eq_of_cutTopLevel? h]
  exact ⟨(List.prefix_append front _).isInfix,
    ((List.suffix_cons target rest).trans (List.suffix_append front _)).isInfix⟩

theorem isInfix_of_mem_splitTopLevel (h : part ∈ splitTopLevel target depth t) : part <:+: t := by
  induction hn : t.length using Nat.strongRecOn generalizing t depth with
  | ind n ih =>
      rw [splitTopLevel_eq] at h
      cases hcut : cutTopLevel? target depth t with
      | none =>
          rw [hcut] at h
          obtain rfl := List.mem_singleton.1 h
          exact List.infix_rfl
      | some cut =>
          obtain ⟨front, rest⟩ := cut
          rw [hcut] at h
          obtain ⟨hfront, hrest⟩ := isInfix_of_cutTopLevel? hcut
          rcases List.mem_cons.1 h with rfl | hmem
          · exact hfront
          · have hshorter : rest.length < n := by
              have hlength := congrArg List.length (eq_of_cutTopLevel? hcut)
              rw [List.length_append, List.length_cons] at hlength
              omega
            exact (ih rest.length hshorter hmem rfl).trans hrest

theorem isInfix_unwrap (t : Text) : unwrap t <:+: t := by
  have hlast : (t.drop 1).dropLast <+: t.drop 1 := List.dropLast_prefix _
  exact (Text.isInfix_trim _).trans (hlast.isInfix.trans (List.drop_suffix 1 t).isInfix)

theorem isInfix_stripParens (t : Text) : stripParens t <:+: t := by
  induction t using stripParens.induct with
  | case1 t h ih =>
      rw [stripParens, dif_pos h]
      exact ih.trans (isInfix_unwrap t)
  | case2 t h =>
      have hself : stripParens t = t := by rw [stripParens, dif_neg h]
      exact (congrArg (fun s => s <:+: t) hself).mpr List.infix_rfl

theorem isSuffix_of_behindAssignment? {word : Text} (h : behindAssignment? word t = some rest) :
    rest <:+ t := by
  unfold behindAssignment? at h
  split at h
  · split at h
    · rename_i value hvalue
      cases h
      have hblanks : '=' :: rest <:+ t :=
        hvalue ▸ (List.dropWhile_suffix _).trans (List.drop_suffix _ t)
      exact (List.suffix_cons '=' rest).trans hblanks
    · cases h
  · cases h

theorem isSuffix_of_behindPlural? {joined : Bool} (h : behindPlural? joined t = some rest) :
    rest <:+ t := by
  induction t generalizing joined with
  | nil => cases h
  | cons c t ih =>
      rw [behindPlural?] at h
      split at h
      · rename_i value hhere
        cases h
        split at hhere
        · cases hhere
        · exact isSuffix_of_behindAssignment? hhere
      · exact (ih h).trans (List.suffix_cons c t)

theorem isInfix_headerExpression (line : Text) : headerExpression line <:+: line := by
  unfold headerExpression
  cases hassigned : behindPlural? false line with
  | none => exact List.nil_infix
  | some assigned =>
      have hvalue : withoutLineEnd assigned <:+: line :=
        ((Text.isInfix_dropSuffix _ _).trans (Text.isInfix_dropSuffix _ _)).trans
          (isSuffix_of_behindPlural? hassigned).isInfix
      refine (isInfix_stripParens _).trans ((Text.isInfix_trim _).trans ?_)
      cases hcut : cutTopLevel? ';' 0 (withoutLineEnd assigned) with
      | none => exact hvalue
      | some cut => exact (isInfix_of_cutTopLevel? hcut).1.trans hvalue

end Parts

section Numerals

variable {t digits : Text}

/-- The declared number of categories is a run of decimal digits in the header. -/
theorem decimal_of_categoryDigits? (h : categoryDigits? t = some digits) :
    digits <:+: t ∧ Text.allIn isDecimal digits = true := by
  induction t with
  | nil => cases h
  | cons c t ih =>
      rw [categoryDigits?] at h
      split at h
      · rename_i d rest hhere
        cases h
        obtain ⟨value, hvalue, htake⟩ := Option.map_eq_some_iff.1 hhere
        have hleading : d :: rest <+: Text.trimStart value := htake ▸ List.takeWhile_prefix _
        refine ⟨hleading.isInfix.trans ((List.dropWhile_suffix _).isInfix.trans
          (isSuffix_of_behindAssignment? hvalue).isInfix), ?_⟩
        rw [Text.allIn, Bool.and_eq_true]
        exact ⟨rfl, htake ▸ List.all_takeWhile⟩
      · obtain ⟨hpart, hdecimal⟩ := ih h
        exact ⟨hpart.trans (List.suffix_cons c t).isInfix, hdecimal⟩

theorem misreads_of_declaredCategories {e : NumeralError}
    (h : Formula.declaredCategories t = .error e) : Misreads t e := by
  unfold Formula.declaredCategories at h
  cases hdigits : categoryDigits? t with
  | none =>
      rw [hdigits] at h
      cases h
  | some digits =>
      rw [hdigits] at h
      obtain ⟨hpart, hdecimal⟩ := decimal_of_categoryDigits? hdigits
      rw [Text.allIn, Bool.and_eq_true] at hdecimal
      refine ⟨digits, hpart, ?_, map_eq_error_iff.1 h⟩
      rw [Text.allIn, Bool.and_eq_true]
      refine ⟨hdecimal.1, List.all_eq_true.2 fun c hc => ?_⟩
      rw [isDigit, List.all_eq_true.1 hdecimal.2 c hc, Bool.true_or]

theorem misreads_of_branchRules {chainRules : Text → Except RuleError (List Rule)}
    {condition branch : Text} {e : NumeralError}
    (h : branchRules chainRules condition branch = .error (.numeral e))
    (hchain : ∀ chain, chainRules chain = .error (.numeral e) → Misreads chain e) :
    Misreads branch e := by
  have hpart : stripParens (Text.trim branch) <:+: branch :=
    (isInfix_stripParens _).trans (Text.isInfix_trim branch)
  unfold branchRules at h
  simp only at h
  split at h
  · rename_i hdigits
    split at h
    · cases h
    · rename_i d hread
      cases h
      exact ⟨_, hpart, hdigits, hread⟩
  · split at h
    · exact (hchain _ (map_eq_error_iff.1 h)).of_isInfix hpart
    · cases h

/-- A chain whose rules need a number that cannot be read misreads, however deep its chains are
nested. -/
theorem misreads_of_decomposeWithin {calls : Nat} {e : NumeralError}
    (h : decomposeWithin calls t = .error (.numeral e)) : Misreads t e := by
  induction calls generalizing t with
  | zero => cases h
  | succ calls ih =>
      rw [decomposeWithin] at h
      split at h
      · cases h
      · obtain ⟨segment, hsegment, herror⟩ := exists_of_mapM_eq_error (map_eq_error_iff.1 h)
        have hpart : segment <:+: t := isInfix_of_mem_splitTopLevel hsegment
        unfold segmentRules at herror
        split at herror
        · exact (misreads_of_branchRules herror (fun _ => ih)).of_isInfix hpart
        · rename_i condition branch hcut
          have hbranch : branch <:+: t := (isInfix_of_cutTopLevel? hcut).2.trans hpart
          exact (misreads_of_branchRules herror (fun _ => ih)).of_isInfix hbranch

end Numerals

section Depth

variable {calls : Nat} {condition branch chain inner segment t : Text}

/-- The chain in parentheses that a branch is, if it is one. -/
def innerChain? (branch : Text) : Option Text :=
  let value := Text.trim branch
  let inner := stripParens value
  if inner ≠ value ∧ hasTopLevel '?' inner then some inner else none

/-- The condition of a segment, and its branch. -/
def partsOf (segment : Text) : Text × Text :=
  match cutTopLevel? '?' 0 segment with
  | none => ([], segment)
  | some (condition, branch) => (Text.trim condition, branch)

/-- The chains that stand in parentheses for a branch of a chain. -/
def innerChains (chain : Text) : List Text :=
  let segments := splitTopLevel ':' 0 chain
  if segments.length = 1 ∧ !hasTopLevel '?' chain then []
  else segments.filterMap (fun segment => innerChain? (partsOf segment).2)

/-- Do chains stand at least as deep one in the other, below the given one? -/
def NestsChains : Nat → Text → Prop
  | 0, _ => True
  | depth + 1, chain => ∃ inner ∈ innerChains chain, NestsChains depth inner

/-- Rules below a condition, if there is one. -/
def guardRules (condition : Text) (rules : List Rule) : List Rule :=
  if condition.isEmpty then rules else rules.map (Rule.below condition)

theorem innerChain?_eq_some_iff : innerChain? branch = some inner ↔
    stripParens (Text.trim branch) = inner ∧ inner ≠ Text.trim branch ∧
      hasTopLevel '?' inner = true := by
  rw [innerChain?]
  constructor
  · intro h
    split at h
    next hchain =>
      obtain rfl := Option.some.inj h
      exact ⟨rfl, hchain⟩
    next => cases h
  · rintro ⟨rfl, hchain⟩
    exact if_pos hchain

/-- A branch that is a number is no chain. -/
theorem allIn_isDigit_of_hasTopLevel (h : hasTopLevel '?' t = true) :
    Text.allIn isDigit t = false := by
  obtain ⟨⟨front, rest⟩, hcut⟩ := Option.isSome_iff_exists.1 h
  rw [Text.allIn, Bool.and_eq_false_iff, List.all_eq_false, eq_of_cutTopLevel? hcut]
  exact .inr ⟨'?', by simp, by decide⟩

/-- The rules of a branch are those of the chain that it is, below the condition. -/
theorem branchRules_of_innerChain? {chainRules : Text → Except RuleError (List Rule)}
    (h : innerChain? branch = some inner) :
    branchRules chainRules condition branch = (chainRules inner).map (guardRules condition) := by
  obtain ⟨rfl, hne, hmark⟩ := innerChain?_eq_some_iff.1 h
  rw [branchRules]
  simp only [allIn_isDigit_of_hasTopLevel hmark]
  rw [if_neg Bool.false_ne_true, if_pos ⟨hne, hmark⟩]
  rfl

/-- Only a chain in it can make a branch too deep. -/
theorem exists_of_branchRules {chainRules : Text → Except RuleError (List Rule)}
    (h : branchRules chainRules condition branch = .error .nestedTooDeep) :
    ∃ inner, innerChain? branch = some inner ∧ chainRules inner = .error .nestedTooDeep := by
  unfold branchRules at h
  simp only at h
  split at h
  · split at h <;> cases h
  · split at h
    next hchain => exact ⟨_, innerChain?_eq_some_iff.2 ⟨rfl, hchain⟩, map_eq_error_iff.1 h⟩
    next => cases h

theorem segmentRules_eq (chainRules : Text → Except RuleError (List Rule)) (segment : Text) :
    segmentRules chainRules segment =
      branchRules chainRules (partsOf segment).1 (partsOf segment).2 := by
  unfold segmentRules partsOf
  cases cutTopLevel? '?' 0 segment <;> rfl

/-- Calls that go too deep come to chains that stand as deep. -/
theorem nestsChains_of_decomposeWithin (h : decomposeWithin calls t = .error .nestedTooDeep) :
    NestsChains calls t := by
  induction calls generalizing t with
  | zero => trivial
  | succ calls ih =>
      rw [decomposeWithin] at h
      split at h
      next => cases h
      next hbranched =>
        obtain ⟨segment, hsegment, herror⟩ := exists_of_mapM_eq_error (map_eq_error_iff.1 h)
        rw [segmentRules_eq] at herror
        obtain ⟨inner, hinner, hdeep⟩ := exists_of_branchRules herror
        refine ⟨inner, ?_, ih hdeep⟩
        rw [innerChains, if_neg hbranched]
        exact List.mem_filterMap.2 ⟨segment, hsegment, hinner⟩

/-- Where there are rules, no chains stand as deep as the calls may go. -/
theorem not_nestsChains_of_decomposeWithin {rules : List Rule}
    (h : decomposeWithin calls t = .ok rules) : ¬NestsChains calls t := by
  induction calls generalizing t rules with
  | zero => cases h
  | succ calls ih =>
      rintro ⟨inner, hmem, hdeep⟩
      rw [innerChains] at hmem
      rw [decomposeWithin] at h
      split at h
      next hbare =>
        rw [if_pos hbare] at hmem
        cases hmem
      next hbranched =>
        rw [if_neg hbranched] at hmem
        obtain ⟨segment, hsegment, hinner⟩ := List.mem_filterMap.1 hmem
        obtain ⟨lists, hlists, -⟩ := map_eq_ok_iff.1 h
        obtain ⟨answer, hanswer, -⟩ := exists_of_mapM_eq_ok hlists
        have hrules := hanswer segment hsegment
        rw [segmentRules_eq, branchRules_of_innerChain? hinner] at hrules
        obtain ⟨nested, hnested, -⟩ := map_eq_ok_iff.1 hrules
        exact ih hnested hdeep

/-- A branch that is no chain has rules of its own. -/
theorem branchRules_congr {f g : Text → Except RuleError (List Rule)}
    (hfg : ∀ chain, f chain ≠ .error .nestedTooDeep → g chain = f chain)
    (h : branchRules f condition branch ≠ .error .nestedTooDeep) :
    branchRules g condition branch = branchRules f condition branch := by
  cases hinner : innerChain? branch with
  | some inner =>
      rw [branchRules_of_innerChain? hinner] at h ⊢
      rw [branchRules_of_innerChain? hinner, hfg inner]
      exact fun hdeep => h (map_eq_error_iff.2 hdeep)
  | none =>
      have hbare : ¬(stripParens (Text.trim branch) ≠ Text.trim branch ∧
          hasTopLevel '?' (stripParens (Text.trim branch)) = true) := by
        intro hchain
        rw [innerChain?_eq_some_iff.2 ⟨rfl, hchain⟩] at hinner
        cases hinner
      simp only [branchRules, if_neg hbare]

/-- Further calls change nothing where the calls at hand go deep enough. -/
theorem decomposeWithin_add (h : decomposeWithin calls t ≠ .error .nestedTooDeep) (more : Nat) :
    decomposeWithin (calls + more) t = decomposeWithin calls t := by
  induction calls generalizing t with
  | zero => exact absurd rfl h
  | succ calls ih =>
      rw [Nat.succ_add, decomposeWithin, decomposeWithin]
      rw [decomposeWithin] at h
      split at h
      next hbare => rw [if_pos hbare, if_pos hbare]
      next hbranched =>
        rw [if_neg hbranched, if_neg hbranched]
        have hsegments : (splitTopLevel ':' 0 t).mapM (segmentRules (decomposeWithin calls)) ≠
            .error .nestedTooDeep := fun hdeep => h (map_eq_error_iff.2 hdeep)
        rw [mapM_congr_of_ne_error hsegments]
        intro segment hsegment
        rw [segmentRules_eq] at hsegment ⊢
        rw [segmentRules_eq]
        exact branchRules_congr (fun chain hchain => ih hchain) hsegment

/-- The machine goes at least as deep as a hundred chains one in the other. -/
theorem decompose_eq [Machine] {rules : Except RuleError (List Rule)}
    (h : decomposeWithin calls t = rules) (hrules : rules ≠ .error .nestedTooDeep)
    (hcalls : calls ≤ 101) : decompose t = rules := by
  have hdepth := Machine.hundred_le_chainDepth
  obtain ⟨more, hmore⟩ := Nat.exists_eq_add_of_le (show calls ≤ Machine.chainDepth + 1 by omega)
  rw [decompose, hmore, decomposeWithin_add (h ▸ hrules), h]

end Depth

section Results

variable [Machine] {line : Text}

/-- Do chains in the expression of a header stand deeper one in the other than the machine lets
them? -/
def IsTooDeep (line : Text) : Prop :=
  NestsChains (Machine.chainDepth + 1) (headerExpression line)

/-- The formula that an expression gives, by what its rules are. -/
def Formula.ofRules (categories : Option Nat) (expression : Text) :
    Except RuleError (List Rule) → Except FormulaError Formula
  | .ok rules => .ok ⟨rules, categories, expression⟩
  | .error (.notACategory _) => .ok ⟨[], categories, expression⟩
  | .error (.numeral e) => .error (.numeral e)
  | .error .nestedTooDeep => .error .nestedTooDeep

theorem Formula.ofHeader_eq {categories : Option Nat} {core : Text}
    (hcategories : declaredCategories line = .ok categories) (hcore : headerExpression line = core)
    (hne : core ≠ []) :
    ofHeader line = ofRules categories core (decompose core) := by
  have hempty : core.isEmpty = false := List.isEmpty_eq_false_iff.2 hne
  rw [ofHeader, hcategories, hcore]
  refine (if_neg (by simp [hempty])).trans ?_
  cases decompose core with
  | ok rules => rfl
  | error e => cases e <;> rfl

/-- A header without a formula has a number without value or chains that stand too deep: nothing
else can be wrong. -/
theorem Formula.failure_of_ofHeader {failure : FormulaError} (h : ofHeader line = .error failure) :
    (∃ e, failure = .numeral e ∧ Misreads line e) ∨
      failure = .nestedTooDeep ∧ IsTooDeep line := by
  rcases bind_eq_error_iff.1 h with hcategories | ⟨categories, -, hrules⟩
  · obtain ⟨e, he, rfl⟩ := mapError_eq_error_iff.1 hcategories
    exact .inl ⟨e, rfl, misreads_of_declaredCategories he⟩
  · simp only at hrules
    split at hrules
    next => cases hrules
    next =>
      split at hrules
      next => cases hrules
      next => cases hrules
      next e hdecompose =>
        cases hrules
        refine .inl ⟨e, rfl, ?_⟩
        exact (misreads_of_decomposeWithin hdecompose).of_isInfix (isInfix_headerExpression line)
      next hdecompose =>
        cases hrules
        exact .inr ⟨rfl, nestsChains_of_decomposeWithin hdecompose⟩

/-- A legible header whose chains do not stand too deep has a formula. -/
theorem Formula.exists_ofHeader (h : IsLegible line) (hdepth : ¬IsTooDeep line) :
    ∃ formula, Formula.ofHeader line = .ok formula := by
  cases hformula : ofHeader line with
  | ok formula => exact ⟨formula, rfl⟩
  | error failure =>
      rcases failure_of_ofHeader hformula with ⟨e, -, hmisreads⟩ | ⟨-, hdeep⟩
      · exact absurd hmisreads h.not_misreads
      · exact absurd hdeep hdepth

end Results

end Plural
end Phrasebook
