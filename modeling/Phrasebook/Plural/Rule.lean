import Phrasebook.Machine
import Phrasebook.Number.Numeral
import Phrasebook.Plural.Nesting

/-!
# Plural rules

A chain `c0 ? i0 : c1 ? i1 : ... : iN` is a list of rules, each with a condition and the index
of a category; the last one has no condition.  `decompose` finds them in the text of the
chain by cutting it outside parentheses.

**Bare conditions.**  An expression without branches is one rule for the category 1.
**Nested chains.**  A branch in parentheses may be a chain again: its conditions hold together
with the condition in front of it.  Every chain in a chain is a call in a call, and the machine
bounds how deep these may stand.
-/

namespace Phrasebook
namespace Plural

/-- A condition and the category that it selects; a blank condition is the default. -/
structure Rule where
  condition : Text
  index : Nat
deriving DecidableEq, Repr

/-- Does the rule apply when no condition holds? -/
def Rule.isDefault (r : Rule) : Bool :=
  (Text.trim r.condition).isEmpty

/-- Why a text is no chain of rules. -/
inductive RuleError
  | notACategory (value : Text)
  | numeral (e : NumeralError)
  | nestedTooDeep
deriving DecidableEq, Repr

/-- A rule of a nested chain below the condition in front of the chain. -/
def Rule.below (condition : Text) (r : Rule) : Rule :=
  if r.isDefault then ⟨condition, r.index⟩
  else ⟨'(' :: condition ++ ") && (".toList ++ r.condition ++ [')'], r.index⟩

/-- The rules of a branch behind a condition, given the rules of the chains in it. -/
def branchRules (chainRules : Text → Except RuleError (List Rule)) (condition branch : Text) :
    Except RuleError (List Rule) :=
  let value := Text.trim branch
  let inner := stripParens value
  if inner.allIn isDigit then
    match readNumeral inner with
    | .ok index => .ok [⟨condition, index⟩]
    | .error e => .error (.numeral e)
  else if inner ≠ value ∧ hasTopLevel '?' inner then
    (chainRules inner).map fun nested =>
      if condition.isEmpty then nested else nested.map (Rule.below condition)
  else .error (.notACategory value)

/-- The rules of one segment of a chain. -/
def segmentRules (chainRules : Text → Except RuleError (List Rule)) (segment : Text) :
    Except RuleError (List Rule) :=
  match cutTopLevel? '?' 0 segment with
  | none => branchRules chainRules [] segment
  | some (condition, branch) => branchRules chainRules (Text.trim condition) branch

/-- The rules of a chain by at most `calls` calls one in the other. -/
def decomposeWithin : Nat → Text → Except RuleError (List Rule)
  | 0, _ => .error .nestedTooDeep
  | calls + 1, chain =>
      let segments := splitTopLevel ':' 0 chain
      if segments.length = 1 ∧ !hasTopLevel '?' chain then .ok [⟨Text.trim chain, 1⟩]
      else (segments.mapM (segmentRules (decomposeWithin calls))).map List.flatten

/-- The rules of a chain.  Chains in it may stand as deep as the machine lets them. -/
def decompose [Machine] (chain : Text) : Except RuleError (List Rule) :=
  decomposeWithin (Machine.chainDepth + 1) chain

end Plural
end Phrasebook
