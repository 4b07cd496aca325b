import Phrasebook.Plural.Parse
import Phrasebook.Plural.Rule

/-!
# Plural formulas

A formula selects the category of a quantity.  It is read from a header field such as
`nplurals=3; plural=(n==0 ? 0 : n==1 ? 1 : 2);`.

**Reading.**  `Formula.ofHeader` takes the number of categories and the text behind `plural=`,
up to the first semicolon outside parentheses.  A text that is no chain of rules leaves a
formula without rules.  Nothing is read from a number that has no value or from chains that stand
too deep one in the other.
**Selecting.**  `Formula.evaluate` takes the first rule whose condition holds, else the last
default that was passed, else 0.  A condition that is no expression, or that divides by zero,
selects 0.
-/

namespace Phrasebook
namespace Plural

/-- Rules in order, the declared number of categories, and the text of the expression. -/
structure Formula where
  rules : List Rule
  categories : Option Nat
  expression : Text
deriving DecidableEq, Repr

section Header

/-- The text behind a word, blanks and an equals sign at its head. -/
def behindAssignment? (word t : Text) : Option Text :=
  if t.startsWith word then
    match Text.trimStart (t.drop word.length) with
    | '=' :: rest => some rest
    | _ => none
  else none

/-- The digits of the declared number of categories, from the first place that has some. -/
def categoryDigits? : Text → Option Text
  | [] => none
  | c :: rest =>
      let here :=
        (behindAssignment? "nplurals".toList (c :: rest)).map
          (fun t => (Text.trimStart t).takeWhile isDecimal)
      match here with
      | some (d :: digits) => some (d :: digits)
      | _ => categoryDigits? rest

/-- Can a word go on behind the character? -/
def joinsWord (c : Char) : Bool :=
  c.isAlpha || c == '_'

/-- The text behind the first assignment to `plural`; `joined` says whether the text in front
ends in a letter or an underscore. -/
def behindPlural? (joined : Bool) : Text → Option Text
  | [] => none
  | c :: rest =>
      let here := if joined then none else behindAssignment? "plural".toList (c :: rest)
      match here with
      | some t => some t
      | none => behindPlural? (joinsWord c) rest

/-- A header line without the quote and the escaped line feed that may end it. -/
def withoutLineEnd (t : Text) : Text :=
  Text.dropSuffix (Text.dropSuffix t ['"']) ['\\', 'n']

/-- The expression that a header line assigns to `plural`, or nothing. -/
def headerExpression (line : Text) : Text :=
  match behindPlural? false line with
  | none => []
  | some assigned =>
      let value := withoutLineEnd assigned
      let value :=
        match cutTopLevel? ';' 0 value with
        | some (front, _) => front
        | none => value
      stripParens (Text.trim value)

end Header

/-- Why no formula can be read. -/
inductive FormulaError
  | numeral (e : NumeralError)
  | nestedTooDeep
deriving DecidableEq, Repr

/-- The words for an error, unless the system words it. -/
def FormulaError.message? : FormulaError → Option String
  | .numeral e => some e.message
  | .nestedTooDeep => none

namespace Formula

variable [Machine]

/-- The formula without rules. -/
def empty : Formula :=
  ⟨[], none, []⟩

/-- The number of categories that a header line declares. -/
def declaredCategories (line : Text) : Except NumeralError (Option Nat) :=
  match categoryDigits? line with
  | none => .ok none
  | some digits => (readNumeral digits).map some

/-- The formula of a header line, quoted or bare. -/
def ofHeader (line : Text) : Except FormulaError Formula := do
  let categories ← (declaredCategories line).mapError .numeral
  let expression := headerExpression line
  if expression.isEmpty then pure ⟨[], categories, []⟩
  else
    match decompose expression with
    | .ok rules => pure ⟨rules, categories, expression⟩
    | .error (.notACategory _) => pure ⟨[], categories, expression⟩
    | .error (.numeral e) => throw (.numeral e)
    | .error .nestedTooDeep => throw .nestedTooDeep

/-- The header value of an expression with a declared number of categories. -/
def headerValue (expression : Text) (categories : Option Int) : Text :=
  let assignment := "plural=".toList ++ expression ++ [';']
  match categories with
  | none => assignment
  | some k => "nplurals=".toList ++ integerText k ++ ';' :: ' ' :: assignment

/-- The formula of a bare expression. -/
def ofExpression (expression : Text) (categories : Option Int) : Except FormulaError Formula :=
  ofHeader (headerValue expression categories)

/-- The category that rules select for a quantity when no condition so far has held. -/
def select (n : Int) : List Rule → Nat → Except NumeralError Nat
  | [], default => .ok default
  | rule :: rules, default =>
      if rule.isDefault then select n rules rule.index
      else
        match compile rule.condition with
        | .error _ => .ok 0
        | .ok condition =>
            match condition.test n with
            | .error (.divisionByZero ..) => .ok 0
            | .error (.numeral e) => .error e
            | .ok true => .ok rule.index
            | .ok false => select n rules default

/-- The category of a quantity. -/
def evaluate (f : Formula) (n : Int) : Except NumeralError Nat :=
  select n f.rules 0

end Formula

end Plural
end Phrasebook
