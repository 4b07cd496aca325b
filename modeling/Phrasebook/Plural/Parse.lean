import Phrasebook.Plural.Expr

/-!
# Reading plural expressions

An expression is a condition, or a condition with a question mark and two branches.  A
condition has six levels of binary operators, each of which groups to the left; below them
stand negations, numbers, the quantity and expressions in parentheses.

**Goals.**  `Goal` names what is to be read next.  `Goal.parse` reads it from the head of a
list of tokens and gives back what is left.  A chain is what follows the first operand of a
level: the operators that bind at least as tightly as asked for, with their right operands.
**Depth.**  Parentheses, operands of a negation and branches may be nested `maxDepth` deep; a
goal is read with the number of levels that are left.
**Fuel.**  Between two tokens a reading passes through at most four goals, so that
`4 * tokens.length + 5` steps always suffice.
**Blame.**  What goes wrong is reported with the text of the expression: a `SyntaxError` when it
is read, an `EvalFailure` when it is evaluated.
-/

namespace Phrasebook
namespace Plural

/-- How deep parentheses, negations and branches may be nested. -/
def maxDepth : Nat := 100

/-- How many characters an expression may have. -/
def maxLength : Nat := 1000

/-- What is to be read. -/
inductive Goal
  | expression
  | level (min : Nat)
  | chain (min : Nat) (left : Expr)
  | unary
  | primary
deriving DecidableEq, Repr

/-- How many levels are left one level deeper; that there is none is noticed at the given
tokens. -/
def deeper (room : Nat) (tokens : List Token) : Except SyntaxFault Nat :=
  match room with
  | 0 => .error (.tooDeep tokens.head?)
  | inner + 1 => .ok inner

/-- Reads a goal from the head of the tokens, with as many levels of nesting as there is room
for. -/
def Goal.parse : Nat → Goal → Nat → List Token → Except SyntaxFault (Expr × List Token)
  | 0, _, _, _ => .error .unexpectedEnd
  | fuel + 1, .expression, room, tokens => do
      let (test, rest) ← parse fuel (.level 1) room tokens
      match rest with
      | ⟨.question, _⟩ :: rest =>
          let inner ← deeper room rest
          let (ifTrue, rest) ← parse fuel .expression inner rest
          match rest with
          | ⟨.colon, _⟩ :: rest =>
              let (ifFalse, rest) ← parse fuel .expression inner rest
              pure (.conditional test ifTrue ifFalse, rest)
          | _ => throw (.expectedColon rest.head?)
      | _ => pure (test, rest)
  | fuel + 1, .level min, room, tokens => do
      let (left, rest) ← parse fuel .unary room tokens
      parse fuel (.chain min left) room rest
  | fuel + 1, .chain min left, room, tokens =>
      match tokens with
      | ⟨.binary op, _⟩ :: rest =>
          if op.level < min then .ok (left, tokens)
          else do
            let (right, rest) ← parse fuel (.level (op.level + 1)) room rest
            parse fuel (.chain min (.binary op left right)) room rest
      | _ => .ok (left, tokens)
  | fuel + 1, .unary, room, tokens =>
      match tokens with
      | ⟨.negation, _⟩ :: rest => do
          let inner ← deeper room rest
          let (operand, rest) ← parse fuel .unary inner rest
          pure (.negation operand, rest)
      | _ => parse fuel .primary room tokens
  | fuel + 1, .primary, room, tokens =>
      match tokens with
      | [] => .error .unexpectedEnd
      | ⟨.number digits, _⟩ :: rest => .ok (.number (Nat.ofDigitChars 10 digits 0), rest)
      | ⟨.quantity, _⟩ :: rest => .ok (.quantity, rest)
      | ⟨.openParen, _⟩ :: rest => do
          let inner ← deeper room rest
          let (e, rest) ← parse fuel .expression inner rest
          match rest with
          | ⟨.closeParen, _⟩ :: rest => pure (e, rest)
          | _ => throw (.expectedClose rest.head?)
      | token :: _ => .error (.unexpectedToken token)

/-- The expression that a list of tokens makes up. -/
def parseTokens (tokens : List Token) : Except SyntaxFault Expr :=
  if tokens.isEmpty then .error .empty
  else do
    let (e, rest) ← Goal.parse (4 * tokens.length + 5) .expression maxDepth tokens
    match rest with
    | [] => pure e
    | token :: _ => throw (.unexpectedToken token)

/-- A fault in the text of an expression. -/
structure SyntaxError where
  fault : SyntaxFault
  source : Text
deriving DecidableEq, Repr

namespace SyntaxError

/-- The text that is blamed: the expression, or the beginning of a long one. -/
def expression (e : SyntaxError) : Text :=
  match e.fault with
  | .tooLong _ => e.source.take 50
  | _ => e.source

/-- A fault that is noticed at a token or at the end. -/
def located (what : String) (found : Option Token) (source : Text) : String :=
  let shown := String.ofList (Text.quoted source)
  match found with
  | none => s!"{what} at end of expression in {shown}"
  | some token =>
      let position := token.position
      s!"{what} at position {position} in {shown}"

/-- The words for a fault. -/
def message (e : SyntaxError) : String :=
  let shown := String.ofList (Text.quoted e.source)
  match e.fault with
  | .tooLong length =>
      s!"Plural expression is too long ({length} > {maxLength} characters)"
  | .invalidCharacter c position =>
      let bad := String.ofList (Text.quoted [c])
      s!"Invalid character {bad} at position {position} in {shown}"
  | .empty => located "Empty expression" none e.source
  | .unexpectedToken token =>
      let bad := String.ofList (Text.quoted token.lexeme.toText)
      located s!"Unexpected token {bad}" (some token) e.source
  | .unexpectedEnd => located "Unexpected end of expression" none e.source
  | .expectedColon found => located "Expected ':' in conditional" found e.source
  | .expectedClose found => located "Expected ')'" found e.source
  | .tooDeep found => located s!"Expression nesting exceeds {maxDepth} levels" found e.source
  | .notACategory => s!"Plural branch value is not a category index: {shown}"

end SyntaxError

/-- An error in the value of an expression that was read from a text. -/
structure EvalFailure where
  error : EvalError
  source : Text
deriving DecidableEq, Repr

namespace EvalFailure

/-- The text that is blamed: an expression that divides by zero.  A number that cannot be written
is no fault of the expression. -/
def expression? (f : EvalFailure) : Option Text :=
  match f.error with
  | .divisionByZero .. => some f.source
  | .numeral _ => none

/-- The words for a failure. -/
def message (f : EvalFailure) : String :=
  f.error.message

end EvalFailure

/-- An expression together with the text that it was read from. -/
structure Compiled where
  source : Text
  tree : Expr
deriving DecidableEq, Repr

/-- Reads a text as a plural expression. -/
def compile (source : Text) : Except SyntaxError Compiled :=
  if maxLength < source.length then .error ⟨.tooLong source.length, source⟩
  else
    match tokenize source with
    | .error fault => .error ⟨fault, source⟩
    | .ok tokens =>
        match parseTokens tokens with
        | .error fault => .error ⟨fault, source⟩
        | .ok tree => .ok ⟨source, tree⟩

namespace Compiled

/-- The value of the expression for a quantity. -/
def evaluate (c : Compiled) (n : Int) : Except EvalError Int :=
  c.tree.evaluate n

/-- The value of the expression for a quantity; a failure knows the text of the expression. -/
def value (c : Compiled) (n : Int) : Except EvalFailure Int :=
  (c.evaluate n).mapError fun e => ⟨e, c.source⟩

/-- The value of the expression for a quantity, as a truth value. -/
def test (c : Compiled) (n : Int) : Except EvalError Bool :=
  (c.evaluate n).map (fun value => value != 0)

/-- Were both expressions read from the same text? -/
def sameSource (c d : Compiled) : Bool :=
  c.source == d.source

end Compiled

end Plural
end Phrasebook
