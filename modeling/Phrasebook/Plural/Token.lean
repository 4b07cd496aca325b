import Phrasebook.Text.Blank
import Phrasebook.Text.Digit
import Phrasebook.Text.Quoted

/-!
# Tokens of plural expressions

The language of plural expressions has numbers, the quantity `n`, parentheses and the
operators of C that yield whole numbers or truth values.

**Reading.**  `Lexeme.read?` takes the longest lexeme at the head of a text.  `tokenize` takes
all of them, passes over blanks, and keeps the position of each in the text.
-/

namespace Phrasebook
namespace Plural

/-- The operators with two operands. -/
inductive BinaryOp
  | or | and | eq | ne | lt | le | gt | ge | add | sub | mul | div | mod
deriving DecidableEq, Repr

/-- How an operator is written. -/
def BinaryOp.toText : BinaryOp → Text
  | .or => ['|', '|']
  | .and => ['&', '&']
  | .eq => ['=', '=']
  | .ne => ['!', '=']
  | .lt => ['<']
  | .le => ['<', '=']
  | .gt => ['>']
  | .ge => ['>', '=']
  | .add => ['+']
  | .sub => ['-']
  | .mul => ['*']
  | .div => ['/']
  | .mod => ['%']

/-- How tightly an operator binds, from 1 to 6. -/
def BinaryOp.level : BinaryOp → Nat
  | .or => 1
  | .and => 2
  | .eq | .ne => 3
  | .lt | .le | .gt | .ge => 4
  | .add | .sub => 5
  | .mul | .div | .mod => 6

/-- The words of the language. -/
inductive Lexeme
  | number (digits : Text)
  | quantity
  | openParen
  | closeParen
  | binary (op : BinaryOp)
  | negation
  | question
  | colon
deriving DecidableEq, Repr

/-- How a lexeme is written. -/
def Lexeme.toText : Lexeme → Text
  | .number digits => digits
  | .quantity => ['n']
  | .openParen => ['(']
  | .closeParen => [')']
  | .binary op => op.toText
  | .negation => ['!']
  | .question => ['?']
  | .colon => [':']

/-- A lexeme and the position of its first character. -/
structure Token where
  lexeme : Lexeme
  position : Nat
deriving DecidableEq, Repr

/-- What is wrong with a plural expression; `found` is the token at which it is noticed, or
nothing at the end. -/
inductive SyntaxFault
  | tooLong (length : Nat)
  | invalidCharacter (c : Char) (position : Nat)
  | empty
  | unexpectedToken (token : Token)
  | unexpectedEnd
  | expectedColon (found : Option Token)
  | expectedClose (found : Option Token)
  | tooDeep (found : Option Token)
  | notACategory
deriving DecidableEq, Repr

/-- Is the character a letter of ASCII, a digit or an underscore? -/
def isWordChar (c : Char) : Bool :=
  c.isAlphanum || c == '_'

/-- The lexeme that one character makes together with the rest of the text, and what is left. -/
def Lexeme.ofSymbol? (c : Char) (rest : Text) : Option (Lexeme × Text) :=
  match c, rest with
  | '(', _ => some (.openParen, rest)
  | ')', _ => some (.closeParen, rest)
  | '?', _ => some (.question, rest)
  | ':', _ => some (.colon, rest)
  | '+', _ => some (.binary .add, rest)
  | '-', _ => some (.binary .sub, rest)
  | '*', _ => some (.binary .mul, rest)
  | '/', _ => some (.binary .div, rest)
  | '%', _ => some (.binary .mod, rest)
  | '|', '|' :: rest => some (.binary .or, rest)
  | '&', '&' :: rest => some (.binary .and, rest)
  | '=', '=' :: rest => some (.binary .eq, rest)
  | '!', '=' :: rest => some (.binary .ne, rest)
  | '<', '=' :: rest => some (.binary .le, rest)
  | '>', '=' :: rest => some (.binary .ge, rest)
  | '!', _ => some (.negation, rest)
  | '<', _ => some (.binary .lt, rest)
  | '>', _ => some (.binary .gt, rest)
  | _, _ => none

/-- The longest lexeme at the head of a text and what is left behind it. -/
def Lexeme.read? (c : Char) (rest : Text) : Option (Lexeme × Text) :=
  if isAsciiDigit c then
    some (.number (c :: rest.takeWhile isAsciiDigit), rest.dropWhile isAsciiDigit)
  else if c = 'n' then
    if rest.head?.any isWordChar then none else some (.quantity, rest)
  else Lexeme.ofSymbol? c rest

theorem Lexeme.ofSymbol?_append {c : Char} {rest left : Text} {l : Lexeme}
    (h : Lexeme.ofSymbol? c rest = some (l, left)) : l.toText ++ left = c :: rest := by
  unfold Lexeme.ofSymbol? at h
  split at h <;> first
    | (cases h; rfl)
    | cases h

/-- A lexeme is what was read in front of what is left. -/
theorem Lexeme.read?_append {c : Char} {rest left : Text} {l : Lexeme}
    (h : Lexeme.read? c rest = some (l, left)) : l.toText ++ left = c :: rest := by
  unfold Lexeme.read? at h
  split at h
  · cases h
    simp [Lexeme.toText, List.takeWhile_append_dropWhile]
  · split at h
    · rename_i hn
      split at h
      · cases h
      · cases h
        simp [Lexeme.toText, hn]
    · exact Lexeme.ofSymbol?_append h

theorem Lexeme.length_read?_le {c : Char} {rest left : Text} {l : Lexeme}
    (h : Lexeme.read? c rest = some (l, left)) : left.length ≤ rest.length := by
  unfold Lexeme.read? at h
  split at h
  · cases h
    exact (List.dropWhile_sublist _).length_le
  · split at h
    · split at h
      · cases h
      · cases h
        exact Nat.le_refl _
    · unfold Lexeme.ofSymbol? at h
      split at h <;> first
        | (cases h; simp)
        | cases h

/-- The tokens of the rest of a text of `total` characters. -/
def tokensFrom (total : Nat) : Text → Except SyntaxFault (List Token)
  | [] => .ok []
  | c :: rest =>
      if isBlank c then tokensFrom total rest
      else
        match h : Lexeme.read? c rest with
        | none => .error (.invalidCharacter c (total - (rest.length + 1)))
        | some (lexeme, left) =>
            (tokensFrom total left).map (⟨lexeme, total - (rest.length + 1)⟩ :: ·)
termination_by t => t.length
decreasing_by
  · exact Nat.lt_succ_self _
  · exact Nat.lt_succ_of_le (Lexeme.length_read?_le h)

/-- The tokens of a text. -/
def tokenize (source : Text) : Except SyntaxFault (List Token) :=
  tokensFrom source.length source

end Plural
end Phrasebook
