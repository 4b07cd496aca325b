import Phrasebook.Text.Blank

/-!
# Nesting

Parts of a text outside all parentheses.  `cutTopLevel?` and `splitTopLevel` cut a text at
characters that stand outside parentheses, and `stripParens` takes away the pairs of
parentheses that surround a whole text.  A closing parenthesis too many counts as depth
below zero, where nothing is cut.
-/

namespace Phrasebook
namespace Plural

/-- The depth behind a character. -/
def depthAfter (depth : Int) (c : Char) : Int :=
  if c = '(' then depth + 1 else if c = ')' then depth - 1 else depth

/-- The parts in front of and behind the first occurrence of a character at depth zero; the
text itself begins at the given depth. -/
def cutTopLevel? (target : Char) (depth : Int) : Text → Option (Text × Text)
  | [] => none
  | c :: rest =>
      if c = target ∧ c ≠ '(' ∧ c ≠ ')' ∧ depth = 0 then some ([], rest)
      else (cutTopLevel? target (depthAfter depth c) rest).map (fun p => (c :: p.1, p.2))

/-- Does the character occur outside parentheses? -/
def hasTopLevel (target : Char) (t : Text) : Bool :=
  (cutTopLevel? target 0 t).isSome

/-- The parts between the occurrences of a character at depth zero; never an empty list. -/
def splitTopLevel (target : Char) (depth : Int) : Text → List Text
  | [] => [[]]
  | c :: rest =>
      if c = target ∧ c ≠ '(' ∧ c ≠ ')' ∧ depth = 0 then [] :: splitTopLevel target 0 rest
      else
        match splitTopLevel target (depthAfter depth c) rest with
        | [] => [[c]]
        | part :: parts => (c :: part) :: parts

/-- Is the parenthesis that is open at the given depth closed by the last character, and by
none in front of it? -/
def closesAtEnd (depth : Nat) : Text → Bool
  | [] => depth == 0
  | c :: rest =>
      if c = '(' then closesAtEnd (depth + 1) rest
      else if c = ')' then
        if depth = 1 ∧ !rest.isEmpty then false else closesAtEnd (depth - 1) rest
      else closesAtEnd depth rest

/-- Does one pair of parentheses surround the whole text? -/
def isWrapped (t : Text) : Bool :=
  t.head? == some '(' && t.getLast? == some ')' && closesAtEnd 0 t

/-- The text between its first and its last character, without blanks at its ends. -/
def unwrap (t : Text) : Text :=
  Text.trim (t.drop 1).dropLast

theorem length_unwrap_lt {t : Text} (h : isWrapped t = true) :
    (unwrap t).length < t.length := by
  cases t with
  | nil => simp [isWrapped] at h
  | cons c rest =>
      have := Text.length_trim_le (((c :: rest).drop 1).dropLast)
      simp only [List.drop_succ_cons, List.drop_zero, List.length_dropLast] at this
      simp only [unwrap, List.drop_succ_cons, List.drop_zero, List.length_cons]
      omega

/-- The text without the pairs of parentheses that surround all of it. -/
def stripParens (t : Text) : Text :=
  if _h : isWrapped t = true then stripParens (unwrap t) else t
termination_by t.length
decreasing_by exact length_unwrap_lt _h

end Plural
end Phrasebook
