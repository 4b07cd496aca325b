/-!
# Texts

A *text* is a list of characters.  Keys, templates, lines of a file, paths and locale
identifiers are all texts, so that every function on them is a recursion over a list.

**Cutting.**  `Text.before` and `Text.after?` cut a text at the first occurrence of a
character, `Text.splitOn` at every occurrence.  `Text.dropSuffix` takes one ending away.
-/

namespace Phrasebook

/-- A text is a list of characters. -/
abbrev Text := List Char

namespace Text

section Cutting

/-- Does the text begin with the given one? -/
def startsWith (t start : Text) : Bool :=
  start.isPrefixOf t

/-- Does the text end with the given one? -/
def endsWith (t ending : Text) : Bool :=
  ending.isSuffixOf t

/-- The text without the given ending; a text that ends differently is unchanged. -/
def dropSuffix (t ending : Text) : Text :=
  if t.endsWith ending then t.take (t.length - ending.length) else t

/-- The part in front of the first occurrence of a character, or the whole text. -/
def before (c : Char) (t : Text) : Text :=
  t.takeWhile (fun x => x != c)

/-- The part behind the first occurrence of a character, if it occurs. -/
def after? (c : Char) : Text → Option Text
  | [] => none
  | x :: rest => if x = c then some rest else after? c rest

/-- The part in front of the last occurrence of a character, if it occurs. -/
def beforeLast? (c : Char) : Text → Option Text
  | [] => none
  | x :: rest =>
      match beforeLast? c rest with
      | some front => some (x :: front)
      | none => if x = c then some [] else none

/-- The parts of a text between the occurrences of a character; never an empty list. -/
def splitOn (c : Char) : Text → List Text
  | [] => [[]]
  | x :: rest =>
      if x = c then [] :: splitOn c rest
      else
        match splitOn c rest with
        | [] => [[x]]
        | part :: parts => (x :: part) :: parts

theorem splitOn_ne_nil (c : Char) (t : Text) : splitOn c t ≠ [] := by
  induction t with
  | nil => simp [splitOn]
  | cons x rest ih =>
      by_cases h : x = c
      · simp [splitOn, h]
      · cases hs : splitOn c rest <;> simp [splitOn, h, hs]

/-- The text without the given character at either end. -/
def trimChar (c : Char) (t : Text) : Text :=
  ((t.dropWhile (· == c)).reverse.dropWhile (· == c)).reverse

/-- The text without the given character at its end. -/
def trimCharEnd (c : Char) (t : Text) : Text :=
  (t.reverse.dropWhile (· == c)).reverse

/-- Every occurrence of one character replaced by another. -/
def replaceChar (old new : Char) (t : Text) : Text :=
  t.map (fun x => if x = old then new else x)

end Cutting

/-- The word for a truth value. -/
def ofTruth (b : Bool) : Text :=
  if b then "True".toList else "False".toList

section Decisions

/-- Is every character of a text that has at least one in the class? -/
def allIn (p : Char → Bool) (t : Text) : Bool :=
  !t.isEmpty && t.all p

/-- Order of texts by their code points, as a decision. -/
def le : Text → Text → Bool
  | [], _ => true
  | _ :: _, [] => false
  | x :: xs, y :: ys => if x = y then le xs ys else decide (x.toNat < y.toNat)

end Decisions

end Text

end Phrasebook
