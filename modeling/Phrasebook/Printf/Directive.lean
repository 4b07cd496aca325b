import Phrasebook.Text.Digit

/-!
# Directives

A template is a sequence of literal characters and directives.  A directive is a percent
sign, then optionally the number of an argument and a dollar sign, then flags, a width and a
precision, and last a letter or a second percent sign that names the conversion.

**Reading.**  `Piece.ofText` takes directives from left to right; a percent sign that begins
none is a literal character.
**Writing.**  `Piece.toText` gives back what was read (`text_ofText`).
-/

namespace Phrasebook
namespace Printf

/-- A directive: the digits of its argument number, what stands between them and the
conversion, and the conversion. -/
structure Directive where
  index : Option Text
  modifiers : Text
  conversion : Char
deriving DecidableEq, Repr

/-- A directive behind its percent sign and argument number. -/
def Directive.spec (d : Directive) : Text :=
  d.modifiers ++ [d.conversion]

/-- A directive as it stands in a template. -/
def Directive.toText (d : Directive) : Text :=
  match d.index with
  | none => '%' :: d.spec
  | some digits => '%' :: digits ++ '$' :: d.spec

/-- A part of a template. -/
inductive Piece
  | literal (c : Char)
  | directive (d : Directive)
deriving DecidableEq, Repr

/-- A piece as it stands in a template. -/
def Piece.toText : Piece → Text
  | .literal c => [c]
  | .directive d => d.toText

/-- Is the character a flag? -/
def isFlag (c : Char) : Bool :=
  c == '-' || c == '#' || c == '0' || c == ' ' || c == '+'

/-- Can the character name a conversion? -/
def isConversion (c : Char) : Bool :=
  c.isAlpha || c == '%'

/-- The number of an argument at the head of a text: its digits and the rest behind the
dollar sign. -/
def indexOf? (t : Text) : Option (Text × Text) :=
  match t.dropWhile isAsciiDigit with
  | '$' :: rest =>
      match t.takeWhile isAsciiDigit with
      | [] => none
      | first :: more => if first = '0' then none else some (first :: more, rest)
  | _ => none

/-- A precision at the head of a text, its point included, and the rest; it may be empty. -/
def precisionOf (t : Text) : Text × Text :=
  match t with
  | '.' :: rest =>
      if (rest.takeWhile isAsciiDigit).isEmpty then ([], t)
      else ('.' :: rest.takeWhile isAsciiDigit, rest.dropWhile isAsciiDigit)
  | _ => ([], t)

/-- A directive without argument number at the head of a text, and the rest. -/
def specOf? (index : Option Text) (t : Text) : Option (Directive × Text) :=
  let flags := t.takeWhile isFlag
  let unflagged := t.dropWhile isFlag
  let width := unflagged.takeWhile isAsciiDigit
  let precision := precisionOf (unflagged.dropWhile isAsciiDigit)
  match precision.2 with
  | c :: rest =>
      if isConversion c then some (⟨index, flags ++ width ++ precision.1, c⟩, rest) else none
  | [] => none

/-- A directive behind its percent sign at the head of a text, and the rest. -/
def Directive.ofText? (t : Text) : Option (Directive × Text) :=
  match indexOf? t with
  | some (digits, rest) => specOf? (some digits) rest
  | none => specOf? none t

theorem precisionOf_append (t : Text) : (precisionOf t).1 ++ (precisionOf t).2 = t := by
  unfold precisionOf
  split
  · split <;> simp
  · simp

/-- A directive without argument number is what was read in front of the rest. -/
theorem specOf?_append {index : Option Text} {t rest : Text} {d : Directive}
    (h : specOf? index t = some (d, rest)) : d.index = index ∧ d.spec ++ rest = t := by
  unfold specOf? at h
  simp only at h
  split at h
  · rename_i c behind hp
    split at h
    · cases h
      refine ⟨rfl, ?_⟩
      have h3 := precisionOf_append ((t.dropWhile isFlag).dropWhile isAsciiDigit)
      rw [hp] at h3
      simp only [Directive.spec, List.append_assoc, List.singleton_append]
      rw [h3, List.takeWhile_append_dropWhile, List.takeWhile_append_dropWhile]
    · cases h
  · cases h

theorem indexOf?_append {t digits rest : Text} (h : indexOf? t = some (digits, rest)) :
    digits ++ '$' :: rest = t := by
  unfold indexOf? at h
  have hs := List.takeWhile_append_dropWhile (p := isAsciiDigit) (l := t)
  split at h
  · rename_i behind heq
    rw [heq] at hs
    split at h
    · cases h
    · rename_i first more hd
      rw [hd] at hs
      split at h
      · cases h
      · cases h
        exact hs
  · cases h

/-- A directive is what was read in front of the rest. -/
theorem Directive.toText_ofText? {t rest : Text} {d : Directive}
    (h : Directive.ofText? t = some (d, rest)) : d.toText ++ rest = '%' :: t := by
  unfold Directive.ofText? at h
  split at h
  · rename_i digits behind hi
    obtain ⟨hindex, hspec⟩ := specOf?_append h
    have := indexOf?_append hi
    simp [Directive.toText, hindex, hspec, this]
  · obtain ⟨hindex, hspec⟩ := specOf?_append h
    simp [Directive.toText, hindex, hspec]

/-- What a directive leaves is shorter than what it was read from. -/
theorem Directive.length_rest_le {t rest : Text} {d : Directive}
    (h : Directive.ofText? t = some (d, rest)) : rest.length ≤ t.length := by
  have := congrArg List.length (Directive.toText_ofText? h)
  have hpos : 1 ≤ d.toText.length := by
    unfold Directive.toText
    split <;> simp
  simp at this
  omega

/-- The pieces of a template. -/
def Piece.ofText : Text → List Piece
  | [] => []
  | c :: t =>
      if c = '%' then
        match _h : Directive.ofText? t with
        | some (d, rest) => .directive d :: Piece.ofText rest
        | none => .literal c :: Piece.ofText t
      else .literal c :: Piece.ofText t
termination_by t => t.length
decreasing_by
  · exact Nat.lt_succ_of_le (Directive.length_rest_le _h)
  · exact Nat.lt_succ_self _
  · exact Nat.lt_succ_self _

/-- The pieces of a template make up the template. -/
theorem text_ofText (t : Text) : (Piece.ofText t).flatMap Piece.toText = t := by
  fun_induction Piece.ofText t with
  | case1 => rfl
  | case2 t d rest h ih => simp [Piece.toText, ih, Directive.toText_ofText? h]
  | case3 t _ ih => simp [Piece.toText, ih]
  | case4 c t hc ih => simp [Piece.toText, ih]

end Printf
end Phrasebook
