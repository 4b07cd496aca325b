import Phrasebook.Printf.Conversion

/-!
# Formats

A format is a text whose percent signs begin fields.  Behind the percent sign stand flags, a
width, a precision, a length letter that means nothing, and the conversion; a width or a
precision may be a star, which takes its number from the arguments.

**Reading.**  `Item.ofText` reads a format into its items without looking at arguments.  What
is wrong with a field stays in its item, because an earlier field may fail first.
**Applying.**  `Format.apply` goes through the items from left to right, and every argument
has to be used.
-/

namespace Phrasebook
namespace Printf

/-- A width or precision as a format gives it. -/
inductive Size
  | absent
  | fixed (n : Nat)
  | fromArgument
  | tooBig
deriving DecidableEq, Repr

/-- A field as a format gives it; the conversion is missing if the format ends too early. -/
structure FieldSpec where
  flags : Text
  width : Size
  precision : Size
  conversion : Option (Char × Nat)
deriving DecidableEq, Repr

/-- A part of a format. -/
inductive Item
  | literal (c : Char)
  | named
  | field (spec : FieldSpec)
deriving DecidableEq, Repr

section Reading

/-- The greatest width of a field. -/
def widthLimit : Nat := Nat.pow 2 63 - 1

/-- The greatest precision of a field. -/
def precisionLimit : Nat := Nat.pow 2 31 - 1

/-- Is the character a flag? -/
def isFormatFlag (c : Char) : Bool :=
  c == '-' || c == '+' || c == ' ' || c == '#' || c == '0'

/-- The size that digits give. -/
def sizeOfDigits (limit : Nat) (digits : Text) : Size :=
  let n := Nat.ofDigitChars 10 digits 0
  if limit < n then .tooBig else .fixed n

/-- A star or digits at the head of a text, and the rest; `none` stands for neither. -/
def sizeOf (limit : Nat) (none : Size) (t : Text) : Size × Text :=
  match t with
  | '*' :: rest => (.fromArgument, rest)
  | _ =>
      if (t.takeWhile isAsciiDigit).isEmpty then (none, t)
      else (sizeOfDigits limit (t.takeWhile isAsciiDigit), t.dropWhile isAsciiDigit)

/-- A point and a precision at the head of a text, and the rest. -/
def precisionSizeOf (t : Text) : Size × Text :=
  match t with
  | '.' :: rest => sizeOf precisionLimit (.fixed 0) rest
  | _ => (.absent, t)

/-- A text without a length letter at its head. -/
def dropLength (t : Text) : Text :=
  match t with
  | c :: rest => if c = 'h' ∨ c = 'l' ∨ c = 'L' then rest else t
  | [] => []

/-- A field behind its percent sign and the rest, in a format of `total` characters. -/
def FieldSpec.ofText (total : Nat) (t : Text) : FieldSpec × Text :=
  let width := sizeOf widthLimit .absent (t.dropWhile isFormatFlag)
  let precision := precisionSizeOf width.2
  match dropLength precision.2 with
  | [] => (⟨t.takeWhile isFormatFlag, width.1, precision.1, none⟩, [])
  | c :: rest =>
      (⟨t.takeWhile isFormatFlag, width.1, precision.1, some (c, total - rest.length - 1)⟩, rest)

theorem length_sizeOf_le (limit : Nat) (none : Size) (t : Text) :
    (sizeOf limit none t).2.length ≤ t.length := by
  unfold sizeOf
  split
  · simp
  · split
    · exact Nat.le_refl _
    · exact (List.dropWhile_sublist _).length_le

theorem length_precisionSizeOf_le (t : Text) : (precisionSizeOf t).2.length ≤ t.length := by
  unfold precisionSizeOf
  split
  · exact Nat.le_succ_of_le (length_sizeOf_le _ _ _)
  · exact Nat.le_refl _

theorem length_dropLength_le (t : Text) : (dropLength t).length ≤ t.length := by
  unfold dropLength
  split
  · split <;> simp
  · simp

/-- A field leaves no more than it was read from. -/
theorem FieldSpec.length_ofText_le (total : Nat) (t : Text) :
    (FieldSpec.ofText total t).2.length ≤ t.length := by
  have h1 := (List.dropWhile_sublist isFormatFlag (l := t)).length_le
  have h2 := length_sizeOf_le widthLimit .absent (t.dropWhile isFormatFlag)
  have h3 := length_precisionSizeOf_le (sizeOf widthLimit .absent (t.dropWhile isFormatFlag)).2
  have h4 := length_dropLength_le
    (precisionSizeOf (sizeOf widthLimit .absent (t.dropWhile isFormatFlag)).2).2
  simp only [FieldSpec.ofText]
  split
  · simp
  · rename_i c rest hd
    rw [hd] at h4
    simp only [List.length_cons] at h4
    change rest.length ≤ t.length
    omega

/-- The items of the rest of a format of `total` characters; nothing is read behind a field
that names its argument. -/
def Item.ofText (total : Nat) : Text → List Item
  | [] => []
  | c :: t =>
      if c = '%' then
        if t.head? = some '%' then .literal '%' :: Item.ofText total (t.drop 1)
        else if t.head? = some '(' then [.named]
        else
          .field (FieldSpec.ofText total t).1 :: Item.ofText total (FieldSpec.ofText total t).2
      else .literal c :: Item.ofText total t
termination_by t => t.length
decreasing_by
  · rw [List.length_drop, List.length_cons]
    omega
  · exact Nat.lt_succ_of_le (FieldSpec.length_ofText_le total t)
  · exact Nat.lt_succ_self _

end Reading

section Applying

variable [Machine]

/-- The next argument and those behind it. -/
def nextArgument : List Argument → Except ConversionError (Argument × List Argument)
  | [] => .error .notEnoughArguments
  | a :: rest => .ok (a, rest)

/-- A whole number that a star takes from the arguments. -/
def starArgument (args : List Argument) : Except ConversionError (Int × List Argument) := do
  let (a, rest) ← nextArgument args
  match a.toInt? with
  | some i => pure (i, rest)
  | none => throw .starNeedsInteger

/-- Is the number at most the limit, and at least as far below minus one? -/
def fitsSigned (limit : Nat) (i : Int) : Bool :=
  decide (-limit ≤ i + 1 ∧ i ≤ limit)

/-- The width of a field, if it has one. -/
def widthOf (s : Size) (args : List Argument) :
    Except ConversionError (Int × List Argument) := do
  match s with
  | .absent => pure (0, args)
  | .fixed n => pure (n, args)
  | .tooBig => throw .widthTooBig
  | .fromArgument =>
      let (i, rest) ← starArgument args
      if fitsSigned widthLimit i then pure (i, rest) else throw .starWidthTooLarge

/-- The precision of a field, if it has one. -/
def precisionValueOf (s : Size) (args : List Argument) :
    Except ConversionError (Option Nat × List Argument) := do
  match s with
  | .absent => pure (none, args)
  | .fixed n => pure (some n, args)
  | .tooBig => throw .precisionTooBig
  | .fromArgument =>
      let (i, rest) ← starArgument args
      if fitsSigned precisionLimit i then pure (some i.toNat, rest)
      else throw .starPrecisionTooLarge

/-- One field with the arguments that it takes, and the arguments that are left.  A negative
width fills up on the right; the one that has no positive counterpart fills up nothing. -/
def FieldSpec.apply (s : FieldSpec) (args : List Argument) :
    Except ConversionError (Text × List Argument) := do
  let (width, args) ← widthOf s.width args
  let (precision, args) ← precisionValueOf s.precision args
  match s.conversion with
  | none => throw .incomplete
  | some (c, position) =>
      let (a, rest) ← nextArgument args
      let f : Field :=
        { left := s.flags.contains '-' || decide (width < 0)
          plus := s.flags.contains '+'
          space := s.flags.contains ' '
          alternate := s.flags.contains '#'
          zeros := s.flags.contains '0'
          width := if width.natAbs ≤ widthLimit then width.natAbs else 0
          precision := precision }
      let t ← convert f c position a
      pure (t, rest)

/-- The text of a format's items with the given arguments. -/
def Item.applyAll : List Item → List Argument → Except ConversionError Text
  | [], [] => .ok []
  | [], _ :: _ => .error .unusedArguments
  | .literal c :: items, args => (applyAll items args).map (c :: ·)
  | .named :: _, _ => .error .mappingRequired
  | .field s :: items, args => do
      let (t, rest) ← s.apply args
      let tail ← applyAll items rest
      pure (t ++ tail)

/-- A format with its arguments put into its fields. -/
def applyFormat (format : Text) (args : List Argument) : Except ConversionError Text :=
  Item.applyAll (Item.ofText format.length format) args

end Applying

end Printf
end Phrasebook
