import Phrasebook.Number.Rounding
import Phrasebook.Text.Digit

/-!
# Binary floating-point numbers

The numbers of the 64-bit binary format, kept as an integer mantissa below `2 ^ 53` times a
power of two that is at least `2 ^ -1074`.

**From a ratio.**  `Binary64.ofRatio?` is the nearest number, a half going to the even
mantissa, or `none` if the ratio is too large for the format.
**From a text.**  `Binary64.ofText?` reads a decimal number with an optional point and
exponent, and the words for infinity and for no number.
-/

namespace Phrasebook

/-- A number of the 64-bit binary format. -/
inductive Binary64
  | finite (negative : Bool) (mantissa : Nat) (exponent : Int)
  | infinite (negative : Bool)
  | nan
deriving DecidableEq, Repr

namespace Binary64

/-- The least exponent of two. -/
def minExponent : Int := -1074

/-- The greatest exponent of two that a full mantissa can have. -/
def maxExponent : Int := 971

/-- A ratio times a power of two, as a ratio. -/
def scaleRatio (num den : Nat) (exponent : Int) : Nat × Nat :=
  match exponent with
  | .ofNat e => (num * Nat.pow 2 e, den)
  | .negSucc e => (num, den * Nat.pow 2 (e + 1))

/-- The exponent that gives a positive ratio a mantissa of 53 bits, or the least one. -/
def exponentOf (num den : Nat) : Int :=
  let guess : Int := (num.log2 : Int) - (den.log2 : Int) - 52
  let scaled := scaleRatio num den (-guess)
  max minExponent (if scaled.1 < Nat.pow 2 52 * scaled.2 then guess - 1 else guess)

/-- The number nearest to a ratio, or `none` if that is beyond the greatest number. -/
def ofRatio? (negative : Bool) (num den : Nat) : Option Binary64 :=
  if num = 0 then some (.finite negative 0 minExponent)
  else
    let e := exponentOf num den
    let scaled := scaleRatio num den (-e)
    let m := roundDiv scaled.1 scaled.2
    let result := if m = Nat.pow 2 53 then (Nat.pow 2 52, e + 1) else (m, e)
    if maxExponent < result.2 then none else some (.finite negative result.1 result.2)

/-- The number nearest to a whole number, or `none` if that is beyond the greatest number. -/
def ofInt? (i : Int) : Option Binary64 :=
  ofRatio? (decide (i < 0)) i.natAbs 1

/-- The magnitude of a finite number as a ratio. -/
def magnitude (mantissa : Nat) (exponent : Int) : Nat × Nat :=
  scaleRatio mantissa 1 exponent

/-- The whole number nearest to a finite number on the way to zero. -/
def truncate (negative : Bool) (mantissa : Nat) (exponent : Int) : Int :=
  let r := magnitude mantissa exponent
  let n : Int := ((r.1 / r.2 : Nat) : Int)
  if negative then -n else n

section Reading

/-- The nearest number to digits times a power of ten; beyond the greatest one, infinity. -/
def ofDecimal (negative : Bool) (digits : Nat) (exponent : Int) : Binary64 :=
  if digits = 0 then .finite negative 0 minExponent
  else if 400 < exponent then .infinite negative
  else if exponent < -400 - (Nat.log2 digits : Int) then .finite negative 0 minExponent
  else
    let r : Nat × Nat :=
      match exponent with
      | .ofNat e => (digits * Nat.pow 10 e, 1)
      | .negSucc e => (digits, Nat.pow 10 (e + 1))
    (ofRatio? negative r.1 r.2).getD (.infinite negative)

/-- A sign in front of a text: whether it is a minus, and the rest. -/
def readSign : Text → Bool × Text
  | '-' :: rest => (true, rest)
  | '+' :: rest => (false, rest)
  | t => (false, t)

/-- The exponent that ends a decimal number. -/
def readExponent? : Text → Option Int
  | [] => some 0
  | c :: rest =>
      if c = 'e' ∨ c = 'E' then
        let signed := readSign rest
        if signed.2.allIn isAsciiDigit then
          let n : Int := (Nat.ofDigitChars 10 signed.2 0 : Nat)
          some (if signed.1 then -n else n)
        else none
      else none

/-- A decimal number without its sign. -/
def ofUnsigned? (negative : Bool) (t : Text) : Option Binary64 :=
  let word := t.map Char.toLower
  if word = "inf".toList ∨ word = "infinity".toList then some (.infinite negative)
  else if word = "nan".toList then some .nan
  else
    let whole := t.takeWhile isAsciiDigit
    let rest := t.drop whole.length
    let fraction :=
      match rest with
      | '.' :: behind => behind.takeWhile isAsciiDigit
      | _ => []
    let tail :=
      match rest with
      | '.' :: behind => behind.drop fraction.length
      | _ => rest
    if whole.isEmpty && fraction.isEmpty then none
    else
      (readExponent? tail).map fun e =>
        ofDecimal negative (Nat.ofDigitChars 10 (whole ++ fraction) 0) (e - fraction.length)

/-- The number that a text stands for. -/
def ofText? (t : Text) : Option Binary64 :=
  let signed := readSign t
  ofUnsigned? signed.1 signed.2

end Reading

end Binary64
end Phrasebook
