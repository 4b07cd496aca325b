import Phrasebook.Number.Decimal
import Phrasebook.Number.Numeral

/-!
# Texts of binary numbers

How a binary number is written: with a fixed number of places (`fixedText`), with an exponent
(`exponentText`), in the shorter of the two forms (`generalText`), or with the fewest digits
that read back (`shortestText`).

**Exponents** have a sign and at least two digits.  **Points** are left out when no digit
follows, unless the writer asks for the alternate form.
-/

namespace Phrasebook

/-- More significant digits or places than any binary number has. -/
def exactDigits : Nat := 1100

/-- Zeros in front of a text, up to a width. -/
def padZeros (width : Nat) (t : Text) : Text :=
  List.replicate (width - t.length) '0' ++ t

/-- Whole and fractional digits with a point between them, if one is due. -/
def pointed (keepPoint : Bool) (whole fraction : Text) : Text :=
  if fraction.isEmpty && !keepPoint then whole else whole ++ '.' :: fraction

/-- The exponent part of a number. -/
def exponentPart (k : Int) : Text :=
  'e' :: (if k < 0 then '-' else '+') :: padZeros 2 (decimalDigits k.natAbs)

/-- Significant digits with the point behind the first one and an exponent. -/
def withExponent (keepPoint : Bool) (digits : Text) (k : Int) : Text :=
  pointed keepPoint (digits.take 1) (digits.drop 1) ++ exponentPart k

/-- Significant digits in positional form, the first of them having exponent `k`. -/
def positional (keepPoint : Bool) (digits : Text) (k : Int) : Text :=
  match k with
  | .ofNat e =>
      pointed keepPoint (digits.take (e + 1) ++ List.replicate (e + 1 - digits.length) '0')
        (digits.drop (e + 1))
  | .negSucc e => pointed keepPoint ['0'] (List.replicate e '0' ++ digits)

/-- A magnitude with a fixed number of places. -/
def fixedMagnitude (keepPoint : Bool) (places : Nat) (r : Nat × Nat) : Text :=
  let exact := min places exactDigits
  let digits := padZeros (exact + 1) (decimalDigits (fixedDigits r.1 r.2 exact))
  pointed keepPoint (digits.take (digits.length - exact))
    (digits.drop (digits.length - exact) ++ List.replicate (places - exact) '0')

/-- The given number of significant digits of a magnitude, and the exponent of the first. -/
def significant (count : Nat) (r : Nat × Nat) : Text × Int :=
  if r.1 = 0 then (List.replicate count '0', 0)
  else
    let exact := min count exactDigits
    let d := scientificDigits r.1 r.2 exact
    (decimalDigits d.1 ++ List.replicate (count - exact) '0', d.2)

/-- A magnitude with an exponent. -/
def exponentMagnitude (keepPoint : Bool) (places : Nat) (r : Nat × Nat) : Text :=
  let d := significant (places + 1) r
  withExponent keepPoint d.1 d.2

/-- A magnitude in the shorter form; `alternate` keeps the point and the zeros at the end. -/
def generalMagnitude (alternate : Bool) (places : Nat) (r : Nat × Nat) : Text :=
  let count := max places 1
  let d := significant (if alternate then count else min count exactDigits) r
  let digits := if alternate then d.1 else d.1.take 1 ++ Text.trimCharEnd '0' (d.1.drop 1)
  if d.2 < -4 ∨ (count : Int) ≤ d.2 then withExponent alternate digits d.2
  else positional alternate digits d.2

/-- The forms in which a number can be written. -/
inductive RealForm
  | fixed
  | exponent
  | general
deriving DecidableEq, Repr

/-- A sign in front of a text, if the number is negative. -/
def signed (negative : Bool) (t : Text) : Text :=
  if negative then '-' :: t else t

/-- A number in one of the forms. -/
def realText (form : RealForm) (alternate : Bool) (places : Nat) : Binary64 → Text
  | .nan => "nan".toList
  | .infinite negative => signed negative "inf".toList
  | .finite negative m e =>
      let r := Binary64.magnitude m e
      signed negative
        (match form with
        | .fixed => fixedMagnitude alternate places r
        | .exponent => exponentMagnitude alternate places r
        | .general => generalMagnitude alternate places r)

/-- The shortest digits of a magnitude, positional from `10 ^ -4` up to below `10 ^ 16`. -/
def shortestMagnitude (m : Nat) (e : Int) : Text :=
  if m = 0 then "0.0".toList
  else
    let d := shortestDigits m e
    let digits := decimalDigits d.1
    let k : Int := digits.length + d.2 - 1
    let significant := digits.take 1 ++ Text.trimCharEnd '0' (digits.drop 1)
    if k < -4 ∨ 16 ≤ k then withExponent false significant k
    else
      let text := positional false significant k
      if text.contains '.' then text else text ++ ['.', '0']

/-- A number with the fewest digits that read back. -/
def shortestText : Binary64 → Text
  | .nan => "nan".toList
  | .infinite negative => signed negative "inf".toList
  | .finite negative m e => signed negative (shortestMagnitude m e)

end Phrasebook
