import Phrasebook.Number.Binary64

/-!
# Decimal forms

The digits of a positive ratio in base ten.

**Fixed.**  `fixedDigits` rounds to a number of places behind the point.
**Scientific.**  `scientificDigits` rounds to a number of significant digits and also gives
the exponent of the first of them.
**Shortest.**  `shortestDigits` finds the fewest significant digits that read back as the
same binary number, and of those the nearest to it.
-/

namespace Phrasebook

/-- A ratio times a power of ten, as a ratio. -/
def scaleTen (num den : Nat) (exponent : Int) : Nat × Nat :=
  match exponent with
  | .ofNat e => (num * Nat.pow 10 e, den)
  | .negSucc e => (num, den * Nat.pow 10 (e + 1))

/-- The ratio in units of the last of `places` places behind the point, rounded. -/
def fixedDigits (num den places : Nat) : Nat :=
  roundDiv (num * Nat.pow 10 places) den

/-- The exponent of ten of the first digit of a positive ratio. -/
def leadingExponent (num den : Nat) : Int :=
  let guess : Int := ((Nat.toDigits 10 num).length : Int) - ((Nat.toDigits 10 den).length : Int)
  let scaled := scaleTen num den (-guess)
  if scaled.1 < scaled.2 then guess - 1 else guess

/-- The first `count` digits of a positive ratio, rounded, and the exponent of the first. -/
def scientificDigits (num den count : Nat) : Nat × Int :=
  let k := leadingExponent num den
  let scaled := scaleTen num den ((count : Int) - 1 - k)
  let d := roundDiv scaled.1 scaled.2
  if d = Nat.pow 10 count then (Nat.pow 10 (count - 1), k + 1) else (d, k)

/-- The ratios that read back as a binary number: four times its value and the two ends of
its interval, in a common unit, and whether the ends belong to it. -/
structure Rounded where
  value : Nat
  low : Nat
  high : Nat
  closed : Bool
  unit : Nat × Nat

/-- The interval of ratios that round to a finite number other than zero. -/
def roundedTo (mantissa : Nat) (exponent : Int) : Rounded where
  value := 4 * mantissa
  low :=
    if mantissa = Nat.pow 2 52 ∧ Binary64.minExponent < exponent then 4 * mantissa - 1
    else 4 * mantissa - 2
  high := 4 * mantissa + 2
  closed := mantissa % 2 == 0
  unit := Binary64.magnitude 1 (exponent - 2)

/-- Does `d` in units of `10 ^ exponent` read back as the number? -/
def Rounded.contains (r : Rounded) (d : Nat) (exponent : Int) : Bool :=
  let scaled := scaleTen d 1 exponent
  let x := scaled.1 * r.unit.2
  let low := r.low * r.unit.1 * scaled.2
  let high := r.high * r.unit.1 * scaled.2
  (low < x && x < high) || (r.closed && (low == x || x == high))

/-- The digits of a number on the grid of `count` significant digits, if some read back. -/
def Rounded.onGrid? (r : Rounded) (k : Int) (count : Nat) : Option Nat :=
  let step := k - (count : Int) + 1
  let scaled := scaleTen (r.value * r.unit.1) r.unit.2 (-step)
  let below := scaled.1 / scaled.2
  let nearest := roundDiv scaled.1 scaled.2
  let other := if nearest = below then below + 1 else below
  if r.contains nearest step then some nearest
  else if r.contains other step then some other
  else none

/-- The first grid, from `count` significant digits on, that has digits that read back. -/
def Rounded.search (r : Rounded) (k : Int) : Nat → Nat → Nat × Int
  | 0, count => ((r.onGrid? k count).getD 0, k - (count : Int) + 1)
  | more + 1, count =>
      match r.onGrid? k count with
      | some d => (d, k - (count : Int) + 1)
      | none => r.search k more (count + 1)

/-- The fewest digits that read back as a finite number other than zero, and the exponent of
ten of their unit; seventeen digits always do. -/
def shortestDigits (mantissa : Nat) (exponent : Int) : Nat × Int :=
  let r := roundedTo mantissa exponent
  let k := leadingExponent (r.value * r.unit.1) r.unit.2
  r.search k 16 1

end Phrasebook
