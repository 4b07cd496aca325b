import Phrasebook.Text.Digit
import Phrasebook.Text.Quoted

/-!
# Numerals

Reading and writing whole numbers in base ten.  Both are limited to `digitLimit` digits, so
that no text can make them slow; leading zeros count.

**Reading.**  `readNumeral` takes the decimal digits of every script.  A text with another
character fails, and the length of its leading decimal digits is looked at before that.
**Writing.**  `writeNumeral` fails on a number that has too many digits.
-/

namespace Phrasebook

/-- The most digits that a numeral may have. -/
def digitLimit : Nat := 4300

/-- Why a numeral cannot be read or written. -/
inductive NumeralError
  | notDecimal (text : Text)
  | tooManyDigits (count : Nat)
  | tooLong
deriving DecidableEq, Repr

/-- The words for a failure; of a text no more than its first part is shown. -/
def NumeralError.message : NumeralError → String
  | .notDecimal text =>
      let shown := String.ofList ((Text.quoted text).take 200)
      s!"invalid literal for int() with base 10: {shown}"
  | .tooManyDigits count =>
      s!"Exceeds the limit ({digitLimit} digits) for integer string conversion: value has {count} digits; use sys.set_int_max_str_digits() to increase the limit"
  | .tooLong =>
      s!"Exceeds the limit ({digitLimit} digits) for integer string conversion; use sys.set_int_max_str_digits() to increase the limit"

/-- The value of a text of decimal digits, behind digits of the given value. -/
def decimalValueAfter (value : Nat) : Text → Nat
  | [] => value
  | c :: rest => decimalValueAfter (10 * value + (decimalValue? c).getD 0) rest

/-- The number that a text of decimal digits stands for. -/
def readNumeral (t : Text) : Except NumeralError Nat :=
  let leading := (t.takeWhile isDecimal).length
  if digitLimit < leading then .error (.tooManyDigits leading)
  else if t.allIn isDecimal then .ok (decimalValueAfter 0 t)
  else .error (.notDecimal t)

/-- A natural number in base ten. -/
def decimalDigits (n : Nat) : Text :=
  Nat.toDigits 10 n

/-- A whole number in base ten, whatever its length. -/
def integerText : Int → Text
  | .ofNat n => decimalDigits n
  | .negSucc n => '-' :: decimalDigits (n + 1)

/-- A whole number in base ten, unless it has too many digits. -/
def writeNumeral (i : Int) : Except NumeralError Text :=
  if digitLimit < (decimalDigits i.natAbs).length then .error .tooLong else .ok (integerText i)

end Phrasebook
