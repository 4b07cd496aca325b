import Phrasebook.Text.Basic
import Phrasebook.Text.Printable

/-!
# Quoted texts

How messages show a text: between single quotes, or between double ones if it has a single
quote and no double one.  The quote in use and the backslash get a backslash, line feed,
carriage return and tab have their letters, and any other character that is not printable is
shown by its code point in two, four or eight hexadecimal digits.
-/

namespace Phrasebook
namespace Text

/-- The hexadecimal digit of a value below sixteen. -/
def hexDigit (n : Nat) : Char :=
  Nat.digitChar n

/-- The last `width` hexadecimal digits of a number. -/
def hexDigits : Nat → Nat → Text
  | 0, _ => []
  | width + 1, n => hexDigits width (n / 16) ++ [hexDigit (n % 16)]

/-- A code point in hexadecimal digits behind a backslash and the letter for their number. -/
def codePointEscape (n : Nat) : Text :=
  if n < 0x100 then '\\' :: 'x' :: hexDigits 2 n
  else if n < 0x10000 then '\\' :: 'u' :: hexDigits 4 n
  else '\\' :: 'U' :: hexDigits 8 n

/-- One character between the given quotes; `plain` says which characters stand for themselves. -/
def quotedChar (plain : Char → Bool) (quotation c : Char) : Text :=
  if c = quotation ∨ c = '\\' then ['\\', c]
  else if c = '\n' then ['\\', 'n']
  else if c = '\r' then ['\\', 'r']
  else if c = '\t' then ['\\', 't']
  else if plain c then [c]
  else codePointEscape c.toNat

/-- The quote that surrounds a text. -/
def quotation (t : Text) : Char :=
  if t.contains '\'' && !t.contains '"' then '"' else '\''

/-- A text as messages show it. -/
def quoted (t : Text) : Text :=
  quotation t :: t.flatMap (quotedChar isPrintable (quotation t)) ++ [quotation t]

/-- A text as messages show it when only ASCII may appear. -/
def quotedAscii (t : Text) : Text :=
  quotation t ::
    t.flatMap (quotedChar (fun c => isPrintable c && decide (c.toNat < 128)) (quotation t)) ++
    [quotation t]

end Text
end Phrasebook
