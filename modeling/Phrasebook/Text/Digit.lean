import Phrasebook.Text.Basic
import Phrasebook.Text.Ranges

/-!
# Digits

A *decimal digit* stands for one of the values 0 to 9; the decimal digits of a script
follow one another, so that a list of the zeros describes them all.  The wider class of
*digits* also has superscripts, circled digits and the like, which count nothing.  The lists are
those of Unicode 14.0.
-/

namespace Phrasebook

/-- The zeros of the scripts that have decimal digits. -/
def decimalZeros : List Nat := [
  0x30, 0x660, 0x6f0, 0x7c0, 0x966, 0x9e6, 0xa66, 0xae6, 0xb66, 0xbe6, 0xc66, 0xce6, 0xd66,
  0xde6, 0xe50, 0xed0, 0xf20, 0x1040, 0x1090, 0x17e0, 0x1810, 0x1946, 0x19d0, 0x1a80, 0x1a90,
  0x1b50, 0x1bb0, 0x1c40, 0x1c50, 0xa620, 0xa8d0, 0xa900, 0xa9d0, 0xa9f0, 0xaa50, 0xabf0,
  0xff10, 0x104a0, 0x10d30, 0x11066, 0x110f0, 0x11136, 0x111d0, 0x112f0, 0x11450, 0x114d0,
  0x11650, 0x116c0, 0x11730, 0x118e0, 0x11950, 0x11c50, 0x11d50, 0x11da0, 0x16a60, 0x16ac0,
  0x16b50, 0x1d7ce, 0x1d7d8, 0x1d7e2, 0x1d7ec, 0x1d7f6, 0x1e140, 0x1e2f0, 0x1e950, 0x1fbf0]

/-- Digits that are no decimal digits. -/
def otherDigits : List (Nat × Nat) := [
  (0xb2, 0xb3), (0xb9, 0xb9), (0x1369, 0x1371), (0x19da, 0x19da), (0x2070, 0x2070),
  (0x2074, 0x2079), (0x2080, 0x2089), (0x2460, 0x2468), (0x2474, 0x247c), (0x2488, 0x2490),
  (0x24ea, 0x24ea), (0x24f5, 0x24fd), (0x24ff, 0x24ff), (0x2776, 0x277e), (0x2780, 0x2788),
  (0x278a, 0x2792), (0x10a40, 0x10a43), (0x10e60, 0x10e68), (0x11052, 0x1105a),
  (0x1f100, 0x1f10a)]

/-- The value of a decimal digit, given the zeros that are left to try. -/
def decimalValueFrom? (n : Nat) : List Nat → Option Nat
  | [] => none
  | base :: rest => if base ≤ n ∧ n < base + 10 then some (n - base) else decimalValueFrom? n rest

/-- The value of a decimal digit of any script. -/
def decimalValue? (c : Char) : Option Nat :=
  decimalValueFrom? c.toNat decimalZeros

/-- Is the character a decimal digit of any script? -/
def isDecimal (c : Char) : Bool :=
  (decimalValue? c).isSome

/-- Is the character a digit, decimal or not? -/
def isDigit (c : Char) : Bool :=
  isDecimal c || Text.inRanges c.toNat otherDigits

/-- Is the character one of `0` to `9`? -/
def isAsciiDigit (c : Char) : Bool :=
  c.isDigit

theorem decimalValueFrom?_lt {n v : Nat} {zeros : List Nat}
    (h : decimalValueFrom? n zeros = some v) : v < 10 := by
  induction zeros with
  | nil => simp [decimalValueFrom?] at h
  | cons base rest ih =>
      by_cases hz : base ≤ n ∧ n < base + 10
      · simp [decimalValueFrom?, hz] at h
        omega
      · simp [decimalValueFrom?, hz] at h
        exact ih h

/-- A decimal digit has a value below ten. -/
theorem decimalValue?_lt {c : Char} {v : Nat} (h : decimalValue? c = some v) : v < 10 :=
  decimalValueFrom?_lt h

end Phrasebook
