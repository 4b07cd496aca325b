import Phrasebook.Machine
import Phrasebook.Printf.Argument

/-!
# Conversions

One conversion puts one argument into a field: `s`, `r` and `a` its text, `d`, `i` and `u` a
decimal number, `o`, `x` and `X` another base, `e`, `f` and `g` (and their capitals) a real
number, `c` one character.

**Fields.**  `Field.pad` brings the text of an argument to the width of its field.  The sign
and the marker of the base stand in front of filling zeros and behind filling spaces.
**Errors.**  `ConversionError` lists what can go wrong, by cause; `ConversionError.family`
says whether the argument has the wrong kind or the wrong value, is too large for the
conversion, or would fill more memory than there is.
-/

namespace Phrasebook
namespace Printf

/-- Why arguments do not fit a format. -/
inductive ConversionError
  | notEnoughArguments
  | unusedArguments
  | mappingRequired
  | starNeedsInteger
  | realRequired (conversion : Char) (kind : String)
  | integerRequired (conversion : Char) (kind : String)
  | floatRequired (kind : String)
  | characterRequired
  | incomplete
  | unsupported (c : Char) (position : Nat)
  | widthTooBig
  | precisionTooBig
  | nanToInteger
  | numeral (e : NumeralError)
  | characterOutOfRange
  | infinityToInteger
  | integerTooLarge
  | precisionTooLarge
  | starWidthTooLarge
  | starPrecisionTooLarge
  | fieldTooLarge
deriving DecidableEq, Repr

/-- The families of conversion errors. -/
inductive ErrorFamily
  | kind
  | value
  | overflow
  | memory
deriving DecidableEq, Repr

namespace ConversionError

/-- The family of an error. -/
def family : ConversionError → ErrorFamily
  | .notEnoughArguments | .unusedArguments | .mappingRequired | .starNeedsInteger => .kind
  | .realRequired .. | .integerRequired .. | .floatRequired _ | .characterRequired => .kind
  | .incomplete | .unsupported .. | .widthTooBig | .precisionTooBig => .value
  | .nanToInteger | .numeral _ => .value
  | .characterOutOfRange | .infinityToInteger | .integerTooLarge => .overflow
  | .precisionTooLarge | .starWidthTooLarge | .starPrecisionTooLarge => .overflow
  | .fieldTooLarge => .memory

/-- The words for an error. -/
def message : ConversionError → String
  | .notEnoughArguments => "not enough arguments for format string"
  | .unusedArguments => "not all arguments converted during string formatting"
  | .mappingRequired => "format requires a mapping"
  | .starNeedsInteger => "* wants int"
  | .realRequired c kind => s!"%{c} format: a real number is required, not {kind}"
  | .integerRequired c kind => s!"%{c} format: an integer is required, not {kind}"
  | .floatRequired kind => s!"must be real number, not {kind}"
  | .characterRequired => "%c requires int or char"
  | .incomplete => "incomplete format"
  | .unsupported c position =>
      let shown := if 31 ≤ c.toNat ∧ c.toNat ≤ 126 then c else '?'
      let code := String.ofList (Nat.toDigits 16 c.toNat)
      s!"unsupported format character '{shown}' (0x{code}) at index {position}"
  | .widthTooBig => "width too big"
  | .precisionTooBig => "precision too big"
  | .nanToInteger => "cannot convert float NaN to integer"
  | .numeral e => e.message
  | .characterOutOfRange => "%c arg not in range(0x110000)"
  | .infinityToInteger => "cannot convert float infinity to integer"
  | .integerTooLarge => "int too large to convert to float"
  | .precisionTooLarge => "precision too large"
  | .starWidthTooLarge => "Python int too large to convert to C ssize_t"
  | .starPrecisionTooLarge => "Python int too large to convert to C int"
  | .fieldTooLarge => ""

end ConversionError

/-- The flags, width and precision of a field. -/
structure Field where
  left : Bool
  plus : Bool
  space : Bool
  alternate : Bool
  zeros : Bool
  width : Nat
  precision : Option Nat
deriving DecidableEq, Repr

/-- The greatest precision that a whole number can have. -/
def integerPrecisionLimit : Nat := Nat.pow 2 31 - 4

/-- What a field shows: a sign, a marker of the base and a body, and whether it is a number. -/
structure Content where
  numeric : Bool
  sign : Text
  marker : Text
  body : Text
deriving DecidableEq, Repr

namespace Field

/-- The content filled up to the width of the field. -/
def pad (f : Field) (c : Content) : Text :=
  let missing := f.width - (c.sign.length + c.marker.length + c.body.length)
  if f.left then c.sign ++ c.marker ++ c.body ++ List.replicate missing ' '
  else if f.zeros && c.numeric then c.sign ++ c.marker ++ List.replicate missing '0' ++ c.body
  else List.replicate missing ' ' ++ c.sign ++ c.marker ++ c.body

/-- The sign of a number in the field. -/
def signText (f : Field) (negative : Bool) : Text :=
  if negative then ['-'] else if f.plus then ['+'] else if f.space then [' '] else []

/-- A text, cut to the precision of the field. -/
def textContent (f : Field) (t : Text) : Content :=
  ⟨false, [], [],
    match f.precision with
    | some n => t.take n
    | none => t⟩

/-- The digits of a whole number, as many as the precision asks for at least. -/
def integerContent (f : Field) (negative : Bool) (marker digits : Text) : Content :=
  ⟨true, f.signText negative, marker, padZeros (f.precision.getD 0) digits⟩

/-- A number whose text may begin with a minus sign. -/
def realContent (f : Field) (t : Text) : Content :=
  match t with
  | '-' :: body => ⟨true, f.signText true, [], body⟩
  | _ => ⟨true, f.signText false, [], t⟩

end Field

section Kinds

/-- The whole number that a decimal conversion shows. -/
def decimalValue (c : Char) (a : Argument) : Except ConversionError Int :=
  match a with
  | .integer i => .ok i
  | .truth b => .ok (if b then 1 else 0)
  | .real (.finite negative m e) => .ok (Binary64.truncate negative m e)
  | .real (.infinite _) => .error .infinityToInteger
  | .real .nan => .error .nanToInteger
  | .text _ | .nothing => .error (.realRequired c a.kind)

/-- The whole number that a conversion to another base shows. -/
def integerValue (c : Char) (a : Argument) : Except ConversionError Int :=
  match a.toInt? with
  | some i => .ok i
  | none => .error (.integerRequired c a.kind)

/-- The real number that a conversion shows. -/
def realValue (a : Argument) : Except ConversionError Binary64 :=
  match a with
  | .real x => .ok x
  | .text _ | .nothing => .error (.floatRequired a.kind)
  | .integer i => ofInteger i
  | .truth b => ofInteger (if b then 1 else 0)
where
  ofInteger (i : Int) : Except ConversionError Binary64 :=
    match Binary64.ofInt? i with
    | some x => .ok x
    | none => .error .integerTooLarge

/-- The character that a conversion shows.  The code of half a surrogate pair is no character of
a text; the replacement character stands for it. -/
def characterValue (a : Argument) : Except ConversionError Char :=
  match a with
  | .text [c] => .ok c
  | .integer i => ofCode i
  | .truth b => ofCode (if b then 1 else 0)
  | _ => .error .characterRequired
where
  ofCode (i : Int) : Except ConversionError Char :=
    if 0 ≤ i ∧ i < 0x110000 then
      .ok (if i.toNat.isValidChar then Char.ofNat i.toNat else '\ufffd')
    else .error .characterOutOfRange

/-- A failure of a numeral as a failure of a conversion. -/
def liftNumeral {α : Type} : Except NumeralError α → Except ConversionError α
  | .ok a => .ok a
  | .error e => .error (.numeral e)

end Kinds

/-- Fails if a field asks for more digits than a whole number can have. -/
def checkPrecision (f : Field) : Except ConversionError Unit :=
  if integerPrecisionLimit < f.precision.getD 0 then .error .precisionTooLarge else .ok ()

/-- A whole number in base ten. -/
def convertDecimal (f : Field) (c : Char) (a : Argument) : Except ConversionError Content := do
  let i ← decimalValue c a
  checkPrecision f
  let _ ← liftNumeral (writeNumeral i)
  pure (f.integerContent (decide (i < 0)) [] (decimalDigits i.natAbs))

/-- A whole number in another base. -/
def convertBase (f : Field) (c : Char) (base : Nat) (a : Argument) :
    Except ConversionError Content := do
  let i ← integerValue c a
  checkPrecision f
  let digits := Nat.toDigits base i.natAbs
  pure (f.integerContent (decide (i < 0)) (if f.alternate then ['0', c] else [])
    (if c = 'X' then digits.map Char.toUpper else digits))

/-- A real number in one of its forms. -/
def convertReal (f : Field) (form : RealForm) (capital : Bool) (a : Argument) :
    Except ConversionError Content := do
  let x ← realValue a
  let t := realText form f.alternate (f.precision.getD 6) x
  pure (f.realContent (if capital then t.map Char.toUpper else t))

/-- What a field shows of one argument; `position` is where the conversion stands. -/
def content (f : Field) (c : Char) (position : Nat) (a : Argument) :
    Except ConversionError Content :=
  match c with
  | 's' => (liftNumeral a.display).map f.textContent
  | 'r' => (liftNumeral a.literal).map f.textContent
  | 'a' => (liftNumeral a.asciiLiteral).map f.textContent
  | 'd' | 'i' | 'u' => convertDecimal f c a
  | 'o' => convertBase f c 8 a
  | 'x' | 'X' => convertBase f c 16 a
  | 'e' => convertReal f .exponent false a
  | 'E' => convertReal f .exponent true a
  | 'f' => convertReal f .fixed false a
  | 'F' => convertReal f .fixed true a
  | 'g' => convertReal f .general false a
  | 'G' => convertReal f .general true a
  | 'c' => (characterValue a).map (fun x => ⟨false, [], [], [x]⟩)
  | _ => .error (.unsupported c position)

/-- One argument in a field. -/
def convert [Machine] (f : Field) (c : Char) (position : Nat) (a : Argument) :
    Except ConversionError Text := do
  let shown ← content f c position a
  if Machine.fieldWidth < f.width then throw .fieldTooLarge
  pure (f.pad shown)

end Printf
end Phrasebook
