import Mathlib
import Phrasebook.Printf.Format
import Phrasebook.Proofs.Number.Reading
import Phrasebook.Proofs.Outcome

/-!
# Formats that ask for too much

Some failures of a format say that the kind or the value of an argument does not fit, and others
that something is too large.  This module finds the causes of the latter.

**Conversions.**  `Exceeds` lists what is too large for a conversion, and `overflows_content_iff`
shows that the list is complete.
**Fields.**  `FieldSpec.Exceeds` adds the sizes that arguments give, and the width of the field.
**Formats.**  Fields take their arguments one after the other, so that a format overflows at a field
that is reached (`overflows_applyAll_iff`).
-/

namespace Phrasebook
namespace Printf

section Families

/-- Does an error of the family say that something is too large? -/
@[simp] def ErrorFamily.IsExcess : ErrorFamily → Prop
  | .overflow | .memory => True
  | .kind | .value => False

/-- Does a computation fail with the error because something is too large? -/
def Overflows {α : Type} (x : Except ConversionError α) (e : ConversionError) : Prop :=
  x = .error e ∧ e.family.IsExcess

variable {α β : Type} {x : Except ConversionError α} {d e : ConversionError}

@[simp] theorem not_overflows_ok (a : α) : ¬Overflows (.ok a) e :=
  fun h => nomatch h.1

@[simp] theorem overflows_error_iff :
    Overflows (.error d : Except ConversionError α) e ↔ d.family.IsExcess ∧ e = d := by
  constructor
  · rintro ⟨h, he⟩
    cases h
    exact ⟨he, rfl⟩
  · rintro ⟨hd, rfl⟩
    exact ⟨rfl, hd⟩

theorem overflows_bind_iff {f : α → Except ConversionError β} :
    Overflows (x >>= f) e ↔ Overflows x e ∨ ∃ a, x = .ok a ∧ Overflows (f a) e := by
  rw [Overflows, bind_eq_error_iff]
  constructor
  · rintro ⟨hx | ⟨a, ha, hf⟩, he⟩
    · exact .inl ⟨hx, he⟩
    · exact .inr ⟨a, ha, hf, he⟩
  · rintro (⟨hx, he⟩ | ⟨a, ha, hf, he⟩)
    · exact ⟨.inl hx, he⟩
    · exact ⟨.inr ⟨a, ha, hf⟩, he⟩

theorem overflows_map_iff {f : α → β} : Overflows (x.map f) e ↔ Overflows x e := by
  rw [Overflows, map_eq_error_iff, Overflows]

theorem not_overflows_liftNumeral {x : Except NumeralError α} : ¬Overflows (liftNumeral x) e := by
  cases x with
  | ok a => exact not_overflows_ok a
  | error d => exact fun h => (overflows_error_iff.1 h).1

end Families

section Conversions

variable {f : Field} {c : Char} {position : Nat} {a : Argument} {e : ConversionError}

/-- The conversions to a whole number in base ten. -/
def decimalConversions : List Char := ['d', 'i', 'u']

/-- The conversions to a whole number in another base. -/
def baseConversions : List Char := ['o', 'x', 'X']

/-- The conversions to a real number. -/
def realConversions : List Char := ['e', 'E', 'f', 'F', 'g', 'G']

/-- What is too large for a conversion: the code of a character, a whole number for a real one, an
infinite number for a whole one, or the number of digits that the field asks for. -/
inductive Exceeds (f : Field) : Char → Argument → ConversionError → Prop
  | character {a : Argument} {i : Int} (ha : a.toInt? = some i)
      (hi : ¬(0 ≤ i ∧ i < 0x110000)) : Exceeds f 'c' a .characterOutOfRange
  | real {c : Char} {a : Argument} {i : Int} (hc : c ∈ realConversions) (ha : a.toInt? = some i)
      (hi : Binary64.ofInt? i = none) : Exceeds f c a .integerTooLarge
  | infinity {c : Char} {negative : Bool} (hc : c ∈ decimalConversions) :
      Exceeds f c (.real (.infinite negative)) .infinityToInteger
  | decimal {c : Char} {a : Argument} {i : Int} (hc : c ∈ decimalConversions)
      (ha : decimalValue c a = .ok i) (hf : integerPrecisionLimit < f.precision.getD 0) :
      Exceeds f c a .precisionTooLarge
  | base {c : Char} {a : Argument} {i : Int} (hc : c ∈ baseConversions) (ha : a.toInt? = some i)
      (hf : integerPrecisionLimit < f.precision.getD 0) :
      Exceeds f c a .precisionTooLarge

theorem overflows_checkPrecision_iff :
    Overflows (checkPrecision f) e ↔
      integerPrecisionLimit < f.precision.getD 0 ∧ e = .precisionTooLarge := by
  rw [checkPrecision]
  split
  · rename_i h
    simp [ConversionError.family, h]
  · rename_i h
    simp [h]

theorem overflows_decimalValue_iff :
    Overflows (decimalValue c a) e ↔
      (∃ negative, a = .real (.infinite negative)) ∧ e = .infinityToInteger := by
  rcases a with t | i | b | (_ | _ | _) | _ <;> simp [decimalValue, ConversionError.family]

theorem integerValue_eq_ok_iff {i : Int} : integerValue c a = .ok i ↔ a.toInt? = some i := by
  rw [integerValue]
  cases a.toInt? <;> simp

theorem not_overflows_integerValue : ¬Overflows (integerValue c a) e := by
  rw [integerValue]
  cases a.toInt? <;> simp [ConversionError.family]

theorem overflows_realValue_iff :
    Overflows (realValue a) e ↔
      ∃ i, a.toInt? = some i ∧ Binary64.ofInt? i = none ∧ e = .integerTooLarge := by
  have hinteger : ∀ i, Overflows (realValue.ofInteger i) e ↔
      Binary64.ofInt? i = none ∧ e = .integerTooLarge := by
    intro i
    rw [realValue.ofInteger]
    cases Binary64.ofInt? i <;> simp [ConversionError.family]
  cases a with
  | integer i => simp [realValue, hinteger, Argument.toInt?]
  | truth b => simp [realValue, hinteger, Argument.toInt?]
  | text t | real x | nothing => simp [realValue, Argument.toInt?, ConversionError.family]

theorem overflows_characterValue_iff :
    Overflows (characterValue a) e ↔
      ∃ i, a.toInt? = some i ∧ ¬(0 ≤ i ∧ i < 0x110000) ∧ e = .characterOutOfRange := by
  have hcode : ∀ i, Overflows (characterValue.ofCode i) e ↔
      ¬(0 ≤ i ∧ i < 0x110000) ∧ e = .characterOutOfRange := by
    intro i
    rw [characterValue.ofCode]
    split
    · rename_i h
      simp [h]
    · rename_i h
      simp [h, ConversionError.family]
  cases a with
  | integer i => simp [characterValue, hcode, Argument.toInt?]
  | truth b => simp [characterValue, hcode, Argument.toInt?]
  | text t =>
      rcases t with _ | ⟨x, _ | _⟩ <;>
        simp [characterValue, Argument.toInt?, ConversionError.family]
  | real x | nothing => simp [characterValue, Argument.toInt?, ConversionError.family]

/-- A whole number that is found, and then shown with as many digits as the field asks for. -/
theorem overflows_checked_iff {value : Except ConversionError Int}
    {shown : Int → Except ConversionError Content} (hshown : ∀ i, ¬Overflows (shown i) e) :
    Overflows (value >>= fun i => checkPrecision f >>= fun _ => shown i) e ↔
      Overflows value e ∨ (∃ i, value = .ok i) ∧
        integerPrecisionLimit < f.precision.getD 0 ∧ e = .precisionTooLarge := by
  rw [overflows_bind_iff]
  refine or_congr_right ⟨?_, ?_⟩
  · rintro ⟨i, hi, h⟩
    rcases overflows_bind_iff.1 h with h | ⟨-, -, h⟩
    · exact ⟨⟨i, hi⟩, overflows_checkPrecision_iff.1 h⟩
    · exact absurd h (hshown i)
  · rintro ⟨⟨i, hi⟩, h⟩
    exact ⟨i, hi, overflows_bind_iff.2 (.inl (overflows_checkPrecision_iff.2 h))⟩

theorem overflows_convertDecimal_iff :
    Overflows (convertDecimal f c a) e ↔
      (∃ negative, a = .real (.infinite negative)) ∧ e = .infinityToInteger ∨
        (∃ i, decimalValue c a = .ok i) ∧ integerPrecisionLimit < f.precision.getD 0 ∧
          e = .precisionTooLarge := by
  rw [← overflows_decimalValue_iff (c := c)]
  refine overflows_checked_iff fun i h => ?_
  rcases overflows_bind_iff.1 h with h | ⟨-, -, h⟩
  · exact not_overflows_liftNumeral h
  · exact not_overflows_ok _ h

theorem overflows_convertBase_iff {base : Nat} :
    Overflows (convertBase f c base a) e ↔
      (∃ i, a.toInt? = some i) ∧ integerPrecisionLimit < f.precision.getD 0 ∧
        e = .precisionTooLarge := by
  have hchecked := @overflows_checked_iff f e (integerValue c a) _
    fun i => not_overflows_ok (f.integerContent (decide (i < 0))
      (if f.alternate then ['0', c] else [])
      (if c = 'X' then (Nat.toDigits base i.natAbs).map Char.toUpper
        else Nat.toDigits base i.natAbs))
  simp only [not_overflows_integerValue, integerValue_eq_ok_iff, false_or] at hchecked
  exact hchecked

theorem overflows_convertReal_iff {form : RealForm} {capital : Bool} :
    Overflows (convertReal f form capital a) e ↔
      ∃ i, a.toInt? = some i ∧ Binary64.ofInt? i = none ∧ e = .integerTooLarge := by
  rw [convertReal, overflows_bind_iff, overflows_realValue_iff, or_iff_left]
  rintro ⟨x, -, h⟩
  exact not_overflows_ok _ h

theorem content_decimal {position : Nat} (hc : c ∈ decimalConversions) :
    content f c position a = convertDecimal f c a := by
  simp only [decimalConversions, List.mem_cons, List.not_mem_nil, or_false] at hc
  rcases hc with rfl | rfl | rfl <;> rfl

theorem content_base (position : Nat) (hc : c ∈ baseConversions) :
    ∃ base, content f c position a = convertBase f c base a := by
  simp only [baseConversions, List.mem_cons, List.not_mem_nil, or_false] at hc
  rcases hc with rfl | rfl | rfl <;> exact ⟨_, rfl⟩

theorem content_real (position : Nat) (hc : c ∈ realConversions) :
    ∃ form capital, content f c position a = convertReal f form capital a := by
  simp only [realConversions, List.mem_cons, List.not_mem_nil, or_false] at hc
  rcases hc with rfl | rfl | rfl | rfl | rfl | rfl <;> exact ⟨_, _, rfl⟩

theorem exceeds_of_overflows_convertDecimal (hc : c ∈ decimalConversions)
    (h : Overflows (convertDecimal f c a) e) : Exceeds f c a e := by
  rcases overflows_convertDecimal_iff.1 h with ⟨⟨negative, rfl⟩, rfl⟩ | ⟨⟨i, hi⟩, hf, rfl⟩
  · exact .infinity hc
  · exact .decimal hc hi hf

theorem exceeds_of_overflows_convertBase {base : Nat} (hc : c ∈ baseConversions)
    (h : Overflows (convertBase f c base a) e) : Exceeds f c a e := by
  obtain ⟨⟨i, hi⟩, hf, rfl⟩ := overflows_convertBase_iff.1 h
  exact .base hc hi hf

theorem exceeds_of_overflows_convertReal {form : RealForm} {capital : Bool}
    (hc : c ∈ realConversions) (h : Overflows (convertReal f form capital a) e) :
    Exceeds f c a e := by
  obtain ⟨i, hi, hnone, rfl⟩ := overflows_convertReal_iff.1 h
  exact .real hc hi hnone

theorem overflows_content_iff {position : Nat} :
    Overflows (content f c position a) e ↔ Exceeds f c a e := by
  constructor
  · intro h
    -- one case for each letter; those of one kind have a lemma
    unfold content at h
    split at h
    case h_1 | h_2 | h_3 => exact absurd (overflows_map_iff.1 h) not_overflows_liftNumeral
    case h_4 | h_5 | h_6 => exact exceeds_of_overflows_convertDecimal (by decide) h
    case h_7 | h_8 | h_9 => exact exceeds_of_overflows_convertBase (by decide) h
    case h_10 | h_11 | h_12 | h_13 | h_14 | h_15 =>
      exact exceeds_of_overflows_convertReal (by decide) h
    case h_16 =>
      obtain ⟨i, hi, hrange, rfl⟩ := overflows_characterValue_iff.1 (overflows_map_iff.1 h)
      exact .character hi hrange
    case h_17 => exact absurd h (by simp [ConversionError.family])
  · intro h
    cases h with
    | character ha hi =>
        exact overflows_map_iff.2 (overflows_characterValue_iff.2 ⟨_, ha, hi, rfl⟩)
    | real hc ha hi =>
        obtain ⟨form, capital, hcontent⟩ := content_real (f := f) (a := a) position hc
        rw [hcontent]
        exact overflows_convertReal_iff.2 ⟨_, ha, hi, rfl⟩
    | infinity hc =>
        rw [content_decimal hc]
        exact overflows_convertDecimal_iff.2 (.inl ⟨⟨_, rfl⟩, rfl⟩)
    | decimal hc ha hf =>
        rw [content_decimal hc]
        exact overflows_convertDecimal_iff.2 (.inr ⟨⟨_, ha⟩, hf, rfl⟩)
    | base hc ha hf =>
        obtain ⟨base, hcontent⟩ := content_base (f := f) (a := a) position hc
        rw [hcontent]
        exact overflows_convertBase_iff.2 ⟨⟨_, ha⟩, hf, rfl⟩

end Conversions

section Fields

variable {s : FieldSpec} {args rest : List Argument} {f : Field} {c : Char} {position : Nat}
  {a : Argument} {e : ConversionError}

/-- Is the first of the arguments a whole number beyond the limit? -/
def BeginsBeyond (limit : Nat) (args : List Argument) : Prop :=
  ∃ a rest i, args = a :: rest ∧ a.toInt? = some i ∧ fitsSigned limit i = false

/-- The field with the sizes that are found for it. -/
def FieldSpec.sized (s : FieldSpec) (width : Int) (precision : Option Nat) : Field where
  left := s.flags.contains '-' || decide (width < 0)
  plus := s.flags.contains '+'
  space := s.flags.contains ' '
  alternate := s.flags.contains '#'
  zeros := s.flags.contains '0'
  width := if width.natAbs ≤ widthLimit then width.natAbs else 0
  precision := precision

/-- Does the field take its sizes and the argument that it shows, and leave the rest? -/
def FieldSpec.Takes (s : FieldSpec) (args : List Argument) (f : Field) (c : Char) (position : Nat)
    (a : Argument) (rest : List Argument) : Prop :=
  ∃ width precision middle, widthOf s.width args = .ok (width, middle) ∧
    precisionValueOf s.precision middle = .ok (precision, a :: rest) ∧
    s.conversion = some (c, position) ∧ f = s.sized width precision

/-- What is too large for a field: a size that an argument gives, what its conversion shows, or its
width. -/
inductive FieldSpec.Exceeds [Machine] (s : FieldSpec) (args : List Argument) :
    ConversionError → Prop
  | starWidth (hs : s.width = .fromArgument) (hargs : BeginsBeyond widthLimit args) :
      s.Exceeds args .starWidthTooLarge
  | starPrecision {width : Int} {rest : List Argument}
      (hwidth : widthOf s.width args = .ok (width, rest)) (hs : s.precision = .fromArgument)
      (hrest : BeginsBeyond precisionLimit rest) : s.Exceeds args .starPrecisionTooLarge
  | content {f : Field} {c : Char} {position : Nat} {a : Argument} {rest : List Argument}
      {e : ConversionError} (htakes : s.Takes args f c position a rest)
      (h : Printf.Exceeds f c a e) : s.Exceeds args e
  | width {f : Field} {c : Char} {position : Nat} {a : Argument} {rest : List Argument}
      {shown : Content} (htakes : s.Takes args f c position a rest)
      (hshown : Printf.content f c position a = .ok shown)
      (hf : Machine.fieldWidth < f.width) :
      s.Exceeds args .fieldTooLarge

theorem starArgument_eq_ok_iff {i : Int} :
    starArgument args = .ok (i, rest) ↔ ∃ a, args = a :: rest ∧ a.toInt? = some i := by
  rw [starArgument, bind_eq_ok_iff]
  constructor
  · rintro ⟨⟨a, more⟩, hnext, h⟩
    cases args with
    | nil => cases hnext
    | cons b behind =>
        cases hnext
        dsimp only at h
        split at h
        · rename_i j hj
          cases h
          exact ⟨a, rfl, hj⟩
        · cases h
  · rintro ⟨a, rfl, ha⟩
    refine ⟨(a, rest), rfl, ?_⟩
    simp only [ha]
    rfl

theorem not_overflows_starArgument : ¬Overflows (starArgument args) e := by
  rw [starArgument, overflows_bind_iff]
  rintro (h | ⟨⟨a, more⟩, -, h⟩)
  · cases args with
    | nil => exact (overflows_error_iff.1 h).1
    | cons a more => exact not_overflows_ok _ h
  · dsimp only at h
    split at h
    · exact not_overflows_ok _ h
    · exact (overflows_error_iff.1 h).1

/-- A size that an argument gives. -/
theorem overflows_star_iff {limit : Nat} {α : Type} {g : Int × List Argument → α}
    {d : ConversionError} (hd : d.family.IsExcess) :
    Overflows (starArgument args >>= fun p =>
        if fitsSigned limit p.1 then pure (g p) else throw d) e ↔
      BeginsBeyond limit args ∧ e = d := by
  rw [overflows_bind_iff, or_iff_right not_overflows_starArgument]
  constructor
  · rintro ⟨⟨i, rest⟩, hstar, h⟩
    obtain ⟨a, rfl, ha⟩ := starArgument_eq_ok_iff.1 hstar
    dsimp only at h
    split at h
    · exact absurd h (not_overflows_ok _)
    · rename_i hfits
      exact ⟨⟨a, rest, i, rfl, ha, Bool.eq_false_iff.2 hfits⟩, (overflows_error_iff.1 h).2⟩
  · rintro ⟨⟨a, rest, i, rfl, ha, hfits⟩, rfl⟩
    refine ⟨(i, rest), starArgument_eq_ok_iff.2 ⟨a, rfl, ha⟩, ?_⟩
    simp only [hfits]
    exact overflows_error_iff.2 ⟨hd, rfl⟩

theorem overflows_widthOf_iff {size : Size} :
    Overflows (widthOf size args) e ↔
      size = .fromArgument ∧ BeginsBeyond widthLimit args ∧ e = .starWidthTooLarge := by
  cases size with
  | fromArgument =>
      rw [eq_self, true_and]
      exact overflows_star_iff (g := id) trivial
  | absent | fixed n => exact ⟨fun h => absurd h (not_overflows_ok _), nofun⟩
  | tooBig => exact ⟨fun h => (overflows_error_iff.1 h).1.elim, nofun⟩

theorem overflows_precisionValueOf_iff {size : Size} :
    Overflows (precisionValueOf size args) e ↔
      size = .fromArgument ∧ BeginsBeyond precisionLimit args ∧ e = .starPrecisionTooLarge := by
  cases size with
  | fromArgument =>
      rw [eq_self, true_and]
      exact overflows_star_iff (g := fun p => (some p.1.toNat, p.2)) trivial
  | absent | fixed n => exact ⟨fun h => absurd h (not_overflows_ok _), nofun⟩
  | tooBig => exact ⟨fun h => (overflows_error_iff.1 h).1.elim, nofun⟩

variable [Machine]

theorem overflows_convert_iff :
    Overflows (convert f c position a) e ↔
      Exceeds f c a e ∨ (∃ shown, content f c position a = .ok shown) ∧
        Machine.fieldWidth < f.width ∧ e = .fieldTooLarge := by
  rw [convert, overflows_bind_iff, overflows_content_iff]
  refine or_congr_right ⟨?_, ?_⟩
  · rintro ⟨shown, hshown, h⟩
    split at h
    · rename_i hf
      rcases overflows_bind_iff.1 h with h | ⟨u, hthrow, -⟩
      · exact ⟨⟨shown, hshown⟩, hf, (overflows_error_iff.1 h).2⟩
      · cases hthrow
    · exact absurd h (not_overflows_ok _)
  · rintro ⟨⟨shown, hshown⟩, hf, rfl⟩
    refine ⟨shown, hshown, ?_⟩
    rw [if_pos hf]
    exact overflows_bind_iff.2 (.inl (overflows_error_iff.2 ⟨trivial, rfl⟩))

theorem FieldSpec.Takes.apply_eq (h : s.Takes args f c position a rest) :
    s.apply args = (convert f c position a).map fun t => (t, rest) := by
  obtain ⟨width, precision, middle, hwidth, hprecision, hs, rfl⟩ := h
  rw [FieldSpec.apply, hwidth, ok_bind]
  dsimp only
  rw [hprecision, ok_bind]
  dsimp only
  rw [hs]
  change (convert (s.sized width precision) c position a >>= fun t => pure (t, rest)) = _
  cases convert (s.sized width precision) c position a <;> rfl

theorem FieldSpec.overflows_apply_iff : Overflows (s.apply args) e ↔ s.Exceeds args e := by
  constructor
  · intro hall
    -- the sizes are taken first, and what they leave is known where the conversion is looked at
    have h := hall
    rw [FieldSpec.apply] at h
    rcases overflows_bind_iff.1 h with h | ⟨⟨width, middle⟩, hwidth, h⟩
    · obtain ⟨hs, hargs, rfl⟩ := overflows_widthOf_iff.1 h
      exact .starWidth hs hargs
    dsimp only at h
    rcases overflows_bind_iff.1 h with h | ⟨⟨precision, behind⟩, hprecision, h⟩
    · obtain ⟨hs, hmiddle, rfl⟩ := overflows_precisionValueOf_iff.1 h
      exact .starPrecision hwidth hs hmiddle
    dsimp only at h
    cases hs : s.conversion with
    | none =>
        rw [hs] at h
        exact (overflows_error_iff.1 h).1.elim
    | some conversion =>
        obtain ⟨c, position⟩ := conversion
        rw [hs] at h
        cases behind with
        | nil => exact (overflows_error_iff.1 h).1.elim
        | cons a rest =>
            have htakes : s.Takes args (s.sized width precision) c position a rest :=
              ⟨width, precision, middle, hwidth, hprecision, hs, rfl⟩
            rw [htakes.apply_eq, overflows_map_iff] at hall
            rcases overflows_convert_iff.1 hall with hexceeds | ⟨⟨shown, hshown⟩, hf, rfl⟩
            · exact .content htakes hexceeds
            · exact .width htakes hshown hf
  · intro h
    cases h with
    | starWidth hs hargs =>
        rw [FieldSpec.apply]
        exact overflows_bind_iff.2 (.inl (overflows_widthOf_iff.2 ⟨hs, hargs, rfl⟩))
    | starPrecision hwidth hs hrest =>
        rw [FieldSpec.apply, hwidth, ok_bind]
        exact overflows_bind_iff.2 (.inl (overflows_precisionValueOf_iff.2 ⟨hs, hrest, rfl⟩))
    | content htakes hexceeds =>
        rw [htakes.apply_eq, overflows_map_iff]
        exact overflows_convert_iff.2 (.inl hexceeds)
    | width htakes hshown hf =>
        rw [htakes.apply_eq, overflows_map_iff]
        exact overflows_convert_iff.2 (.inr ⟨⟨_, hshown⟩, hf, rfl⟩)

end Fields

section Formats

variable {items : List Item} {args rest : List Argument} {s : FieldSpec} {e : ConversionError}

/-- A letter behind a percent sign is a field of its own, unless it is a length. -/
theorem Item.ofText_letter {c : Char} (hc : c.isAlpha = true) (hlength : c ∉ ['h', 'l', 'L'])
    (total : Nat) (t : Text) :
    Item.ofText total ('%' :: c :: t) =
      .field ⟨[], .absent, .absent, some (c, total - t.length - 1)⟩ :: Item.ofText total t := by
  have hne : ∀ x : Char, x.isAlpha = false → c ≠ x := by
    rintro x hx rfl
    rw [hx] at hc
    cases hc
  have hflag : isFormatFlag c = false := by
    simp [isFormatFlag, hne '-' (by decide), hne '+' (by decide), hne ' ' (by decide),
      hne '#' (by decide), hne '0' (by decide)]
  have hdigit : isAsciiDigit c = false := by
    refine Bool.eq_false_iff.2 fun h => ?_
    rw [isAlpha_of_isAsciiDigit h] at hc
    cases hc
  have hflags : (c :: t).takeWhile isFormatFlag = [] :=
    List.takeWhile_cons_of_neg (by simp [hflag])
  have hunflagged : (c :: t).dropWhile isFormatFlag = c :: t :=
    List.dropWhile_cons_of_neg (by simp [hflag])
  have hdigits : (c :: t).takeWhile isAsciiDigit = [] :=
    List.takeWhile_cons_of_neg (by simp [hdigit])
  have hwidth : sizeOf widthLimit .absent (c :: t) = (.absent, c :: t) := by
    rw [sizeOf]
    · rw [hdigits]
      rfl
    · exact fun rest h => hne '*' (by decide) (List.cons.inj h).1
  have hprecision : precisionSizeOf (c :: t) = (.absent, c :: t) := by
    rw [precisionSizeOf]
    exact fun rest h => hne '.' (by decide) (List.cons.inj h).1
  have hletter : dropLength (c :: t) = c :: t := by
    rw [dropLength, if_neg (by simpa using hlength)]
  have hspec : FieldSpec.ofText total (c :: t) =
      (⟨[], .absent, .absent, some (c, total - t.length - 1)⟩, t) := by
    simp only [FieldSpec.ofText, hflags, hunflagged, hwidth, hprecision, hletter]
  rw [Item.ofText, if_pos rfl, List.head?_cons, if_neg, if_neg, hspec]
  · exact fun h => hne '(' (by decide) (Option.some.inj h)
  · exact fun h => hne '%' (by decide) (Option.some.inj h)

variable [Machine]

/-- Is the field among the items, and are the arguments those that the fields in front of it
leave? -/
inductive Reaches : List Item → List Argument → FieldSpec → List Argument → Prop
  | here {items : List Item} {args : List Argument} {s : FieldSpec} :
      Reaches (.field s :: items) args s args
  | literal {c : Char} {items : List Item} {args rest : List Argument} {s : FieldSpec}
      (h : Reaches items args s rest) : Reaches (.literal c :: items) args s rest
  | field {first s : FieldSpec} {items : List Item} {args middle rest : List Argument} {t : Text}
      (hfirst : first.apply args = .ok (t, middle)) (h : Reaches items middle s rest) :
      Reaches (.field first :: items) args s rest

/-- A format overflows at the first of its fields that is not shown. -/
theorem overflows_applyAll_iff :
    Overflows (Item.applyAll items args) e ↔
      ∃ s rest, Reaches items args s rest ∧ s.Exceeds rest e := by
  constructor
  · intro h
    induction items generalizing args with
    | nil =>
        cases args with
        | nil => exact absurd h (not_overflows_ok _)
        | cons a args => exact (overflows_error_iff.1 h).1.elim
    | cons item items ih =>
        cases item with
        | literal c =>
            obtain ⟨s, rest, hreach, hexceeds⟩ := ih (overflows_map_iff.1 h)
            exact ⟨s, rest, .literal hreach, hexceeds⟩
        | named => exact (overflows_error_iff.1 h).1.elim
        | field first =>
            rw [Item.applyAll] at h
            rcases overflows_bind_iff.1 h with h | ⟨⟨t, middle⟩, hfirst, h⟩
            · exact ⟨first, args, .here, FieldSpec.overflows_apply_iff.1 h⟩
            rcases overflows_bind_iff.1 h with h | ⟨tail, -, h⟩
            · obtain ⟨s, rest, hreach, hexceeds⟩ := ih h
              exact ⟨s, rest, .field hfirst hreach, hexceeds⟩
            · exact absurd h (not_overflows_ok _)
  · rintro ⟨s, rest, hreach, hexceeds⟩
    induction hreach with
    | here =>
        exact overflows_bind_iff.2 (.inl (FieldSpec.overflows_apply_iff.2 hexceeds))
    | literal _ ih => exact overflows_map_iff.2 (ih hexceeds)
    | field hfirst _ ih =>
        exact overflows_bind_iff.2 (.inr ⟨_, hfirst, overflows_bind_iff.2 (.inl (ih hexceeds))⟩)

end Formats

end Printf
end Phrasebook
