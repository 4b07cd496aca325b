import Mathlib.Data.List.TakeWhile
import Phrasebook.Number.Numeral
import Phrasebook.Proofs.Text.Cutting

/-!
# Reading numerals

**ASCII digits.**  They are decimal digits, with the value that core gives them.
**Numerals.**  `readNumeral` reads a text of ASCII digits that is not too long, and so what
`decimalDigits` writes.
**Long numbers.**  `writeNumeral` fails from the first number on that has too many digits.
**Parts of a text.**  A text misreads if some run of digits in it is no numeral, and a legible
text does not.
-/

namespace Phrasebook

theorem toNat_of_isAsciiDigit {c : Char} (h : isAsciiDigit c = true) :
    48 ≤ c.toNat ∧ c.toNat ≤ 57 := by
  simp only [isAsciiDigit, Char.isDigit, Bool.and_eq_true, decide_eq_true_eq] at h
  exact h

theorem isBlank_of_isAsciiDigit {c : Char} (h : isAsciiDigit c = true) : isBlank c = false := by
  have hc := toNat_of_isAsciiDigit h
  simp only [isBlank, Bool.or_eq_false_iff, Bool.and_eq_false_iff, decide_eq_false_iff_not,
    beq_eq_false_iff_ne]
  omega

theorem isAlpha_of_isAsciiDigit {c : Char} (h : isAsciiDigit c = true) : c.isAlpha = false := by
  have hc := toNat_of_isAsciiDigit h
  rw [Bool.eq_false_iff]
  intro hletter
  delta Char.isAlpha Char.isUpper Char.isLower at hletter
  simp only [Bool.or_eq_true, Bool.and_eq_true, decide_eq_true_eq] at hletter
  rcases hletter with hupper | hlower
  · exact absurd (Nat.le_trans hupper.1 hc.2) (by decide)
  · exact absurd (Nat.le_trans hlower.1 hc.2) (by decide)

/-- The digits of ASCII come first among the decimal digits. -/
theorem decimalValue?_of_isAsciiDigit {c : Char} (h : isAsciiDigit c = true) :
    decimalValue? c = some (c.toNat - '0'.toNat) := by
  have hc := toNat_of_isAsciiDigit h
  rw [decimalValue?, decimalZeros, decimalValueFrom?, if_pos ⟨hc.1, by omega⟩]
  rfl

theorem isDecimal_of_isAsciiDigit {c : Char} (h : isAsciiDigit c = true) :
    isDecimal c = true := by
  rw [isDecimal, decimalValue?_of_isAsciiDigit h, Option.isSome_some]

theorem allIn_isDigit {t : Text} (hne : t ≠ []) (h : ∀ c ∈ t, isAsciiDigit c = true) :
    Text.allIn isDigit t = true := by
  rw [Text.allIn, Bool.and_eq_true, List.all_eq_true]
  refine ⟨by simpa using hne, fun c hc => ?_⟩
  rw [isDigit, isDecimal_of_isAsciiDigit (h c hc), Bool.true_or]

theorem trim_of_isAsciiDigit {t : Text} (h : ∀ c ∈ t, isAsciiDigit c = true) :
    Text.trim t = t :=
  Text.trim_of_forall_mem fun c hc => isBlank_of_isAsciiDigit (h c hc)

theorem decimalValueAfter_eq_ofDigitChars {t : Text} (h : ∀ c ∈ t, isAsciiDigit c = true)
    (value : Nat) : decimalValueAfter value t = Nat.ofDigitChars 10 t value := by
  induction t generalizing value with
  | nil => rfl
  | cons c t ih =>
      rw [decimalValueAfter, decimalValue?_of_isAsciiDigit (h c (List.mem_cons_self ..)),
        ih (fun x hx => h x (List.mem_cons_of_mem _ hx)), Nat.ofDigitChars_cons]
      rfl

theorem ofDigitChars_lt {t : Text} (h : ∀ c ∈ t, isAsciiDigit c = true) :
    Nat.ofDigitChars 10 t 0 < Nat.pow 10 t.length := by
  induction t with
  | nil => decide
  | cons c t ih =>
      obtain ⟨hc, ht⟩ := List.forall_mem_cons.1 h
      have hvalue : 10 * 0 + (c.toNat - '0'.toNat) ≤ 9 := by
        have hrange := toNat_of_isAsciiDigit hc
        simp only [Char.reduceToNat]
        omega
      rw [Nat.ofDigitChars_cons, Nat.ofDigitChars_eq_ofDigitChars_zero]
      calc
        10 ^ t.length * (10 * 0 + (c.toNat - '0'.toNat)) + Nat.ofDigitChars 10 t 0
          < 10 ^ t.length * 9 + 10 ^ t.length :=
            Nat.add_lt_add_of_le_of_lt (Nat.mul_le_mul_left _ hvalue) (ih ht)
        _ = 10 ^ (t.length + 1) := by rw [Nat.pow_succ]; omega

theorem takeWhile_isDecimal_of_isAsciiDigit {t : Text} (h : ∀ c ∈ t, isAsciiDigit c = true) :
    t.takeWhile isDecimal = t :=
  List.takeWhile_eq_self_iff.2 fun c hc => isDecimal_of_isAsciiDigit (h c hc)

theorem readNumeral_of_isAsciiDigit {t : Text} (hne : t ≠ [])
    (h : ∀ c ∈ t, isAsciiDigit c = true) (hlen : t.length ≤ digitLimit) :
    readNumeral t = .ok (Nat.ofDigitChars 10 t 0) := by
  have hall : Text.allIn isDecimal t = true := by
    simp only [Text.allIn, Bool.and_eq_true, List.all_eq_true]
    exact ⟨by simpa using hne, fun c hc => isDecimal_of_isAsciiDigit (h c hc)⟩
  rw [readNumeral]
  simp only [takeWhile_isDecimal_of_isAsciiDigit h]
  rw [if_neg (by omega), if_pos hall, decimalValueAfter_eq_ofDigitChars h]

/-- A text with too many digits is no numeral. -/
theorem readNumeral_of_digitLimit_lt {t : Text} (h : ∀ c ∈ t, isAsciiDigit c = true)
    (hlen : digitLimit < t.length) : readNumeral t = .error (.tooManyDigits t.length) := by
  rw [readNumeral]
  simp only [takeWhile_isDecimal_of_isAsciiDigit h]
  rw [if_pos hlen]

theorem isAsciiDigit_of_mem_decimalDigits {n : Nat} {c : Char} (h : c ∈ decimalDigits n) :
    isAsciiDigit c = true :=
  Nat.isDigit_of_mem_toDigits (by decide) (by decide) h

theorem decimalDigits_ne_nil (n : Nat) : decimalDigits n ≠ [] :=
  Nat.toDigits_ne_nil

theorem readNumeral_decimalDigits {n : Nat} (h : (decimalDigits n).length ≤ digitLimit) :
    readNumeral (decimalDigits n) = .ok n := by
  rw [readNumeral_of_isAsciiDigit (decimalDigits_ne_nil n)
    (fun _ hc => isAsciiDigit_of_mem_decimalDigits hc) h, decimalDigits,
    Nat.ofDigitChars_ten_toDigits]

section Writing

theorem length_decimalDigits_le_iff {k n : Nat} (hk : 0 < k) :
    (decimalDigits n).length ≤ k ↔ n < Nat.pow 10 k :=
  Nat.length_toDigits_le_iff (by decide) hk

theorem decimalDigits_succ_eq_cons (n : Nat) :
    ∃ first more, decimalDigits (n + 1) = first :: more ∧ first ≠ '0' := by
  obtain ⟨first, more, hdigits⟩ := List.exists_cons_of_ne_nil (decimalDigits_ne_nil (n + 1))
  refine ⟨first, more, hdigits, ?_⟩
  rintro rfl
  -- behind a zero the other digits are too few for the number
  have hmore : ∀ c ∈ more, isAsciiDigit c = true := fun c hc =>
    isAsciiDigit_of_mem_decimalDigits (hdigits ▸ List.mem_cons_of_mem _ hc)
  have hvalue : Nat.ofDigitChars 10 more 0 = n + 1 := by
    have hall := Nat.ofDigitChars_ten_toDigits (n := n + 1)
    change Nat.ofDigitChars 10 (decimalDigits (n + 1)) 0 = n + 1 at hall
    rw [hdigits, Nat.ofDigitChars_cons] at hall
    exact hall
  have hlt := ofDigitChars_lt hmore
  rw [hvalue] at hlt
  cases more with
  | nil => exact absurd hlt (by simp)
  | cons c more =>
      have hlength := (length_decimalDigits_le_iff (Nat.succ_pos _)).2 hlt
      rw [hdigits] at hlength
      exact absurd hlength (Nat.not_succ_le_self _)

theorem writeNumeral_eq_error_iff {i : Int} {e : NumeralError} :
    writeNumeral i = .error e ↔ Nat.pow 10 digitLimit ≤ i.natAbs ∧ e = .tooLong := by
  have hlength := @length_decimalDigits_le_iff digitLimit i.natAbs (by decide)
  rw [writeNumeral]
  split
  · rename_i hlong
    rw [← Nat.not_le, hlength, Nat.not_lt] at hlong
    exact ⟨fun h => ⟨hlong, (Except.error.inj h).symm⟩, fun h => congrArg Except.error h.2.symm⟩
  · rename_i hshort
    rw [Nat.not_lt, hlength] at hshort
    exact ⟨nofun, fun h => absurd hshort (Nat.not_lt.2 h.1)⟩

theorem writeNumeral_eq_ok {i : Int} (h : (decimalDigits i.natAbs).length ≤ digitLimit) :
    writeNumeral i = .ok (integerText i) := by
  rw [writeNumeral, if_neg (Nat.not_lt.2 h)]

/-- The text of a whole number is its sign and the digits of its magnitude. -/
theorem integerText_eq (i : Int) :
    integerText i = (if i < 0 then ['-'] else []) ++ decimalDigits i.natAbs := by
  cases i with
  | ofNat n =>
      have hn : ¬Int.ofNat n < 0 := Int.not_lt.2 (Int.natCast_nonneg n)
      rw [if_neg hn]
      rfl
  | negSucc n =>
      rw [if_pos (Int.negSucc_lt_zero n)]
      rfl

end Writing

section Legible

variable {s t : Text}

theorem readNumeral_eq_ok (hdecimal : Text.allIn isDecimal t = true)
    (hlength : t.length ≤ digitLimit) : ∃ n, readNumeral t = .ok n := by
  have hleading : (t.takeWhile isDecimal).length ≤ t.length :=
    List.IsPrefix.length_le <| List.takeWhile_prefix _
  refine ⟨decimalValueAfter 0 t, ?_⟩
  rw [readNumeral, if_neg (by omega), if_pos hdecimal]

/-- Does every run of digits in the text consist of decimal digits, and of no more of them than
a numeral may have? -/
def IsLegible (t : Text) : Prop :=
  ∀ digits, digits <:+: t → digits.all isDigit = true →
    digits.all isDecimal = true ∧ digits.length ≤ digitLimit

theorem isLegible_of_length_le (hdecimal : (t.all fun c => !isDigit c || isDecimal c) = true)
    (hlength : t.length ≤ digitLimit) : IsLegible t := by
  intro digits hpart hdigits
  have hmem : ∀ c ∈ digits, isDecimal c = true := by
    intro c hc
    have hc' := List.all_eq_true.1 hdecimal c (hpart.subset hc)
    rwa [List.all_eq_true.1 hdigits c hc] at hc'
  exact ⟨List.all_eq_true.2 hmem, Nat.le_trans hpart.length_le hlength⟩

theorem IsLegible.of_isInfix (h : IsLegible t) (hs : s <:+: t) : IsLegible s :=
  fun digits hdigits => h digits (hdigits.trans hs)

theorem IsLegible.readNumeral_eq_ok (h : IsLegible t) (hdigits : Text.allIn isDigit t = true) :
    ∃ n, readNumeral t = .ok n := by
  rw [Text.allIn, Bool.and_eq_true] at hdigits
  obtain ⟨hdecimal, hlength⟩ := h t List.infix_rfl hdigits.2
  refine Phrasebook.readNumeral_eq_ok ?_ hlength
  rw [Text.allIn, Bool.and_eq_true]
  exact ⟨hdigits.1, hdecimal⟩

/-- Is some run of digits in the text no numeral, for the given reason? -/
def Misreads (t : Text) (e : NumeralError) : Prop :=
  ∃ digits, digits <:+: t ∧ Text.allIn isDigit digits = true ∧ readNumeral digits = .error e

theorem Misreads.of_isInfix {e : NumeralError} (h : Misreads s e) (hs : s <:+: t) :
    Misreads t e := by
  obtain ⟨digits, hpart, hdigits, herror⟩ := h
  exact ⟨digits, hpart.trans hs, hdigits, herror⟩

theorem IsLegible.not_misreads {e : NumeralError} (h : IsLegible t) : ¬ Misreads t e := by
  rintro ⟨digits, hpart, hdigits, herror⟩
  obtain ⟨n, hn⟩ := (h.of_isInfix hpart).readNumeral_eq_ok hdigits
  rw [hn] at herror
  cases herror

end Legible

end Phrasebook
