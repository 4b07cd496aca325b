import Mathlib
import Phrasebook.Text.Case

/-!
# Case in ASCII

What the case mappings do to texts of ASCII characters.

**Rows.**  The first row of either table has the letters of ASCII, and no other row reaches below
128 (`mapCase_cons`).
**Results.**  `lower_of_isAscii`, `upper_of_isAscii`: a text of ASCII characters is mapped character
by character, as core maps them.  A text that is in the case already is left as it is.
-/

namespace Phrasebook
namespace Text

/-- Are all characters of a text in ASCII? -/
def IsAscii (t : Text) : Prop :=
  ∀ c ∈ t, c.toNat < 128

section Letters

variable {c : Char}

theorem toNat_of_isLower (h : c.isLower = true) : 97 ≤ c.toNat ∧ c.toNat ≤ 122 := by
  simpa [Char.isLower, UInt32.le_iff_toNat_le] using h

theorem toNat_of_isUpper (h : c.isUpper = true) : 65 ≤ c.toNat ∧ c.toNat ≤ 90 := by
  simpa [Char.isUpper, UInt32.le_iff_toNat_le] using h

/-- What holds of all code points below 128 holds of the characters of ASCII. -/
theorem forall_ascii {p : Char → Prop} (h : ∀ n < 128, p (Char.ofNat n)) (hc : c.toNat < 128) :
    p c := by
  have hp := h c.toNat hc
  rwa [Char.ofNat_toNat] at hp

/-- Core's lower case of a character of ASCII, by its code point. -/
theorem toLower_eq (h : c.toNat < 128) :
    c.toLower = if 65 ≤ c.toNat ∧ c.toNat ≤ 90 then Char.ofNat (c.toNat + 32) else c :=
  forall_ascii (p := fun c =>
    c.toLower = if 65 ≤ c.toNat ∧ c.toNat ≤ 90 then Char.ofNat (c.toNat + 32) else c)
    (by decide) h

/-- Core's upper case of a character of ASCII, by its code point. -/
theorem toUpper_eq (h : c.toNat < 128) :
    c.toUpper = if 97 ≤ c.toNat ∧ c.toNat ≤ 122 then Char.ofNat (c.toNat - 32) else c :=
  forall_ascii (p := fun c =>
    c.toUpper = if 97 ≤ c.toNat ∧ c.toNat ≤ 122 then Char.ofNat (c.toNat - 32) else c)
    (by decide) h

theorem isLower_toLower (h : c.toNat < 128) :
    c.toLower.isAlpha = true → c.toLower.isLower = true :=
  forall_ascii (p := fun c => c.toLower.isAlpha = true → c.toLower.isLower = true) (by decide) h

theorem isUpper_toUpper (h : c.toNat < 128) : c.isAlpha = true → c.toUpper.isUpper = true :=
  forall_ascii (p := fun c => c.isAlpha = true → c.toUpper.isUpper = true) (by decide) h

end Letters

section Rows

variable {c : Char} {rows : List CaseRow}

theorem find?_maps_eq_none {n : Nat} (h : ∀ row ∈ rows, n < row.low) :
    rows.find? (fun row => row.maps n) = none := by
  refine List.find?_eq_none.2 fun row hrow => ?_
  have hlow := h row hrow
  simp only [CaseRow.maps, Bool.and_eq_true, decide_eq_true_eq, not_and]
  omega

/-- In front of rows beyond ASCII, the first row alone maps a character of ASCII. -/
theorem mapCase_cons {low high : Nat} {shift : Int} (hrows : ∀ row ∈ rows, 128 ≤ row.low)
    (h : c.toNat < 128) :
    mapCase (⟨low, high, 1, shift⟩ :: rows) c =
      if low ≤ c.toNat ∧ c.toNat ≤ high then Char.ofNat (c.toNat + shift).toNat else c := by
  have hrest : rows.find? (fun row => row.maps c.toNat) = none :=
    find?_maps_eq_none fun row hrow => Nat.lt_of_lt_of_le h (hrows row hrow)
  rw [mapCase, List.find?_cons, hrest]
  by_cases hrange : low ≤ c.toNat ∧ c.toNat ≤ high
  · have hmaps : CaseRow.maps ⟨low, high, 1, shift⟩ c.toNat = true := by
      simp [CaseRow.maps, hrange, Nat.mod_one]
    rw [if_pos hrange, hmaps]
  · have hmaps : CaseRow.maps ⟨low, high, 1, shift⟩ c.toNat = false := by
      simpa [CaseRow.maps, Nat.mod_one] using hrange
    rw [if_neg hrange, hmaps]

theorem mapCase_lowerRows (h : c.toNat < 128) : mapCase lowerRows c = c.toLower := by
  have hrows : ∀ row ∈ lowerRows.tail, 128 ≤ row.low := by
    decide +kernel
  have hsplit : lowerRows = ⟨0x41, 0x5a, 1, 32⟩ :: lowerRows.tail := rfl
  rw [hsplit, mapCase_cons hrows h, toLower_eq h]
  rfl

theorem mapCase_upperRows (h : c.toNat < 128) : mapCase upperRows c = c.toUpper := by
  have hrows : ∀ row ∈ upperRows.tail, 128 ≤ row.low := by
    decide +kernel
  have hsplit : upperRows = ⟨0x61, 0x7a, 1, -32⟩ :: upperRows.tail := rfl
  have hshift : ((c.toNat : Int) + -32).toNat = c.toNat - 32 := by
    omega
  rw [hsplit, mapCase_cons hrows h, toUpper_eq h, hshift]

/-- No character becomes nothing in upper case. -/
theorem upperChar_ne_nil (c : Char) : upperChar c ≠ [] := by
  have hcodes : ∀ e ∈ upperExpansions, e.2 ≠ [] := by
    decide +kernel
  unfold upperChar
  split
  · rename_i codes hlookup
    obtain ⟨front, behind, hentries, -⟩ := List.lookup_eq_some_iff.1 hlookup
    have hne : codes ≠ [] := hcodes (c.toNat, codes) (by simp [hentries])
    simpa using hne
  · exact List.cons_ne_nil _ _

end Rows

section Texts

variable {t : Text}

theorem upper_ne_nil (h : t ≠ []) : upper t ≠ [] := by
  cases t with
  | nil => exact absurd rfl h
  | cons c t =>
      rw [upper, List.flatMap_cons]
      exact List.append_ne_nil_of_left_ne_nil (upperChar_ne_nil c) _

theorem lower_of_isAscii (h : IsAscii t) : lower t = t.map Char.toLower := by
  have hfrom : ∀ front, lowerFrom front t = t.map Char.toLower := by
    induction t with
    | nil => exact fun _ => rfl
    | cons c t ih =>
        obtain ⟨hc, ht⟩ := List.forall_mem_cons.1 h
        intro front
        rw [lowerFrom, ih ht, lowerCharAt, if_neg (by omega), if_neg (by omega),
          mapCase_lowerRows hc]
        rfl
  exact hfrom []

theorem upper_of_isAscii (h : IsAscii t) : upper t = t.map Char.toUpper := by
  have hexpansions : ∀ e ∈ upperExpansions, 128 ≤ e.1 := by
    decide +kernel
  have hchar : ∀ c ∈ t, upperChar c = [c.toUpper] := by
    intro c hc
    have hnone : upperExpansions.lookup c.toNat = none := by
      refine List.lookup_eq_none_iff.2 fun e he => ?_
      have hbeyond := hexpansions e he
      have hascii := h c hc
      exact bne_iff_ne.2 (by omega)
    rw [upperChar, hnone, mapCase_upperRows (h c hc)]
  rw [upper, List.flatMap_congr hchar, List.map_eq_flatMap]

theorem lower_eq_self (h : ∀ c ∈ t, c.isLower = true) : lower t = t := by
  have hascii : IsAscii t := fun c hc => by
    have hrange := toNat_of_isLower (h c hc)
    omega
  rw [lower_of_isAscii hascii]
  have hsame : ∀ c ∈ t, c.toLower = id c := by
    intro c hc
    have hrange := toNat_of_isLower (h c hc)
    rw [toLower_eq (hascii c hc), if_neg (by omega), id]
  rw [List.map_congr_left hsame, List.map_id]

theorem upper_eq_self (h : ∀ c ∈ t, c.isUpper = true) : upper t = t := by
  have hascii : IsAscii t := fun c hc => by
    have hrange := toNat_of_isUpper (h c hc)
    omega
  rw [upper_of_isAscii hascii]
  have hsame : ∀ c ∈ t, c.toUpper = id c := by
    intro c hc
    have hrange := toNat_of_isUpper (h c hc)
    rw [toUpper_eq (hascii c hc), if_neg (by omega), id]
  rw [List.map_congr_left hsame, List.map_id]

end Texts

end Text
end Phrasebook
