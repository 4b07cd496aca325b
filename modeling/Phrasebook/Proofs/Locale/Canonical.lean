import Mathlib
import Phrasebook.Locale.Identifier
import Phrasebook.Proofs.Number.Reading
import Phrasebook.Proofs.Text.Casing
import Phrasebook.Proofs.Text.Cutting

/-!
# Canonical identifiers

A language code in small letters, alone or with a region code behind an underscore, names the tag
that it spells.

**Parts.**  An identifier of letters, digits and underscores has no modifier, and what is between
its underscores is taken as it stands.
-/

namespace Phrasebook

/-- Small letters of ASCII, at least one. -/
def IsLanguageCode (t : Text) : Prop :=
  t ≠ [] ∧ ∀ c ∈ t, c.isLower = true

/-- Two capital letters or three digits of ASCII. -/
def IsRegionCode (t : Text) : Prop :=
  (t.length = 2 ∧ ∀ c ∈ t, c.isUpper = true) ∨ (t.length = 3 ∧ ∀ c ∈ t, isAsciiDigit c = true)

section Parts

/-- Is it a letter or digit of ASCII, or an underscore? -/
def isCodeChar (c : Char) : Bool :=
  c.isAlphanum || c == '_'

variable {c : Char} {t l r : Text}

theorem isBlank_of_isCodeChar (h : isCodeChar c = true) : isBlank c = false := by
  have hrange : (97 ≤ c.toNat ∧ c.toNat ≤ 122) ∨ (65 ≤ c.toNat ∧ c.toNat ≤ 90) ∨
      (48 ≤ c.toNat ∧ c.toNat ≤ 57) ∨ c.toNat = 95 := by
    simp only [isCodeChar, Char.isAlphanum, Char.isAlpha, Bool.or_eq_true, beq_iff_eq] at h
    rcases h with ((hupper | hlower) | hdigit) | rfl
    · exact .inr (.inl (Text.toNat_of_isUpper hupper))
    · exact .inl (Text.toNat_of_isLower hlower)
    · exact .inr (.inr (.inl (toNat_of_isAsciiDigit hdigit)))
    · exact .inr (.inr (.inr rfl))
  simp only [isBlank, Bool.or_eq_false_iff, Bool.and_eq_false_iff, decide_eq_false_iff_not,
    beq_eq_false_iff_ne]
  omega

/-- A character of another kind does not occur among those of a code. -/
theorem not_mem_code (h : t.all isCodeChar = true) (hc : isCodeChar c = false) : c ∉ t :=
  Text.not_mem_of_all h hc

theorem IsLanguageCode.all_isCodeChar (h : IsLanguageCode l) : l.all isCodeChar = true := by
  rw [List.all_eq_true]
  intro c hc
  simp [isCodeChar, Char.isAlphanum, Char.isAlpha, h.2 c hc]

theorem IsRegionCode.ne_nil (h : IsRegionCode r) : r ≠ [] := by
  rintro rfl
  rcases h with ⟨hlength, -⟩ | ⟨hlength, -⟩ <;> cases hlength

theorem IsRegionCode.all_isAlphanum (h : IsRegionCode r) : r.all Char.isAlphanum = true := by
  rw [List.all_eq_true]
  intro c hc
  rcases h with ⟨-, h⟩ | ⟨-, h⟩
  · simp [Char.isAlphanum, Char.isAlpha, h c hc]
  · have hdigit : c.isDigit = true := h c hc
    simp [Char.isAlphanum, hdigit]

theorem normalizeLocale_code (h : t.all isCodeChar = true) : normalizeLocale t = t := by
  have hblank : ∀ c ∈ t, isBlank c = false :=
    fun c hc => isBlank_of_isCodeChar (List.all_eq_true.1 h c hc)
  rw [normalizeLocale, Text.trim_of_forall_mem hblank]
  have hkept : ∀ c ∈ t, (if c = '-' then '_' else c) = id c := by
    intro c hc
    refine if_neg ?_
    rintro rfl
    exact not_mem_code h rfl hc
  rw [Text.replaceChar, List.map_congr_left hkept, List.map_id]

theorem withoutModifiers_code (h : t.all isCodeChar = true) :
    LocaleTag.withoutModifiers t = t := by
  rw [LocaleTag.withoutModifiers, Text.before_of_not_mem (not_mem_code h rfl),
    Text.before_of_not_mem (not_mem_code h rfl)]

theorem parse_code (h : t.all isCodeChar = true) (hne : t ≠ []) :
    LocaleTag.parse t = LocaleTag.ofNormalized t := by
  rw [LocaleTag.parse, normalizeLocale_code h]
  exact if_neg (by simpa using hne)

theorem IsLanguageCode.allIn_isLetter (h : IsLanguageCode l) :
    Text.allIn isLetter l = true := by
  rw [Text.allIn, Bool.and_eq_true, List.all_eq_true]
  refine ⟨by simpa using h.1, fun c hc => ?_⟩
  have hrange := Text.toNat_of_isLower (h.2 c hc)
  rw [isLetter_of_ascii (by omega), Char.isAlpha, h.2 c hc, Bool.or_true]

theorem IsRegionCode.takeRegion_eq (h : IsRegionCode r) :
    LocaleTag.takeRegion (LocaleTag.dropScript [r]) = (some r, []) := by
  have hscript : LocaleTag.dropScript [r] = [r] := by
    rw [LocaleTag.dropScript, if_neg]
    rintro ⟨hlength, -⟩
    rcases h with ⟨h, -⟩ | ⟨h, -⟩ <;> omega
  have hne := h.ne_nil
  rw [hscript, LocaleTag.takeRegion]
  rcases h with ⟨hlength, hupper⟩ | ⟨hlength, hdigit⟩
  · have hletters : Text.allIn isLetter r = true := by
      rw [Text.allIn, Bool.and_eq_true, List.all_eq_true]
      refine ⟨by simpa using hne, fun c hc => ?_⟩
      have hrange := Text.toNat_of_isUpper (hupper c hc)
      rw [isLetter_of_ascii (by omega), Char.isAlpha, hupper c hc, Bool.true_or]
    rw [if_pos ⟨hlength, hletters⟩, Text.upper_eq_self hupper]
  · rw [if_neg (by omega), if_pos ⟨hlength, allIn_isDigit hne hdigit⟩]

/-- A language code in front of parts that are a region or nothing. -/
theorem parse_parts {parts : List Text} {region : Option Text} (hl : IsLanguageCode l)
    (hcode : t.all isCodeChar = true) (hparts : Text.splitOn '_' t = l :: parts)
    (hregion : LocaleTag.takeRegion (LocaleTag.dropScript parts) = (region, [])) :
    LocaleTag.parse t = .ok ⟨l, region.map .code, hl.1⟩ := by
  have hne : t ≠ [] := by
    rintro rfl
    exact hl.1 (List.cons.inj hparts).1.symm
  rw [parse_code hcode hne, LocaleTag.ofNormalized, withoutModifiers_code hcode, hparts]
  simp only [Text.lower_eq_self hl.2, hl.allIn_isLetter, if_true, hregion]
  exact dif_neg hl.1

theorem IsLanguageCode.not_mem (h : IsLanguageCode l) : '_' ∉ l :=
  fun hmem => absurd (h.2 _ hmem) (by decide)

theorem parse_language (h : IsLanguageCode l) : LocaleTag.parse l = .ok ⟨l, none, h.1⟩ :=
  parse_parts h h.all_isCodeChar (Text.splitOn_of_not_mem h.not_mem) rfl

theorem all_isCodeChar_regional (hl : IsLanguageCode l) (hr : IsRegionCode r) :
    (l ++ '_' :: r).all isCodeChar = true := by
  have hregion : r.all isCodeChar = true := List.all_eq_true.2 fun c hc => by
    rw [isCodeChar, List.all_eq_true.1 hr.all_isAlphanum c hc, Bool.true_or]
  rw [List.all_append, List.all_cons, hl.all_isCodeChar, hregion]
  rfl

theorem parse_regional (hl : IsLanguageCode l) (hr : IsRegionCode r) :
    LocaleTag.parse (l ++ '_' :: r) = .ok ⟨l, some (.code r), hl.1⟩ := by
  have hplain : '_' ∉ r := Text.not_mem_of_all hr.all_isAlphanum (by decide)
  refine parse_parts hl (all_isCodeChar_regional hl hr) ?_ hr.takeRegion_eq
  rw [Text.splitOn_append_cons, Text.splitOn_of_not_mem hl.not_mem,
    Text.splitOn_of_not_mem hplain]
  rfl

end Parts

end Phrasebook
