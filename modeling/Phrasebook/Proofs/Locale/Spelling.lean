import Mathlib
import Phrasebook.Proofs.Locale.Canonical

/-!
# The texts of tags

What the tags look like that are read from identifiers, and what their texts say.

**Reading.**  `parse_spells` takes a tag back to the parts of its identifier: one that spells the
language, and perhaps one that spells the region.
**Printing.**  A language has no underscore and a region has a text, so that tags that are read from
identifiers are told apart by their texts (`IsSpelled.toText_eq_iff`).
**Result.**  `parse_toText_of_parse`: in ASCII the text of a tag spells the tag again, and it does
not matter whether hyphens or underscores stand between the parts of an identifier.
-/

namespace Phrasebook
namespace LocaleTag

open Text (IsAscii)

variable {identifier : Text} {tag : LocaleTag}

section Reading

variable {parts : List Text} {part code : Text}

/-- Does a part of an identifier spell the region: as two letters in whichever case, or as three
digits? -/
inductive SpellsRegion (part : Text) : Text → Prop
  | letters : part.length = 2 → Text.allIn isLetter part = true →
      SpellsRegion part (Text.upper part)
  | digits : part.length = 3 → Text.allIn isDigit part = true → SpellsRegion part part

theorem SpellsRegion.ne_nil (h : SpellsRegion part code) : code ≠ [] := by
  cases h with
  | letters hlength _ =>
      refine Text.upper_ne_nil ?_
      rintro rfl
      cases hlength
  | digits hlength _ =>
      rintro rfl
      cases hlength

theorem mem_of_mem_dropScript (h : part ∈ dropScript parts) : part ∈ parts := by
  cases parts with
  | nil => exact h
  | cons first parts =>
      rw [dropScript] at h
      split at h
      · exact List.mem_cons_of_mem first h
      · exact h

theorem exists_spellsRegion (h : (takeRegion parts).1 = some code) :
    ∃ part ∈ parts, SpellsRegion part code := by
  cases parts with
  | nil => cases h
  | cons part parts =>
      refine ⟨part, List.mem_cons_self, ?_⟩
      rw [takeRegion] at h
      split at h
      · rename_i hletters
        cases h
        exact .letters hletters.1 hletters.2
      · split at h
        · rename_i hdigits
          cases h
          exact .digits hdigits.1 hdigits.2
        · cases h

theorem ofNormalized_spells (h : ofNormalized identifier = .ok tag) :
    ∃ first parts, Text.splitOn '_' (withoutModifiers identifier) = first :: parts ∧
      tag.language = Text.lower first ∧ Text.allIn isLetter tag.language = true ∧
      ∀ region ∈ tag.region, ∃ part ∈ parts, ∃ code, SpellsRegion part code ∧
        region = .code code := by
  unfold ofNormalized at h
  dsimp only at h
  split at h
  · cases h
  · rename_i first parts hsplit
    refine ⟨first, parts, hsplit, ?_⟩
    split at h
    · rename_i hletters
      split at h
      · unfold ofParts at h
        split at h
        · cases h
        · cases h
          refine ⟨rfl, hletters, fun region hregion => ?_⟩
          obtain ⟨code, hcode, rfl⟩ := Option.map_eq_some_iff.1 hregion
          obtain ⟨part, hpart, hspells⟩ := exists_spellsRegion hcode
          exact ⟨part, mem_of_mem_dropScript hpart, code, hspells, rfl⟩
      · cases h
    · cases h

/-- The language of a tag is the first part of its identifier in lower case, and its region is what
a later part spells. -/
theorem parse_spells (h : parse identifier = .ok tag) :
    ∃ first parts,
      Text.splitOn '_' (withoutModifiers (normalizeLocale identifier)) = first :: parts ∧
      tag.language = Text.lower first ∧ Text.allIn isLetter tag.language = true ∧
      ∀ region ∈ tag.region, ∃ part ∈ parts, ∃ code, SpellsRegion part code ∧
        region = .code code := by
  unfold parse at h
  dsimp only at h
  split at h
  · cases h
  · exact ofNormalized_spells h

end Reading

section Printing

variable {other : LocaleTag}

/-- Is the language made of letters, and the region, if there is one, a code that has a text? -/
structure IsSpelled (tag : LocaleTag) : Prop where
  letters : Text.allIn isLetter tag.language = true
  code : ∀ region ∈ tag.region, ∃ code, code ≠ [] ∧ region = .code code

theorem isSpelled_of_parse (h : parse identifier = .ok tag) : tag.IsSpelled := by
  obtain ⟨first, parts, -, -, hletters, hregion⟩ := parse_spells h
  refine ⟨hletters, fun region hmem => ?_⟩
  obtain ⟨part, -, code, hspells, hcode⟩ := hregion region hmem
  exact ⟨code, hspells.ne_nil, hcode⟩

theorem IsSpelled.not_mem (h : tag.IsSpelled) : '_' ∉ tag.language :=
  Text.not_mem_of_all (Bool.and_eq_true_iff.1 h.letters).2 (by decide)

theorem IsSpelled.languageOnly (h : tag.IsSpelled) : tag.languageOnly.IsSpelled :=
  ⟨h.letters, nofun⟩

theorem toText_code {language code : Text} (hlanguage : language ≠ []) (hcode : code ≠ []) :
    (mk language (some (.code code)) hlanguage).toText = language ++ '_' :: code := by
  simp [toText, Region.isVoid, Region.toText, hcode]

/-- The text of a tag in front of the first underscore is the language, and the one behind it the
region. -/
theorem IsSpelled.cut_toText (h : tag.IsSpelled) :
    Text.before '_' tag.toText = tag.language ∧
      (Text.after? '_' tag.toText).map .code = tag.region := by
  have hplain := h.not_mem
  obtain ⟨language, region, hlanguage⟩ := tag
  cases region with
  | none =>
      exact ⟨Text.before_of_not_mem hplain, by rw [toText, Text.after?_of_not_mem hplain]; rfl⟩
  | some region =>
      obtain ⟨code, hcode, rfl⟩ := h.code region rfl
      rw [toText_code hlanguage hcode]
      exact ⟨Text.before_append hplain, by rw [Text.after?_append hplain]; rfl⟩

/-- Tags that are read from identifiers have different texts. -/
theorem IsSpelled.toText_eq_iff (h : tag.IsSpelled) (hother : other.IsSpelled) :
    tag.toText = other.toText ↔ tag = other := by
  refine ⟨fun htext => ?_, congrArg toText⟩
  have hlanguage : tag.language = other.language := by
    rw [← h.cut_toText.1, htext, hother.cut_toText.1]
  have hregion : tag.region = other.region := by
    rw [← h.cut_toText.2, htext, hother.cut_toText.2]
  cases tag
  cases other
  cases hlanguage
  cases hregion
  rfl

end Printing

section Ascii

variable {t part code : Text}

theorem isAscii_normalizeLocale (h : IsAscii t) : IsAscii (normalizeLocale t) := by
  intro c hc
  obtain ⟨d, hd, rfl⟩ := List.mem_map.1 hc
  split
  · decide
  · exact h d ((Text.isInfix_trim t).subset hd)

theorem isAscii_of_isInfix (h : IsAscii t) (hpart : part <:+: t) : IsAscii part :=
  fun c hc => h c (hpart.subset hc)

theorem isInfix_withoutModifiers (t : Text) : withoutModifiers t <:+: t :=
  (Text.isInfix_before '.' _).trans (Text.isInfix_before '@' t)

theorem isLanguageCode_lower (h : IsAscii t)
    (hletters : Text.allIn isLetter (Text.lower t) = true) :
    IsLanguageCode (Text.lower t) := by
  obtain ⟨hne, hall⟩ := Bool.and_eq_true_iff.1 hletters
  refine ⟨by simpa using hne, ?_⟩
  rw [Text.lower_of_isAscii h] at hall ⊢
  intro c hc
  have hletter := List.all_eq_true.1 hall c hc
  obtain ⟨d, hd, rfl⟩ := List.mem_map.1 hc
  have hsmall : d.toLower.toNat < 128 :=
    Text.forall_ascii (p := fun c => c.toLower.toNat < 128) (by decide) (h d hd)
  rw [isLetter_of_ascii hsmall] at hletter
  exact Text.isLower_toLower (h d hd) hletter

theorem SpellsRegion.isRegionCode (h : SpellsRegion part code) (hascii : IsAscii part) :
    IsRegionCode code := by
  cases h with
  | letters hlength hletters =>
      rw [Text.upper_of_isAscii hascii]
      refine .inl ⟨by rwa [List.length_map], fun c hc => ?_⟩
      obtain ⟨d, hd, rfl⟩ := List.mem_map.1 hc
      have hletter := List.all_eq_true.1 (Bool.and_eq_true_iff.1 hletters).2 d hd
      rw [isLetter_of_ascii (hascii d hd)] at hletter
      exact Text.isUpper_toUpper (hascii d hd) hletter
  | digits hlength hdigits =>
      refine .inr ⟨hlength, fun c hc => ?_⟩
      have hdigit := List.all_eq_true.1 (Bool.and_eq_true_iff.1 hdigits).2 c hc
      exact Text.forall_ascii (p := fun c => isDigit c = true → isAsciiDigit c = true)
        (by decide +kernel) (hascii c hc) hdigit

/-- Identifiers in ASCII name languages by small letters and regions by their codes. -/
theorem codes_of_parse (hascii : IsAscii identifier) (h : parse identifier = .ok tag) :
    IsLanguageCode tag.language ∧
      ∀ region ∈ tag.region, ∃ code, IsRegionCode code ∧ region = .code code := by
  obtain ⟨first, parts, hsplit, hlanguage, hletters, hregion⟩ := parse_spells h
  have hpart : ∀ part ∈ first :: parts, IsAscii part := by
    intro part hpart
    rw [← hsplit] at hpart
    exact isAscii_of_isInfix (isAscii_normalizeLocale hascii)
      ((Text.isInfix_of_mem_splitOn hpart).trans (isInfix_withoutModifiers _))
  constructor
  · rw [hlanguage] at hletters ⊢
    exact isLanguageCode_lower (hpart first List.mem_cons_self) hletters
  · intro region hmem
    obtain ⟨part, hlater, code, hspells, hcode⟩ := hregion region hmem
    exact ⟨code, hspells.isRegionCode (hpart part (List.mem_cons_of_mem first hlater)), hcode⟩

end Ascii

section Results

/-- Hyphens for the underscores of an identifier make no difference. -/
theorem normalizeLocale_hyphens (t : Text) :
    normalizeLocale (Text.replaceChar '_' '-' t) = normalizeLocale t := by
  have hblank : ∀ c : Char, isBlank (if c = '_' then '-' else c) = isBlank c := by
    intro c
    split
    · rename_i hc
      rw [hc]
      rfl
    · rfl
  have htwice : ∀ c : Char, (if (if c = '_' then '-' else c) = '-' then '_' else
      if c = '_' then '-' else c) = if c = '-' then '_' else c := by
    intro c
    by_cases hc : c = '_'
    · simp [hc]
    · simp [hc]
  rw [normalizeLocale, normalizeLocale, Text.replaceChar, Text.replaceChar, Text.trim_map hblank,
    List.map_map]
  exact List.map_congr_left fun c _ => htwice c

/-- What an identifier in ASCII names is named by the text of the tag as well, and by the identifier
with hyphens for its underscores. -/
theorem parse_toText_of_parse (hascii : IsAscii identifier) (h : parse identifier = .ok tag) :
    parse tag.toText = .ok tag ∧ parse (Text.replaceChar '_' '-' identifier) = .ok tag := by
  constructor
  · obtain ⟨hlanguage, hregion⟩ := codes_of_parse hascii h
    obtain ⟨language, region, hne⟩ := tag
    cases region with
    | none => exact parse_language hlanguage
    | some region =>
        obtain ⟨code, hcode, rfl⟩ := hregion region rfl
        rw [toText_code hne hcode.ne_nil]
        exact parse_regional hlanguage hcode
  · rw [parse, normalizeLocale_hyphens]
    exact h

/-- A language in capital letters, a script, a region in small letters, a variant, an encoding and a
modifier. -/
theorem parse_toText_of_parse_full :
    let identifier : Text := " ZH_Hant-tw_pinyin.UTF-8@x_y ".toList
    ∃ tag, IsAscii identifier ∧ parse identifier = .ok tag ∧ tag.toText = "zh_TW".toList ∧
      parse "zh_TW".toList = .ok tag ∧
      parse " ZH-Hant-tw-pinyin.UTF-8@x-y ".toList = .ok tag := by
  intro identifier
  have hascii : IsAscii identifier := by
    simp [IsAscii, identifier]
  have htag : parse identifier = .ok ⟨"zh".toList, some (.code "TW".toList), by decide⟩ := by
    simp only [identifier]
    cbv
  obtain ⟨htext, hhyphens⟩ := parse_toText_of_parse hascii htag
  exact ⟨_, hascii, htag, rfl, htext, hhyphens⟩

end Results

end LocaleTag
end Phrasebook
