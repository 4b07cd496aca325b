import Phrasebook.Text.Quoted
import Phrasebook.Number.Numeral

/-!
# Locale tags

A locale tag names a language and optionally a region.  A tag with a region is more specific
than the tag of the same language without one.

**Regions.**  A region is a code such as `FR`; a foreign description of a locale may also
give it as a number or a truth value.  `LocaleTag.toText` leaves out a region that has no text.
-/

namespace Phrasebook

/-- Why a locale is refused. -/
inductive LocaleError
  | emptyLanguage
  | emptyIdentifier
  | notLetters (part : Text)
  | invalidIdentifier (identifier : Text)
  | notALocale (kind : String)
deriving DecidableEq, Repr

/-- The words for a refusal. -/
def LocaleError.message : LocaleError → String
  | .emptyLanguage => "Locale language subtag cannot be empty"
  | .emptyIdentifier => "Locale identifier cannot be empty"
  | .notLetters part =>
      let shown := String.ofList (Text.quoted part)
      s!"expected only letters, got {shown}"
  | .invalidIdentifier identifier =>
      let shown := String.ofList (Text.quoted identifier)
      s!"{shown} is not a valid locale identifier"
  | .notALocale kind => s!"Cannot interpret {kind} as a locale"

/-- The region of a locale. -/
inductive Region
  | code (t : Text)
  | number (n : Int)
  | truth (b : Bool)
deriving DecidableEq, Repr

/-- The text of a region. -/
def Region.toText : Region → Text
  | .code t => t
  | .number n => integerText n
  | .truth b => Text.ofTruth b

/-- Does a region say nothing? -/
def Region.isVoid : Region → Bool
  | .code t => t.isEmpty
  | .number n => n == 0
  | .truth b => !b

/-- A language, which has a text, and optionally a region. -/
structure LocaleTag where
  language : Text
  region : Option Region
  language_ne_nil : language ≠ []
deriving DecidableEq

namespace LocaleTag

/-- The tag of a language and a region, if the language has a text. -/
def ofParts (language : Text) (region : Option Region) : Except LocaleError LocaleTag :=
  if h : language = [] then .error .emptyLanguage else .ok ⟨language, region, h⟩

/-- The text of a tag. -/
def toText (tag : LocaleTag) : Text :=
  match tag.region with
  | none => tag.language
  | some region =>
      if region.isVoid then tag.language else tag.language ++ '_' :: region.toText

/-- Does the tag have a region? -/
def hasRegion (tag : LocaleTag) : Bool :=
  tag.region.isSome

/-- The tag without its region. -/
def languageOnly (tag : LocaleTag) : LocaleTag :=
  { tag with region := none }

/-- Does the first tag add a region to the language that the second one names alone? -/
def isMoreSpecificThan (tag other : LocaleTag) : Bool :=
  tag.language == other.language && tag.hasRegion && !other.hasRegion

@[simp] theorem languageOnly_language (tag : LocaleTag) :
    tag.languageOnly.language = tag.language := rfl

@[simp] theorem languageOnly_region (tag : LocaleTag) : tag.languageOnly.region = none := rfl

@[simp] theorem toText_languageOnly (tag : LocaleTag) :
    tag.languageOnly.toText = tag.language := rfl

end LocaleTag
end Phrasebook
