import Phrasebook.Locale.Identifier
import Phrasebook.Plural.Formula

/-!
# Plural formulas of languages

The number of categories and the plural expression that are customary for a language, for
files that do not declare their own: those of Babel 2.18.  A tag with a region may have an entry
of its own; a language without entry has two categories.
-/

namespace Phrasebook
namespace Plural

/-- The customary plural expression of some languages. -/
structure LanguageEntry where
  tags : List String
  categories : Nat
  expression : String

/-- The entries of the languages. -/
def languageEntries : List LanguageEntry := [
  ⟨["bo", "cv", "dz", "fa", "hu", "hy", "ja", "ka", "km", "ko", "lo", "th", "tr", "vi", "zh"], 1,
    "0"⟩,
    ⟨["af", "bg", "bn", "ca", "da", "de", "el", "en", "eo", "es", "et", "eu", "fi", "gl", "ha",
    "he", "hi", "it", "kg", "ku", "nb", "nl", "nn", "no", "pa", "pt", "st", "sv", "ve", "xh"],
    2,
    "(n != 1)"⟩,
  ⟨["fr", "fur", "pt_BR"], 2,
    "(n > 1)"⟩,
  ⟨["is"], 2,
    "(n%10==1 && n%100!=11 ? 0 : 1)"⟩,
  ⟨["cs", "sk"], 3,
    "((n==1) ? 0 : (n>=2 && n<=4) ? 1 : 2)"⟩,
  ⟨["lv"], 3,
    "(n%10==1 && n%100!=11 ? 0 : n != 0 ? 1 : 2)"⟩,
  ⟨["lt"], 3,
    "(n%10==1 && n%100!=11 ? 0 : n%10>=2 && (n%100<10 || n%100>=20) ? 1 : 2)"⟩,
  ⟨["be", "bs", "hr", "ru", "sr", "uk"], 3,
    "(n%10==1 && n%100!=11 ? 0 : n%10>=2 && n%10<=4 && (n%100<10 || n%100>=20) ? 1 : 2)"⟩,
  ⟨["ro"], 3,
    "(n==1 ? 0 : (n==0 || (n%100 > 0 && n%100 < 20)) ? 1 : 2)"⟩,
  ⟨["pl"], 3,
    "(n==1 ? 0 : n%10>=2 && n%10<=4 && (n%100<10 || n%100>=20) ? 1 : 2)"⟩,
  ⟨["sl"], 4,
    "(n%100==1 ? 0 : n%100==2 ? 1 : n%100==3 || n%100==4 ? 2 : 3)"⟩,
  ⟨["mt"], 4,
    "(n==1 ? 0 : n==0 || ( n%100>=1 && n%100<=10) ? 1 : (n%100>10 && n%100<20 ) ? 2 : 3)"⟩,
  ⟨["ga"], 5,
    "(n==1 ? 0 : n==2 ? 1 : n>=3 && n<=6 ? 2 : n>=7 && n<=10 ? 3 : 4)"⟩,
  ⟨["cy"], 5,
    "(n==1 ? 1 : n==2 ? 2 : n==3 ? 3 : n==6 ? 4 : 0)"⟩,
  ⟨["ar"], 6,
    "(n==0 ? 0 : n==1 ? 1 : n==2 ? 2 : n%100>=3 && n%100<=10 ? 3 : n%100>=0 && n%100<=2 ? 4 : 5)"⟩,
  ⟨["br"], 6,
    "(n==1 ? 0 : n%10==1 && n%100!=11 && n%100!=71 && n%100!=91 ? 1 : n%10==2 && n%100!=12 && n%100!=72 && n%100!=92 ? 2 : (n%10==3 || n%10==4 || n%10==9) && n%100!=13 && n%100!=14 && n%100!=19 && n%100!=73 && n%100!=74 && n%100!=79 && n%100!=93 && n%100!=94 && n%100!=99 ? 3 : n%1000000==0 ? 4 : 5)"⟩]

/-- The entry of languages that have none. -/
def defaultEntry : LanguageEntry :=
  ⟨[], 2, "(n != 1)"⟩

/-- The entry for the text of a tag. -/
def entryFor? (tag : Text) : Option LanguageEntry :=
  languageEntries.find? (fun entry => entry.tags.contains (String.ofList tag))

/-- The entry for a tag: that of the whole tag, else that of its language. -/
def entryOf (tag : LocaleTag) : LanguageEntry :=
  match entryFor? tag.toText with
  | some entry => entry
  | none => (entryFor? tag.language).getD defaultEntry

/-- Does an identifier consist of a language, a region and a modifier? -/
def isModifiedRegion (identifier : Text) : Bool :=
  (Text.splitOn '_' (LocaleTag.withoutModifiers identifier)).length == 2 &&
    (Text.after? '@' identifier).any (fun modifier => !modifier.isEmpty)

/-- The entry for an identifier of a tag.  A region with a modifier is not the region that an
entry names. -/
def entryFor (identifier : Text) (tag : LocaleTag) : LanguageEntry :=
  entryOf (if isModifiedRegion identifier then tag.languageOnly else tag)

/-- Why a locale has no formula. -/
inductive LocaleFormulaError
  | locale (e : LocaleError)
  | formula (e : FormulaError)

/-- The customary formula of a locale; the text of its tag has to be an identifier as it
stands, without blanks or hyphens. -/
def Formula.ofLocale [Machine] (locale : LocaleLike) : Except LocaleFormulaError Formula := do
  let tag ← (LocaleTag.coerce locale).mapError .locale
  let canonical ← (LocaleTag.ofNormalized tag.toText).mapError .locale
  let entry := entryFor tag.toText canonical
  (Formula.ofExpression entry.expression.toList (some entry.categories)).mapError .formula

end Plural
end Phrasebook
