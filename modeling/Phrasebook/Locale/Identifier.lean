import Phrasebook.Locale.Tag
import Phrasebook.Text.Blank
import Phrasebook.Text.Case
import Phrasebook.Text.Digit
import Phrasebook.Text.Letter

/-!
# Locale identifiers

Reading a tag from an identifier such as `fr`, `fr_FR`, `fr-FR`, `zh_Hant_TW` or
`fr_FR.UTF-8@euro`.

**Shape.**  A modifier behind `@` and an encoding behind a point are cut off.  Between
underscores stand the language, then optionally a script of four letters, a region of two
letters or three digits, and variants.  Script and variant do not become part of the tag.
**Foreign locales.**  `LocaleTag.coerce` also accepts tags and objects that have a language.
-/

namespace Phrasebook

/-- An identifier without blanks at its ends and with underscores for its hyphens. -/
def normalizeLocale (identifier : Text) : Text :=
  Text.replaceChar '-' '_' (Text.trim identifier)

namespace LocaleTag

/-- The parts behind a script, if there is one. -/
def dropScript : List Text → List Text
  | [] => []
  | part :: parts =>
      if part.length = 4 ∧ part.allIn isLetter then parts else part :: parts

/-- The region, if there is one, and the parts behind it. -/
def takeRegion : List Text → Option Text × List Text
  | [] => (none, [])
  | part :: parts =>
      if part.length = 2 ∧ part.allIn isLetter then (some (Text.upper part), parts)
      else if part.length = 3 ∧ part.allIn isDigit then (some part, parts)
      else (none, part :: parts)

/-- Can variants begin with the part? -/
def startsVariant (part : Text) : Bool :=
  match part with
  | [] => false
  | c :: _ => (part.length == 4 && isDigit c) || (decide (5 ≤ part.length) && isLetter c)

/-- The parts without the last one, if the first of them can begin a variant. -/
def dropVariant : List Text → List Text
  | [] => []
  | part :: parts => if startsVariant part then (part :: parts).dropLast else part :: parts

/-- The part of an identifier that names the locale. -/
def withoutModifiers (identifier : Text) : Text :=
  Text.before '.' (Text.before '@' identifier)

/-- The tag that a normalized identifier names, as Babel 2.18 reads it. -/
def ofNormalized (identifier : Text) : Except LocaleError LocaleTag :=
  let base := withoutModifiers identifier
  match Text.splitOn '_' base with
  | [] => .error .emptyLanguage
  | first :: parts =>
      let language := Text.lower first
      if language.allIn isLetter then
        let (region, rest) := takeRegion (dropScript parts)
        match dropVariant rest with
        | [] => ofParts language (region.map .code)
        | _ :: _ => .error (.invalidIdentifier base)
      else .error (.notLetters language)

/-- The tag that an identifier names. -/
def parse (identifier : Text) : Except LocaleError LocaleTag :=
  let normalized := normalizeLocale identifier
  if normalized.isEmpty then .error .emptyIdentifier else ofNormalized normalized

end LocaleTag

/-- What can be given for a locale: a tag, an identifier, an object with a language and
perhaps a territory, or something else of the given kind. -/
inductive LocaleLike
  | tag (t : LocaleTag)
  | identifier (t : Text)
  | described (language : Text) (territory : Option Region)
  | foreign (kind : String)

/-- A territory that says something. -/
def presentTerritory (territory : Option Region) : Option Region :=
  territory.filter (fun region => !region.isVoid)

/-- The tag of whatever is given for a locale. -/
def LocaleTag.coerce : LocaleLike → Except LocaleError LocaleTag
  | .tag t => .ok t
  | .identifier t => LocaleTag.parse t
  | .described language territory => LocaleTag.ofParts language (presentTerritory territory)
  | .foreign kind => .error (.notALocale kind)

end Phrasebook
