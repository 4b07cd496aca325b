import Phrasebook.Number.Numeral
import Phrasebook.Text.Blank
import Phrasebook.Text.Escape

/-!
# Lines of a catalog file

What single lines say: the payload between quotes, the category of a plural value, and
the language that a header declares.
-/

namespace Phrasebook
namespace Po

/-- The word that begins a key. -/
def keyWord : Text := "msgid".toList

/-- The word that begins a key for plural values. -/
def pluralKeyWord : Text := "msgid_plural".toList

/-- The word that begins a value. -/
def valueWord : Text := "msgstr".toList

/-- The word that begins a context. -/
def contextWord : Text := "msgctxt".toList

/-- The line of an empty key. -/
def emptyKeyLine : Text := "msgid \"\"".toList

/-- The line of an empty value. -/
def emptyValueLine : Text := "msgstr \"\"".toList

/-- How the header field with the plural formula begins. -/
def formulaField : Text := "\"Plural-Forms:".toList

/-- How the header field with the language begins. -/
def languageField : Text := "\"Language:".toList

/-- The name of the header field with the language. -/
def languageName : Text := "Language".toList

/-- What is wrong with a line. -/
inductive Problem
  | noQuotedString
  | noCategory
  | badCategory (shown : Text)
  | unknownDirective
  | stated (words : Text)
deriving DecidableEq, Repr

/-- The words for a problem. -/
def Problem.message : Problem → String
  | .noQuotedString => "Expected a quoted string"
  | .noCategory => "Expected msgstr[N] in plural entry"
  | .badCategory text =>
      let shown := String.ofList (Text.quoted text)
      s!"Invalid plural index {shown}"
  | .unknownDirective => "Unknown directive"
  | .stated words => String.ofList words

/-- Why a line cannot be used: it is malformed, or it has a number that cannot be read. -/
inductive LineError
  | malformed (problem : Problem)
  | numeral (e : NumeralError)
deriving DecidableEq, Repr

/-- The text between the first and the last quote of a line, with its escapes resolved. -/
def payload (line : Text) : Except LineError Text :=
  match (Text.after? '"' line).bind (Text.beforeLast? '"') with
  | some quoted => .ok (Text.unescape quoted)
  | none => .error (.malformed .noQuotedString)

/-- The text between the first bracket, which stands in front of all quotes, and the one that
closes it. -/
def bracketed? (line : Text) : Option Text :=
  match Text.after? '[' line with
  | none => none
  | some rest =>
      if (Text.before '[' line).contains '"' then none
      else if rest.contains ']' then some (Text.before ']' rest)
      else none

/-- The category of a plural value. -/
def category (line : Text) : Except LineError Nat :=
  match bracketed? line with
  | none => .error (.malformed .noCategory)
  | some inner =>
      let text := Text.trim inner
      if text.allIn isDigit then (readNumeral text).mapError .numeral
      else .error (.malformed (.badCategory text))

/-- The text without the escapes of a line feed. -/
def withoutEscapedFeeds : Text → Text
  | [] => []
  | [c] => [c]
  | c :: d :: rest =>
      if c = '\\' ∧ d = 'n' then withoutEscapedFeeds rest
      else c :: withoutEscapedFeeds (d :: rest)

/-- The language that a header line declares behind its colon; blanks inside do not count. -/
def declaredLanguage? (line : Text) : Option Text :=
  (Text.after? ':' line).map fun value =>
    (withoutEscapedFeeds (Text.dropSuffix value ['"'])).filter (fun c => c != ' ' && c != '\t')

end Po
end Phrasebook
