import Phrasebook.Locale.Identifier

/-!
# The locale of the system

The locale is asked of the operating system first and then of the environment variables
`LC_ALL`, `LC_MESSAGES` and `LANG`.  The first answer counts that is neither empty nor the
name of a pseudo-locale; its encoding is cut off.

**Failure.**  A query that is refused counts as no answer.  Any other fault `φ` of the query
is passed on.
-/

namespace Phrasebook

universe u

/-- What the operating system says about its locale. -/
inductive SystemAnswer (φ : Type u)
  | answered (locale : Option Text)
  | refused
  | faulted (fault : φ)

/-- What the locale of the system is read from. -/
structure Environment (φ : Type u) where
  system : SystemAnswer φ
  lcAll : Option Text
  lcMessages : Option Text
  lang : Option Text

/-- Why the locale of the system is not known. -/
inductive SystemLocaleError (φ : Type u)
  | undetermined
  | faulted (fault : φ)

/-- The words for an unknown locale of the system. -/
def undeterminedMessage : String :=
  "Could not determine system locale. Set LC_ALL, LC_MESSAGES, or LANG environment variable."

namespace Environment

variable {φ : Type u}

/-- The names that stand for no locale. -/
def isPseudoLocale (name : Text) : Bool :=
  name == ['C'] || name == "POSIX".toList

/-- A value that names a locale, without its encoding. -/
def usable (value : Option Text) : Option Text :=
  match value with
  | none => none
  | some name =>
      if name.isEmpty || isPseudoLocale name then none
      else some (normalizeLocale (Text.before '.' name))

/-- The values of the variables that name a locale, in the order in which they count. -/
def variableValues (env : Environment φ) : List (Option Text) :=
  [env.lcAll, env.lcMessages, env.lang]

/-- The locale that is taken when none is known. -/
def defaultLocale : Text :=
  "en_US".toList

/-- The locale of the system; without one the default, or an error if `required`. -/
def locale (env : Environment φ) (required : Bool) : Except (SystemLocaleError φ) Text :=
  match env.system with
  | .faulted fault => .error (.faulted fault)
  | .answered value => choose (usable value :: env.variableValues.map usable)
  | .refused => choose (env.variableValues.map usable)
where
  choose (candidates : List (Option Text)) : Except (SystemLocaleError φ) Text :=
    match candidates.findSome? (fun x => x) with
    | some name => .ok name
    | none => if required then .error .undetermined else .ok defaultLocale

end Environment
end Phrasebook
