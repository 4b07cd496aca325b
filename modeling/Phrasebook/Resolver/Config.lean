import Phrasebook.Text.Basic

/-!
# Configuration

What a resolver needs to know beforehand.

**Settings** are any values; each has a default.  A `Config` is settings that make sense:
files have a suffix, the fallback locale a name, and someone loads the files.
-/

namespace Phrasebook

/-- Values for everything that can be configured. -/
structure Settings where
  root : Text := "po".toList
  suffix : Text := ".po".toList
  fallbackLocale : Text := "en_US".toList
  sendsKey : Bool := false
  strict : Bool := false
  maxWorkers : Int := 2
deriving DecidableEq, Repr

/-- Why settings do not make sense. -/
inductive ConfigError
  | emptySuffix
  | emptyFallbackLocale
  | noWorkers
deriving DecidableEq, Repr

/-- The words for senseless settings. -/
def ConfigError.message : ConfigError → String
  | .emptySuffix => "suffix cannot be empty"
  | .emptyFallbackLocale => "fallback_locale cannot be empty"
  | .noWorkers => "max_workers must be positive"

/-- Settings that make sense. -/
structure Config extends Settings where
  suffix_ne_nil : suffix ≠ []
  fallbackLocale_ne_nil : fallbackLocale ≠ []
  maxWorkers_pos : 0 < maxWorkers
deriving DecidableEq

namespace Config

/-- The configuration with the given settings, if they make sense. -/
def ofSettings (s : Settings) : Except ConfigError Config :=
  if hs : s.suffix = [] then .error .emptySuffix
  else if hf : s.fallbackLocale = [] then .error .emptyFallbackLocale
  else if hw : 0 < s.maxWorkers then .ok ⟨s, hs, hf, hw⟩
  else .error .noWorkers

/-- The configuration with all defaults. -/
def default : Config :=
  ⟨{}, by decide, by decide, by decide⟩

theorem ofSettings_toSettings (c : Config) : ofSettings c.toSettings = .ok c := by
  simp [ofSettings, c.suffix_ne_nil, c.fallbackLocale_ne_nil, c.maxWorkers_pos]

end Config
end Phrasebook
