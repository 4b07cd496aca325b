import Phrasebook.Resolver.Basic

/-!
# Texts of a resolver

A text comes from the active catalog, else from the fallback catalog; without either it is the
key or nothing, as the selection says.

**Events.**  Whoever watches a resolver hears of texts that the fallback catalog gave and of
those that neither catalog has.
**No selection.**  Without a selection there are no texts, no keys and no current locale.
-/

namespace Phrasebook

/-- Why a resolver cannot be asked. -/
inductive NotInitialized
  | nothingSelected
  | notConfigured
deriving DecidableEq, Repr

/-- The words for a resolver that cannot be asked. -/
def NotInitialized.message : NotInitialized → String
  | .nothingSelected => "No locale selected; call select_locale() first"
  | .notConfigured => "pocatalog is not configured; call configure() first"

/-- Why there is no text for a key. -/
inductive ResolveError
  | notInitialized (e : NotInitialized)
  | text (e : TextError)
deriving DecidableEq, Repr

/-- What is worth knowing about an answer. -/
inductive Event
  | fallback (key : Text) (requested resolved : LocaleTag)
  | missing (key : Text) (locale fallback : LocaleTag) (quantity : Option Int)
deriving DecidableEq

/-- A text, and what is worth knowing about it. -/
structure Resolved where
  text : Text
  event : Option Event
deriving DecidableEq

namespace Selection

/-- The text of a key by a way to look it up in a catalog. -/
def resolve (s : Selection) (key : Text) (quantity : Option Int)
    (look : Catalog → Except TextError Lookup) : Except TextError Resolved := do
  match (← look s.active).value? with
  | some text => pure ⟨text, none⟩
  | none =>
      match (← look s.fallback).value? with
      | some text => pure ⟨text, some (.fallback key s.active.locale s.fallback.locale)⟩
      | none =>
          pure ⟨if s.sendsKey then key else [],
            some (.missing key s.active.locale s.fallback.locale quantity)⟩

/-- Does one of the catalogs have the key, in whatever number? -/
def hasText (s : Selection) (key : Text) : Bool :=
  [s.active, s.fallback].any (fun c => c.hasSingle key || c.hasPlural key)

/-- The locale of the active catalog if that is loaded, else of the fallback catalog. -/
def currentLocale (s : Selection) : LocaleTag :=
  if s.active.isLoaded then s.active.locale else s.fallback.locale

end Selection

namespace Resolver

/-- The installed selection. -/
def required (r : Resolver) : Except NotInitialized Selection :=
  match r.selection with
  | some s => .ok s
  | none => .error .nothingSelected

/-- The text of a key. -/
def text [Machine] (r : Resolver) (key : Text) (args : List Argument) :
    Except ResolveError Resolved := do
  let s ← r.required.mapError .notInitialized
  (s.resolve key none (fun c => c.single key args)).mapError .text

/-- The text of a plural key for a quantity. -/
def quantityText [Machine] (r : Resolver) (key : Text) (quantity : Int) (args : List Argument) :
    Except ResolveError Resolved := do
  let s ← r.required.mapError .notInitialized
  (s.resolve key (some quantity) (fun c => c.plural key quantity args)).mapError .text

/-- Does a catalog have the key? -/
def hasText (r : Resolver) (key : Text) : Bool :=
  r.selection.any (fun s => s.hasText key)

/-- The locale of the texts. -/
def currentLocale (r : Resolver) : Except NotInitialized LocaleTag :=
  r.required.map Selection.currentLocale

/-- What came of the files of the installed selection. -/
def summary (r : Resolver) : Summary :=
  match r.selection with
  | some s => s.summary
  | none => .empty

end Resolver

/-- The resolver that is used where none is named, if one has been configured. -/
structure DefaultResolver where
  resolver : Option Resolver
deriving DecidableEq

namespace DefaultResolver

/-- The resolver, once one has been configured. -/
def required (d : DefaultResolver) : Except NotInitialized Resolver :=
  match d.resolver with
  | some r => .ok r
  | none => .error .notConfigured

end DefaultResolver
end Phrasebook
