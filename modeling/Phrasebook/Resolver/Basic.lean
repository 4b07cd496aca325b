import Phrasebook.Catalog.Basic
import Phrasebook.Locale.System
import Phrasebook.Resolver.Config

/-!
# Locale resolvers

A resolver keeps the catalogs of a selected locale and of a fallback locale.

**Selections.**  `Resolver.select` loads both catalogs and installs them together if at least
one of them loads.  A selection that fails leaves the installed one as it is, and so does the
selection of a locale that is loaded already.
**Index.**  The files are indexed at the first selection and again when a selection asks for
it; the index stays over selections that fail.
-/

namespace Phrasebook

/-- The catalogs of a selected locale and of its fallback, whether a missing text is answered
with its key, and what came of the files of both catalogs. -/
structure Selection where
  active : Catalog
  fallback : Catalog
  sendsKey : Bool
  summary : Summary
deriving DecidableEq

/-- A configuration, the installed selection, and the index of the files. -/
structure Resolver where
  config : Config
  selection : Option Selection
  index : Option Index
deriving DecidableEq

/-- What a selection asks for; what it leaves open comes from the system or the
configuration. -/
structure Request where
  locale : Option LocaleLike
  fallbackLocale : Option LocaleLike
  sendsKey : Option Bool
  rescan : Bool

/-- Why a selection fails. -/
inductive SelectError
  | locale (e : LocaleError)
  | fault (f : Fault)
  | noCatalogs (active fallback : CatalogError)
deriving DecidableEq, Repr

/-- The words for two missing catalogs. -/
def noCatalogsMessage (active fallback : CatalogError) : String :=
  let locale := String.ofList active.locale
  let fallbackLocale := String.ofList fallback.locale
  s!"Cannot load translations for '{locale}' or fallback '{fallbackLocale}'"

namespace Resolver

/-- A resolver without selection. -/
def new (config : Config) : Resolver where
  config := config
  selection := none
  index := none

/-- The resolver without selection and index. -/
def reset (r : Resolver) : Resolver :=
  new r.config

/-- Has a selection been installed? -/
def isInitialized (r : Resolver) : Bool :=
  r.selection.isSome

/-- A resolver in one line; `provider` stands for where its files come from. -/
def describe (r : Resolver) (provider : String) : String :=
  match r.selection with
  | none => s!"LocaleResolver(provider={provider}, uninitialized)"
  | some s =>
      let locale := String.ofList (Text.quoted s.active.locale.toText)
      let fallback := String.ofList (Text.quoted s.fallback.locale.toText)
      s!"LocaleResolver(locale={locale}, fallback={fallback})"

section Requests

/-- The tag of something that stands for a locale. -/
def tagOf (like : LocaleLike) : Except SelectError LocaleTag :=
  (LocaleTag.coerce like).mapError .locale

/-- The tag of the locale of the system. -/
def systemTag (env : Environment Fault) : Except SelectError LocaleTag :=
  match env.locale false with
  | .ok name => tagOf (.identifier name)
  | .error (.faulted f) => .error (.fault f)
  | .error .undetermined => tagOf (.identifier Environment.defaultLocale)

/-- The tag that a request asks for. -/
def requestedTag (env : Environment Fault) (q : Request) : Except SelectError LocaleTag :=
  match q.locale with
  | some like => tagOf like
  | none => systemTag env

/-- The tag that a request falls back to. -/
def fallbackTag (config : Config) (q : Request) : Except SelectError LocaleTag :=
  tagOf (q.fallbackLocale.getD (.identifier config.fallbackLocale))

/-- The summary of the installed selection, if its active catalog is loaded for the tag. -/
def summaryIfActive (r : Resolver) (tag : LocaleTag) : Option Summary :=
  match r.selection with
  | some s => if s.active.isLoaded && s.active.locale == tag then some s.summary else none
  | none => none

end Requests

section Selecting

variable [Machine]

/-- The index to select with: the one at hand, or a new one. -/
def currentIndex (r : Resolver) (p : Provider) (rescan : Bool) : Except Fault Index :=
  match r.index, rescan with
  | some index, false => .ok index
  | _, _ => Discovery.discover p r.config.root r.config.suffix

/-- A new catalog behind its first load, and why the load gave none. -/
def loadCatalog (config : Config) (p : Provider) (index : Index) (tag : LocaleTag) :
    Except Fault (Catalog × Option CatalogError) :=
  let loaded := (Catalog.new tag).load p index config.strict
  match loaded.2 with
  | .ok _ => .ok (loaded.1, none)
  | .error (.noCatalog e) => .ok (loaded.1, some e)
  | .error (.fault f) => .error f

/-- The selection of two loaded tags, unless neither has a catalog. -/
def selectionOf (config : Config) (p : Provider) (index : Index) (tag fallback : LocaleTag)
    (sendsKey : Bool) : Except SelectError Selection := do
  let active ← (loadCatalog config p index tag).mapError .fault
  let other ← (loadCatalog config p index fallback).mapError .fault
  match active.2, other.2 with
  | some e, some f => throw (.noCatalogs e f)
  | _, _ =>
      pure
        { active := active.1
          fallback := other.1
          sendsKey := sendsKey
          summary := ⟨active.1.results⟩ ++ ⟨other.1.results⟩ }

/-- Loads the two tags and installs them. -/
def install (r : Resolver) (p : Provider) (tag fallback : LocaleTag) (sendsKey rescan : Bool) :
    Resolver × Except SelectError Summary :=
  match r.currentIndex p rescan with
  | .error f => (r, .error (.fault f))
  | .ok index =>
      match selectionOf r.config p index tag fallback sendsKey with
      | .error e => ({ r with index := some index }, .error e)
      | .ok s => ({ r with index := some index, selection := some s }, .ok s.summary)

/-- Selects what a request asks for: the resolver to go on with, and what came of the files. -/
def select (r : Resolver) (p : Provider) (env : Environment Fault) (q : Request) :
    Resolver × Except SelectError Summary :=
  match requestedTag env q with
  | .error e => (r, .error e)
  | .ok tag =>
      match fallbackTag r.config q with
      | .error e => (r, .error e)
      | .ok fallback =>
          match r.summaryIfActive tag with
          | some summary => (r, .ok summary)
          | none =>
              r.install p tag fallback (q.sendsKey.getD r.config.sendsKey) q.rescan

end Selecting

end Resolver
end Phrasebook
