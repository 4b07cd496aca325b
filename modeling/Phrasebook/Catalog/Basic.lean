import Phrasebook.Assets.Discovery
import Phrasebook.Catalog.Summary

/-!
# Catalogs

A catalog holds the files of one locale in the order in which they are searched: first those
that declare the tag with its region, then those that declare its language alone.

**Loading.**  `Catalog.load` reads every file of the index that belongs to the locale.  A file
with a contained fault or a malformed line that counts is reported in its result and left out;
any other fault ends the loading, and so does a plural formula that is nested too deep.  Without
any file that loads, the files of an earlier load stay.
**Lookup.**  The first file that has a key answers for it.
-/

namespace Phrasebook

/-- How far the loading of a catalog has come. -/
inductive Phase
  | unset
  | loading
  | ready
  | failed
deriving DecidableEq, Repr

/-- The name of a phase. -/
def Phase.name : Phase → String
  | .unset => "unset"
  | .loading => "loading"
  | .ready => "ready"
  | .failed => "failed"

/-- Why a locale has no catalog; `locale` is the text of its tag. -/
inductive CatalogError
  | noneDeclared (locale : Text)
  | noneLoaded (locale : Text)
deriving DecidableEq, Repr

namespace CatalogError

/-- The text of the tag without catalog. -/
def locale : CatalogError → Text
  | .noneDeclared locale => locale
  | .noneLoaded locale => locale

/-- The words for a missing catalog. -/
def message : CatalogError → String
  | .noneDeclared locale =>
      let shown := String.ofList locale
      s!"No translation file found for locale '{shown}'"
  | .noneLoaded locale =>
      let shown := String.ofList locale
      s!"No translation file could be loaded for locale '{shown}'"

end CatalogError

/-- Why a load gives no summary. -/
inductive LoadFailure
  | noCatalog (e : CatalogError)
  | fault (f : Fault)
deriving DecidableEq, Repr

/-- The files of a locale, and what came of the last load. -/
structure Catalog where
  locale : LocaleTag
  phase : Phase
  files : List Po.File
  results : List LoadResult
deriving DecidableEq

namespace Catalog

/-- The catalog of a locale before any load. -/
def new (locale : LocaleTag) : Catalog where
  locale := locale
  phase := .unset
  files := []
  results := []

/-- Did the last load give files? -/
def isLoaded (c : Catalog) : Bool :=
  c.phase == .ready

/-- A catalog in one line. -/
def describe (c : Catalog) : String :=
  let locale := String.ofList (Text.quoted c.locale.toText)
  let phase := c.phase.name
  let count := c.files.length
  s!"Catalog(locale={locale}, state={phase}, files={count})"

section Paths

/-- The indexed paths of a text of a tag. -/
def indexed (index : Index) (tag : Text) : List Text :=
  (index.get? tag).getD []

/-- The indexed paths of a locale: those of its tag, then those of its language, each at its
first position. -/
def candidatePaths (locale : LocaleTag) (index : Index) : List Text :=
  let regional := if locale.hasRegion then indexed index locale.toText else []
  (regional ++ indexed index locale.language).eraseDups

end Paths

section Loading

variable [Machine]

/-- A failure of the content of a file.  What the machine gives up is a fault. -/
def contentFailure : Po.ReadError → LoadError
  | .stopped .nestedTooDeep => .fault .chainsTooDeep
  | e => .content e

/-- The file of a delivery; what is wrong with the lines counts before the fault behind them. -/
def readDelivery (strict : Bool) (path : Text) (d : Delivery) : Except LoadError Po.File :=
  match Po.File.parse ⟨strict, some path⟩ .empty d.lines with
  | .error e => .error (contentFailure e)
  | .ok file =>
      match d.fault with
      | none => .ok file
      | some f => .error (.fault f)

/-- The status of a file that was not loaded. -/
def failureStatus : LoadError → LoadStatus
  | .fault f => if f.category = .missing then .notFound else .error
  | .content _ => .error

/-- One file: its result and, if it was loaded, its content. -/
def loadFile (locale : Text) (strict : Bool) (p : Provider) (path : Text) :
    Except Fault (LoadResult × Option Po.File) :=
  match readDelivery strict path (p.read path) with
  | .ok file => .ok (⟨locale, path, .success, none, file.junk⟩, some file)
  | .error (.fault f) =>
      if f.isContained then
        .ok (⟨locale, path, failureStatus (.fault f), some (.fault f), []⟩, none)
      else .error f
  | .error (.content e) =>
      .ok (⟨locale, path, failureStatus (.content e), some (.content e), []⟩, none)

/-- The catalog behind a load of all files of its locale, and the summary of the load. -/
def load (c : Catalog) (p : Provider) (index : Index) (strict : Bool) :
    Catalog × Except LoadFailure Summary :=
  let locale := c.locale.toText
  match candidatePaths c.locale index with
  | [] => ({ c with phase := .failed }, .error (.noCatalog (.noneDeclared locale)))
  | path :: paths =>
      match (path :: paths).mapM (loadFile locale strict p) with
      | .error f => ({ c with phase := .loading }, .error (.fault f))
      | .ok loaded =>
          let results := loaded.map Prod.fst
          match loaded.filterMap Prod.snd with
          | [] =>
              ({ c with phase := .failed, results := results },
                .error (.noCatalog (.noneLoaded locale)))
          | file :: files =>
              ({ c with phase := .ready, files := file :: files, results := results },
                .ok ⟨results⟩)

/-- A new catalog of a locale behind its first load, if that gives a summary. -/
def build (locale : LocaleTag) (p : Provider) (index : Index) (strict : Bool) :
    Except LoadFailure Catalog :=
  let loaded := (new locale).load p index strict
  loaded.2.map (fun _ => loaded.1)

end Loading

section Lookups

variable [Machine]

/-- What the first file that has a key says about it. -/
def single (c : Catalog) (key : Text) (args : List Argument) : Except TextError Lookup :=
  match c.files.find? (fun f => f.singles.has key) with
  | some f => f.singles.lookup key args
  | none => .ok .missingKey

/-- What the first file that has a plural key says about a quantity. -/
def plural (c : Catalog) (key : Text) (quantity : Int) (args : List Argument) :
    Except TextError Lookup :=
  match c.files.find? (fun f => f.plurals.has key) with
  | some f => f.plurals.lookup key quantity args
  | none => .ok .missingKey

/-- Does a file have the key? -/
def hasSingle (c : Catalog) (key : Text) : Bool :=
  c.files.any (fun f => f.singles.has key)

/-- Does a file have the plural key? -/
def hasPlural (c : Catalog) (key : Text) : Bool :=
  c.files.any (fun f => f.plurals.has key)

end Lookups

end Catalog
end Phrasebook
