import Phrasebook.Plural.Formula
import Phrasebook.Printf.Template
import Phrasebook.Table

/-!
# Stores

A store keeps the templates of one file.  A `SingleStore` has one template per key, a
`PluralStore` one per key and category, together with the formula that selects the category
of a quantity.

**Two ways to look up.**  `lookup` reports a missing key or category as a result, `get` as an
error.  Both fill the template that they find with the given arguments.
-/

namespace Phrasebook

open Printf (formatTemplate TemplateError)
open Plural (Formula)

/-- What a lookup comes to; a plural lookup also tells the category. -/
inductive Lookup
  | found (value : Text) (category : Option Nat)
  | missingKey
  | missingCategory (category : Nat)
deriving DecidableEq, Repr

/-- The text that was found, if one was. -/
def Lookup.value? : Lookup → Option Text
  | .found value _ => some value
  | _ => none

/-- Why a text cannot be produced although there is a template for it. -/
inductive TextError
  | template (e : TemplateError)
  | numeral (e : NumeralError)
deriving DecidableEq, Repr

/-- The words for an error. -/
def TextError.message : TextError → String
  | .template e => e.message
  | .numeral e => e.message

/-- Why a store cannot give what it is asked for. -/
inductive GetError
  | noString (key : Text)
  | noPlural (key : Text)
  | noCategory (key : Text) (category : Nat) (quantity : Int) (shownQuantity : Text)
  | text (e : TextError)
deriving DecidableEq, Repr

/-- The words for an error. -/
def GetError.message : GetError → String
  | .noString key =>
      let shown := String.ofList (Text.quoted key)
      s!"Cannot find string with key {shown}"
  | .noPlural key =>
      let shown := String.ofList (Text.quoted key)
      s!"Cannot find plural with key {shown}"
  | .noCategory key category _ shownQuantity =>
      let shown := String.ofList (Text.quoted key)
      let quantity := String.ofList shownQuantity
      s!"Cannot find plural category {category} for key {shown} (quantity: {quantity})"
  | .text e => e.message

variable [Machine]

/-- A filled template. -/
def fill (template : Text) (args : List Argument) : Except TextError Text :=
  (formatTemplate template args).mapError .template

/-- The templates of a file that do not depend on a quantity. -/
structure SingleStore where
  values : Table Text Text
deriving DecidableEq

namespace SingleStore

/-- The store without templates. -/
def empty : SingleStore :=
  ⟨Table.empty⟩

/-- The store with a template for a key. -/
def set (s : SingleStore) (key value : Text) : SingleStore :=
  ⟨s.values.set key value⟩

/-- The store with a chunk behind the template of a key. -/
def append (s : SingleStore) (key chunk : Text) : SingleStore :=
  ⟨s.values.modify key (fun old => old.getD [] ++ chunk)⟩

/-- Does the store have a template for the key? -/
def has (s : SingleStore) (key : Text) : Bool :=
  s.values.has key

/-- The template of a key. -/
def template (s : SingleStore) (key : Text) : Except GetError Text :=
  match s.values.get? key with
  | some t => .ok t
  | none => .error (.noString key)

/-- The filled template of a key, or an error. -/
def get (s : SingleStore) (key : Text) (args : List Argument) : Except GetError Text := do
  let t ← s.template key
  (fill t args).mapError .text

/-- The filled template of a key, or what is missing. -/
def lookup (s : SingleStore) (key : Text) (args : List Argument) : Except TextError Lookup :=
  match s.values.get? key with
  | none => .ok .missingKey
  | some t => (fill t args).map (.found · none)

/-- Do two stores have the same templates? -/
def sameContent (s t : SingleStore) : Bool :=
  s.values.sameEntries (fun a b => a == b) t.values

/-- A store in one line. -/
def describe (s : SingleStore) : String :=
  let keys := s.values.size
  s!"SingleStore({keys} keys)"

end SingleStore

/-- The templates of a file by category, and the formula that selects the category. -/
structure PluralStore where
  formula : Formula
  plurals : Table Text (Table Int Text)
deriving DecidableEq

namespace PluralStore

/-- The store without templates. -/
def empty (formula : Formula) : PluralStore :=
  ⟨formula, Table.empty⟩

/-- The store with the templates of a key changed. -/
def update (s : PluralStore) (key : Text) (f : Table Int Text → Table Int Text) : PluralStore :=
  { s with plurals := s.plurals.modify key (fun old => f (old.getD Table.empty)) }

/-- The store with a template for a category of a key. -/
def add (s : PluralStore) (key : Text) (category : Int) (value : Text) : PluralStore :=
  s.update key (fun templates => templates.set category value)

/-- The store with a chunk behind the template for a category of a key. -/
def append (s : PluralStore) (key : Text) (category : Int) (chunk : Text) : PluralStore :=
  s.update key (fun templates => templates.modify category (fun old => old.getD [] ++ chunk))

/-- Does the store have templates for the key? -/
def has (s : PluralStore) (key : Text) : Bool :=
  s.plurals.has key

/-- The templates of a key by category. -/
def categories (s : PluralStore) (key : Text) : Except GetError (Table Int Text) :=
  match s.plurals.get? key with
  | some templates => .ok templates
  | none => .error (.noPlural key)

/-- The error of a category without template; its message has to show the quantity. -/
def categoryError (key : Text) (category : Nat) (quantity : Int) : GetError :=
  match writeNumeral quantity with
  | .ok shown => .noCategory key category quantity shown
  | .error e => .text (.numeral e)

/-- The filled template for the category of a quantity, or an error. -/
def get (s : PluralStore) (key : Text) (quantity : Int) (args : List Argument) :
    Except GetError Text := do
  let templates ← s.categories key
  let category ← (s.formula.evaluate quantity).mapError (fun e => .text (.numeral e))
  match templates.get? category with
  | some t => (fill t args).mapError .text
  | none => throw (categoryError key category quantity)

/-- The filled template for the category of a quantity, or what is missing. -/
def lookup (s : PluralStore) (key : Text) (quantity : Int) (args : List Argument) :
    Except TextError Lookup :=
  match s.plurals.get? key with
  | none => .ok .missingKey
  | some templates => do
      let category ← (s.formula.evaluate quantity).mapError .numeral
      match templates.get? category with
      | some t => (fill t args).map (.found · (some category))
      | none => pure (.missingCategory category)

/-- Do two stores have the same formula and the same templates? -/
def sameContent (s t : PluralStore) : Bool :=
  s.formula == t.formula &&
    s.plurals.sameEntries (Table.sameEntries (fun a b => a == b)) t.plurals

/-- A store in one line. -/
def describe (s : PluralStore) : String :=
  let keys := s.plurals.size
  let expression := String.ofList (Text.quoted s.formula.expression)
  s!"PluralStore({keys} keys, formula={expression})"

end PluralStore
end Phrasebook
