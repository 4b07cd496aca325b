import Phrasebook.Assets.Provider
import Phrasebook.Locale.Identifier
import Phrasebook.Po.Line
import Phrasebook.Table

/-!
# Discovery

Finding the catalog files below a folder, and indexing them by the language that they
declare.

**Candidates.**  A path that lists no entries is a file, and a candidate if it has the suffix.
A folder whose listing fails in a contained way has no candidates.  The search goes down as far
as the provider reaches, and fails where folders go on below that.
**Index.**  A candidate is read up to the line that declares its language.  One that fails in
a contained way, declares nothing or declares no valid tag is left out.
-/

namespace Phrasebook

/-- The paths that declare a tag, by the text of the tag. -/
abbrev Index := Table Text (List Text)

namespace Discovery

/-- The path of an entry of a folder. -/
def childPath (folder entry : Text) : Text :=
  if folder.isEmpty then entry else Text.trimCharEnd '/' folder ++ '/' :: entry

/-- The candidates below a path by at most `calls` calls one in the other. -/
def candidatesWithin (p : Provider) (suffix : Text) : Nat → Text → Except Fault (List Text)
  | 0, _ => .error .foldersTooDeep
  | calls + 1, path =>
      match p.list path with
      | .error f => if f.isContained then .ok [] else .error f
      | .ok [] => .ok (if path.endsWith suffix then [path] else [])
      | .ok (entry :: entries) =>
          ((entry :: entries).mapM
            (fun e => candidatesWithin p suffix calls (childPath path e))).map List.flatten

/-- The candidates below a folder, in the order of the listings. -/
def candidates (p : Provider) (root suffix : Text) : Except Fault (List Text) :=
  candidatesWithin p suffix (p.reach + 1) root

/-- Does the line declare the language of its file? -/
def declaresLanguage (line : Text) : Bool :=
  (Text.trim line).startsWith Po.languageField

/-- The language that a file declares before any fault. -/
def declaredLanguage (d : Delivery) : Except Fault (Option Text) :=
  match d.lines.find? declaresLanguage with
  | some line => .ok (Po.declaredLanguage? (Text.trim line))
  | none =>
      match d.fault with
      | some f => .error f
      | none => .ok none

/-- The tag that a file is indexed under, if it declares a valid one. -/
def declaredTag (d : Delivery) : Except Fault (Option LocaleTag) :=
  match declaredLanguage d with
  | .error f => if f.isContained then .ok none else .error f
  | .ok none => .ok none
  | .ok (some language) =>
      if language.isEmpty then .ok none
      else
        match LocaleTag.parse language with
        | .ok tag => .ok (some tag)
        | .error _ => .ok none

/-- The index with a path behind those of a tag. -/
def addPath (index : Index) (tag : LocaleTag) (path : Text) : Index :=
  index.modify tag.toText (fun paths => paths.getD [] ++ [path])

/-- The index of further paths. -/
def indexPaths (p : Provider) : List Text → Index → Except Fault Index
  | [], index => .ok index
  | path :: paths, index =>
      match declaredTag (p.read path) with
      | .error f => .error f
      | .ok none => indexPaths p paths index
      | .ok (some tag) => indexPaths p paths (addPath index tag path)

/-- The index of the files below a folder. -/
def discover (p : Provider) (root suffix : Text) : Except Fault Index := do
  let paths ← candidates p root suffix
  indexPaths p paths Table.empty

end Discovery
end Phrasebook
