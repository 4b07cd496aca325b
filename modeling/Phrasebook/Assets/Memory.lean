import Phrasebook.Assets.Provider
import Phrasebook.Table
import Phrasebook.Text.Lines

/-!
# Assets in memory

Assets that are kept as texts under paths.  The folders are those that the paths imply; a
path means the same with and without slashes at its ends.
-/

namespace Phrasebook

/-- Texts under paths without slashes at their ends. -/
structure MemoryAssets where
  files : Table Text Text
deriving DecidableEq

namespace MemoryAssets

/-- A path without slashes at its ends. -/
def bare (path : Text) : Text :=
  Text.trimChar '/' path

/-- The assets of a list of paths and texts.  Of two entries with the same path the later one
counts, and then of two paths that differ in slashes at their ends. -/
def ofList (files : List (Text × Text)) : MemoryAssets :=
  ⟨Table.ofList ((Table.ofList files).entries.map (fun e => (bare e.1, e.2)))⟩

/-- How the paths below a folder begin. -/
def folderStart (path : Text) : Text :=
  if (bare path).isEmpty then [] else bare path ++ ['/']

/-- The entry of a folder that a file lies in or is, if it lies below the folder. -/
def childOf? (path name : Text) : Option Text :=
  if name.startsWith (folderStart path) ∧ name ≠ bare path then
    some (Text.before '/' (name.drop (folderStart path).length))
  else none

/-- The entries of a folder in order. -/
def entries (m : MemoryAssets) (path : Text) : List Text :=
  ((m.files.keys.filterMap (childOf? path)).eraseDups).mergeSort Text.le

/-- The lines of a file. -/
def lines (m : MemoryAssets) (path : Text) : Delivery :=
  match m.files.get? (bare path) with
  | some text => .complete (Text.lines text)
  | none => .failed (.noSuchAsset path)

/-- The provider of assets in memory. -/
def provider [Machine] (m : MemoryAssets) : Provider where
  description :=
    let count := m.files.size
    s!"MemoryAssetProvider({count} files)"
  list path := .ok (m.entries path)
  read := m.lines
  reach := Machine.folderDepth

end MemoryAssets
end Phrasebook
