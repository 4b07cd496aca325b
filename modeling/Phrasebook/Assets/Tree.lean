import Phrasebook.Assets.Provider
import Phrasebook.Table
import Phrasebook.Text.Lines

/-!
# Assets in a tree of files

Assets below a root directory of a file system, with files, folders and symbolic links.

**Places** are the names on the way from the top of the file system.  The root directory is a place
free of links; the names of an asset path go on from there.
**Paths** are relative and without parent segments.  A path is walked through all links; the place
that it leads to has to lie below the root, whatever the links passed through on the way.
**Links.**  `Tree.walk` resolves every link once and remembers where it leads.  A link that is met
on the way through its own target stays as it is.
**Access.**  `Tree.find` goes through links as the file system does, and through a few only.
**Files** are read as UTF-8.
-/

namespace Phrasebook

/-- What stands at a place. -/
inductive Node
  | file (bytes : ByteArray)
  | folder
  | link (target : Text)

/-- The names on the way from the top of the file system. -/
abbrev Place := List Text

namespace Tree

/-- The most bytes that a name may have. -/
def nameLimit : Nat := 255

/-- The most bytes that the names of a place may have, each with a slash in front of it. -/
def placeLimit : Nat := 4095

/-- The bytes of the names of a place, each with a slash in front of it. -/
def placeSize (place : Place) : Nat :=
  place.foldr (fun name size => (String.ofList name).utf8ByteSize + 1 + size) 0

/-- Can an entry of a folder have the name? -/
def isEntryName (name : Text) : Bool :=
  !name.isEmpty && name != ['.'] && name != ['.', '.'] && !name.contains '/' &&
    !name.contains (Char.ofNat 0) && decide ((String.ofList name).utf8ByteSize ≤ nameLimit)

end Tree

/-- The place of a root directory. -/
structure RootPlace where
  place : Place
  isEntryName : ∀ name ∈ place, Tree.isEntryName name = true

/-- Nodes of a file system with a root directory; the folders on the way to a node need none of
their own. -/
structure Tree where
  root : RootPlace
  nodes : Table Place Node

namespace Tree

/-- The names of a path; empty ones and points say nothing. -/
def names (path : Text) : Place :=
  (Text.splitOn '/' path).filter (fun name => !name.isEmpty && name != ['.'])

/-- The tree of paths below a root and their nodes, of which later ones replace earlier ones. -/
def ofList (root : RootPlace) (nodes : List (Text × Node)) : Tree :=
  ⟨root, Table.ofList (nodes.map (fun e => (root.place ++ names e.1, e.2)))⟩

/-- A text as the content of a file. -/
def textFile (text : Text) : Node :=
  .file (String.ofList text).toByteArray

/-- The name below a place on the way to another one. -/
def childOf? (place other : Place) : Option Text :=
  if place.isPrefixOf other then other[place.length]? else none

/-- The names below a place in order. -/
def children (t : Tree) (place : Place) : List Text :=
  ((t.nodes.keys.filterMap (childOf? place)).eraseDups).mergeSort Text.le

/-- What stands at a place. -/
def node? (t : Tree) (place : Place) : Option Node :=
  if place.isPrefixOf t.root.place then some .folder
  else
    match t.nodes.get? place with
    | some node => some node
    | none => if (t.children place).isEmpty then none else some .folder

/-- What is no folder stands at a place of its own. -/
theorem mem_keys_of_node? {t : Tree} {place : Place} {node : Node} (h : t.node? place = some node)
    (hnode : node ≠ .folder) : place ∈ t.nodes.keys := by
  refine Decidable.byContradiction fun hkey => hnode ?_
  rw [node?, Table.get?_of_not_mem hkey] at h
  split at h
  · exact (Option.some.inj h).symm
  · dsimp only at h
    split at h
    · cases h
    · exact (Option.some.inj h).symm

/-- Where the names of the target of a link in a folder begin. -/
def linkStart (folder : Place) (target : Text) : Place :=
  if target.head? = some '/' then [] else folder

section Access

/-- How many links an access may go through. -/
def linkLimit : Nat := 40

/-- What stands at the end of names behind a place, through at most `links` links. -/
def find (t : Tree) (links : Nat) (place : Place) : List Text → Except Fault Node
  | [] =>
      match t.node? place with
      | some node => .ok node
      | none => .error .missing
  | name :: rest =>
      if name.isEmpty ∨ name = ['.'] then t.find links place rest
      else if name = ['.', '.'] then t.find links place.dropLast rest
      else if nameLimit < (String.ofList name).utf8ByteSize then .error .nameTooLong
      else
        match t.node? (place ++ [name]) with
        | none => .error .missing
        | some (.file bytes) => if rest.isEmpty then .ok (.file bytes) else .error .notDirectory
        | some .folder => t.find links (place ++ [name]) rest
        | some (.link target) =>
            match links with
            | 0 => .error .tooManyLinks
            | less + 1 => t.find less (linkStart place target) (Text.splitOn '/' target ++ rest)
termination_by names => (links, names.length)

/-- What stands at a place that may be asked for. -/
def lookup (t : Tree) (place : Place) : Except Fault Node :=
  if placeLimit < placeSize place then .error .nameTooLong else t.find linkLimit [] place

end Access

section Links

/-- What is left of a walk: a name to go on with, or the end of the target of a link. -/
inductive WalkStep
  | name (name : Text)
  | resolved (link : Place)

/-- Where the links lead that a walk has met; nothing for one whose target it is on. -/
abbrev Met := List (Place × Option Place)

/-- The target of the link at a place that may be asked for. -/
def linkAt? (t : Tree) (place : Place) : Option Text :=
  if placeLimit < placeSize place then none
  else
    match t.node? place with
    | some (.link target) => some target
    | _ => none

/-- How many places with a node a walk has not met yet. -/
def unmet (t : Tree) (met : Met) : Nat :=
  (t.nodes.keys.filter (fun place => (met.lookup place).isNone)).length

theorem node?_of_linkAt? {t : Tree} {place : Place} {target : Text}
    (h : t.linkAt? place = some target) : t.node? place = some (.link target) := by
  rw [linkAt?] at h
  split at h
  · cases h
  · split at h
    next hnode =>
      cases h
      exact hnode
    next => cases h

theorem mem_keys_of_linkAt? {t : Tree} {place : Place} {target : Text}
    (h : t.linkAt? place = some target) : place ∈ t.nodes.keys :=
  mem_keys_of_node? (node?_of_linkAt? h) nofun

theorem unmet_cons (t : Tree) (met : Met) (link : Place) (found : Option Place) :
    t.unmet ((link, found) :: met) =
      ((t.nodes.keys.filter (fun place => (met.lookup place).isNone)).filter
        (fun place => place != link)).length := by
  rw [unmet, List.filter_filter]
  congr 2
  funext place
  rw [List.lookup_cons]
  cases h : place == link <;> simp [bne, h]

theorem unmet_cons_le (t : Tree) (met : Met) (link : Place) (found : Option Place) :
    t.unmet ((link, found) :: met) ≤ t.unmet met := by
  rw [unmet_cons]
  exact List.filter_sublist.length_le

theorem unmet_cons_lt {t : Tree} {met : Met} {link : Place} (hlink : link ∈ t.nodes.keys)
    (hmet : met.lookup link = none) (found : Option Place) :
    t.unmet ((link, found) :: met) < t.unmet met := by
  rw [unmet_cons]
  refine List.length_filter_lt_length_iff_exists.2 ⟨link, ?_, by simp⟩
  simp [hlink, hmet]

/-- The place that a walk comes to. -/
def walk (t : Tree) (met : Met) (place : Place) : List WalkStep → Place
  | [] => place
  | .resolved link :: rest => t.walk ((link, some place) :: met) place rest
  | .name name :: rest =>
      if name.isEmpty ∨ name = ['.'] then t.walk met place rest
      else if name = ['.', '.'] then t.walk met place.dropLast rest
      else
        match _hlink : t.linkAt? (place ++ [name]) with
        | none => t.walk met (place ++ [name]) rest
        | some target =>
            match hmet : met.lookup (place ++ [name]) with
            | some (some found) => t.walk met found rest
            | some none => t.walk met (place ++ [name]) rest
            | none =>
                t.walk ((place ++ [name], none) :: met) (linkStart place target)
                  ((Text.splitOn '/' target).map .name ++ .resolved (place ++ [name]) :: rest)
termination_by steps => (t.unmet met, steps.length)
decreasing_by
  · exact Prod.Lex.right' _ (unmet_cons_le t met link (some place)) (Nat.lt_succ_self _)
  · exact Prod.Lex.right _ (Nat.lt_succ_self _)
  · exact Prod.Lex.right _ (Nat.lt_succ_self _)
  · exact Prod.Lex.right _ (Nat.lt_succ_self _)
  · exact Prod.Lex.right _ (Nat.lt_succ_self _)
  · exact Prod.Lex.right _ (Nat.lt_succ_self _)
  · exact Prod.Lex.left _ _ (unmet_cons_lt (mem_keys_of_linkAt? _hlink) hmet none)

end Links

section Paths

/-- The place that a path leads to. -/
def resolve (t : Tree) (path : Text) : Except Fault Place :=
  if path.head? = some '/' ∨ path.head? = some '\\' then .error (.absolutePath path)
  else if (names path).contains ['.', '.'] then .error (.parentSegment path)
  else if path.contains (Char.ofNat 0) then .error .nullCharacter
  else
    let place := t.walk [] [] ((t.root.place ++ names path).map .name)
    if t.root.place.isPrefixOf place then .ok place
    else .error (.escapesRoot path)

/-- The entries of a folder in order.  What is no folder has none, nor has what cannot be found,
unless it cannot be asked for. -/
def entries (t : Tree) (path : Text) : Except Fault (List Text) := do
  let place ← t.resolve path
  match t.lookup place with
  | .ok .folder => pure (t.children place)
  | .ok _ => pure []
  | .error f => if f = .nameTooLong then throw f else pure []

/-- The lines of a file's content. -/
def decode (bytes : ByteArray) : Delivery :=
  match bytes.utf8Decode? with
  | some chars => .complete (Text.lines chars.toList)
  | none => .failed .undecodable

/-- The lines of a file. -/
def lines (t : Tree) (path : Text) : Delivery :=
  match t.resolve path with
  | .error f => .failed f
  | .ok place =>
      match t.lookup place with
      | .error f => .failed f
      | .ok (.file bytes) => decode bytes
      | .ok _ => .failed .isDirectory

/-- The provider of the assets in a tree. -/
def provider [Machine] (t : Tree) : Provider where
  description := "Provider"
  list := t.entries
  read := t.lines
  reach := Machine.folderDepth

end Paths

end Tree
end Phrasebook
