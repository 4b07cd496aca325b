import Mathlib.Data.List.Nodup
import Phrasebook.Proofs.Assets.Links
import Phrasebook.Proofs.Assets.Listing

/-!
# Texts in memory and in files

The same texts, once under paths in memory and once as files of a tree.

**Paths.**  A regular path consists of names, which are neither points nor parent segments.  Below a
root directory a file system can name it if the names are short and without the null character, and
if the whole way is not too long.
**Listings.**  `Tree.entries_eq`: in both places a path that can be named lists the same entries.
**Readings.**  `Tree.lines_stored`: a file has the lines of its text.  Under other paths nothing is
read in either place.
-/

namespace Phrasebook

open MemoryAssets (folderStart)

section Paths

variable {root : RootPlace} {path folder name rest : Text}

/-- Does a path consist of names, none of them a point or a parent segment, and no backslash? -/
structure IsRegular (path : Text) : Prop where
  clean : IsClean path
  pointless : ['.'] ∉ Text.splitOn '/' path
  downward : ['.', '.'] ∉ Text.splitOn '/' path
  slashed : '\\' ∉ path

/-- Can a file system name the path below a root directory? -/
structure IsNameable (root : RootPlace) (path : Text) : Prop where
  noNull : Char.ofNat 0 ∉ path
  short : ∀ name ∈ Text.splitOn '/' path, (String.ofList name).utf8ByteSize ≤ Tree.nameLimit
  small : Tree.placeSize (root.place ++ Text.splitOn '/' path) ≤ Tree.placeLimit

instance (path : Text) : Decidable (IsRegular path) :=
  decidable_of_iff (IsClean path ∧ ['.'] ∉ Text.splitOn '/' path ∧
      ['.', '.'] ∉ Text.splitOn '/' path ∧ '\\' ∉ path)
    ⟨fun ⟨clean, pointless, downward, slashed⟩ => ⟨clean, pointless, downward, slashed⟩,
      fun h => ⟨h.clean, h.pointless, h.downward, h.slashed⟩⟩

instance (root : RootPlace) (path : Text) : Decidable (IsNameable root path) :=
  decidable_of_iff (Char.ofNat 0 ∉ path ∧
      (∀ name ∈ Text.splitOn '/' path, (String.ofList name).utf8ByteSize ≤ Tree.nameLimit) ∧
      Tree.placeSize (root.place ++ Text.splitOn '/' path) ≤ Tree.placeLimit)
    ⟨fun ⟨noNull, short, small⟩ => ⟨noNull, short, small⟩,
      fun h => ⟨h.noNull, h.short, h.small⟩⟩

theorem IsRegular.of_append (h : IsRegular (folder ++ '/' :: rest)) : IsRegular folder := by
  obtain ⟨hclean, hpoint, hdown, hslash⟩ := h
  rw [Text.splitOn_append_cons, List.mem_append, not_or] at hpoint hdown
  exact ⟨(isClean_append_cons.1 hclean).1, hpoint.1, hdown.1,
    fun hmem => hslash (List.mem_append_left _ hmem)⟩

theorem placeSize_append (place other : Place) :
    Tree.placeSize (place ++ other) = Tree.placeSize place + Tree.placeSize other := by
  induction place with
  | nil => simp [Tree.placeSize]
  | cons name place ih =>
      simp only [Tree.placeSize, List.cons_append, List.foldr_cons] at ih ⊢
      omega

theorem IsNameable.of_append (h : IsNameable root (folder ++ '/' :: rest)) :
    IsNameable root folder := by
  obtain ⟨hnull, hshort, hsmall⟩ := h
  rw [Text.splitOn_append_cons] at hshort hsmall
  rw [← List.append_assoc, placeSize_append] at hsmall
  exact ⟨fun hmem => hnull (List.mem_append_left _ hmem),
    fun name hname => hshort name (List.mem_append_left _ hname), Nat.le_of_add_right_le hsmall⟩

theorem IsRegular.names_eq (h : IsRegular path) : Tree.names path = Text.splitOn '/' path := by
  rw [Tree.names, List.filter_eq_self]
  intro name hname
  have hne : name ≠ [] := h.clean name hname
  have hpoint : name ≠ ['.'] := fun hpoint => h.pointless (hpoint ▸ hname)
  simp [hne, hpoint]

theorem IsRegular.isAllowed (h : IsRegular path) (hnull : Char.ofNat 0 ∉ path) :
    Tree.IsAllowed path where
  relative := ⟨h.clean.head?_ne, fun hhead => h.slashed (List.mem_of_mem_head? hhead)⟩
  downward := h.names_eq ▸ h.downward
  noNull := hnull

/-- The names of a regular path lead down. -/
theorem IsRegular.leadsDown (h : IsRegular path) (hname : name ∈ Text.splitOn '/' path) :
    Tree.LeadsDown name :=
  ⟨h.clean name hname, fun hpoint => h.pointless (hpoint ▸ hname),
    fun hup => h.downward (hup ▸ hname)⟩

end Paths

section Stored

/-- Texts under regular paths that a file system can name below a root directory, none of which is a
folder of another. -/
structure IsStorable (root : RootPlace) (files : List (Text × Text)) : Prop where
  nodup : (files.map Prod.fst).Nodup
  regular : ∀ e ∈ files, IsRegular e.1
  nameable : ∀ e ∈ files, IsNameable root e.1
  free : ∀ e ∈ files, ∀ e' ∈ files, ¬folderStart e.1 <+: e'.1

instance (root : RootPlace) (files : List (Text × Text)) : Decidable (IsStorable root files) :=
  decidable_of_iff ((files.map Prod.fst).Nodup ∧ (∀ e ∈ files, IsRegular e.1) ∧
      (∀ e ∈ files, IsNameable root e.1) ∧ ∀ e ∈ files, ∀ e' ∈ files, ¬folderStart e.1 <+: e'.1)
    ⟨fun ⟨nodup, regular, nameable, free⟩ => ⟨nodup, regular, nameable, free⟩,
      fun h => ⟨h.nodup, h.regular, h.nameable, h.free⟩⟩

/-- The tree with the texts as files. -/
def Tree.ofTexts (root : RootPlace) (files : List (Text × Text)) : Tree :=
  ofList root (files.map fun e => (e.1, textFile e.2))

variable {root : RootPlace} {files : List (Text × Text)} {file : Text × Text} {path name : Text}
  {rest : List Text} {place base names : Place}

theorem IsStorable.ofList_eq (h : IsStorable root files) :
    MemoryAssets.ofList files = ⟨⟨files, h.nodup⟩⟩ :=
  Phrasebook.ofList_eq h.nodup fun e he => (h.regular e he).clean

theorem IsStorable.isTidy (h : IsStorable root files) : (MemoryAssets.ofList files).IsTidy := by
  rw [h.ofList_eq]
  refine ⟨fun path hpath => ?_, fun path hpath other hother => ?_⟩
  · obtain ⟨e, he, rfl⟩ := List.mem_map.1 hpath
    exact (h.regular e he).clean
  · obtain ⟨e, he, rfl⟩ := List.mem_map.1 hpath
    obtain ⟨e', he', rfl⟩ := List.mem_map.1 hother
    exact h.free e he e' he'

namespace Tree

theorem isPlain_ofTexts (root : RootPlace) (files : List (Text × Text)) :
    (ofTexts root files).IsPlain := by
  refine isPlain_ofList fun e he target hlink => ?_
  obtain ⟨e', -, rfl⟩ := List.mem_map.1 he
  cases hlink

theorem entries_ofTexts (h : IsStorable root files) :
    (ofTexts root files).nodes.entries =
      files.map fun e => (root.place ++ Text.splitOn '/' e.1, textFile e.2) := by
  have hnames : (files.map fun e => (e.1, textFile e.2)).map
      (fun e => (root.place ++ Tree.names e.1, e.2)) =
      files.map fun e => (root.place ++ Text.splitOn '/' e.1, textFile e.2) := by
    rw [List.map_map]
    exact List.map_congr_left fun e he => by
      rw [Function.comp_apply, (h.regular e he).names_eq]
  have hnodup : ((files.map fun e =>
      (root.place ++ Text.splitOn '/' e.1, textFile e.2)).map Prod.fst).Nodup := by
    have hinjective : Function.Injective fun path => root.place ++ Text.splitOn '/' path :=
      fun _ _ hsame => Text.splitOn_injective '/' (List.append_cancel_left hsame)
    have hfst := h.nodup.map hinjective
    rw [List.map_map] at hfst ⊢
    exact hfst
  rw [ofTexts, ofList, hnames]
  exact congrArg Table.entries (Table.ofList_entries ⟨_, hnodup⟩)

theorem keys_ofTexts (h : IsStorable root files) :
    (ofTexts root files).nodes.keys =
      (files.map Prod.fst).map (fun path => root.place ++ Text.splitOn '/' path) := by
  rw [Table.keys, entries_ofTexts h, List.map_map, List.map_map]
  rfl

/-- A place in the tree of texts is that of a file. -/
theorem exists_file_of_mem_keys (h : IsStorable root files)
    (hplace : place ∈ (ofTexts root files).nodes.keys) :
    ∃ file ∈ files, place = root.place ++ Text.splitOn '/' file.1 := by
  rw [keys_ofTexts h] at hplace
  obtain ⟨path, hpath, rfl⟩ := List.mem_map.1 hplace
  obtain ⟨file, hfile, rfl⟩ := List.mem_map.1 hpath
  exact ⟨file, hfile, rfl⟩

/-- A name below a path in the tree is one below it in memory. -/
theorem childOf?_splitOn (hpath : IsClean path) (key : Text) :
    childOf? (base ++ Text.splitOn '/' path) (base ++ Text.splitOn '/' key) =
      MemoryAssets.childOf? path key := by
  refine Option.ext fun name => ?_
  rw [childOf?_iff, childOf?_eq_some_iff]
  simp only [List.append_assoc, List.append_cancel_left_eq]
  constructor
  · rintro ⟨parts, hparts⟩
    obtain ⟨rest, rfl, hrest⟩ := Text.exists_of_splitOn_eq_append hparts
    obtain ⟨parts', hsplit⟩ := Text.exists_splitOn_eq_cons '/' rest
    refine ⟨rest, (hpath.folderStart_append rest).symm, ?_,
      (List.cons.inj (hsplit.symm.trans hrest)).1⟩
    rw [IsFolder.bare_eq (.inr hpath)]
    simp
  · rintro ⟨rest, rfl, -, rfl⟩
    obtain ⟨parts, hsplit⟩ := Text.exists_splitOn_eq_cons '/' rest
    exact ⟨parts, by rw [hpath.folderStart_append, Text.splitOn_append_cons, hsplit]⟩

theorem children_ofTexts (h : IsStorable root files) (hpath : IsRegular path) :
    (ofTexts root files).children (root.place ++ Text.splitOn '/' path) =
      (MemoryAssets.ofList files).entries path := by
  have hkeys : (MemoryAssets.ofList files).files.keys = files.map Prod.fst := by
    rw [h.ofList_eq]
    rfl
  have hchild : childOf? (root.place ++ Text.splitOn '/' path) ∘
      (fun key => root.place ++ Text.splitOn '/' key) = MemoryAssets.childOf? path :=
    funext (childOf?_splitOn hpath.clean)
  rw [children, keys_ofTexts h, List.filterMap_map, hchild, MemoryAssets.entries, hkeys]

theorem node?_file (h : IsStorable root files) (hfile : file ∈ files) :
    (ofTexts root files).node? (root.place ++ Text.splitOn '/' file.1) =
      some (textFile file.2) := by
  have hmem : (root.place ++ Text.splitOn '/' file.1, textFile file.2) ∈
      (ofTexts root files).nodes.entries := by
    rw [entries_ofTexts h]
    exact List.mem_map_of_mem hfile
  have hbelow : ¬(root.place ++ Text.splitOn '/' file.1).isPrefixOf root.place = true := by
    rw [List.isPrefixOf_iff_prefix]
    intro hprefix
    have hlength := hprefix.length_le
    obtain ⟨parts, hparts⟩ := Text.exists_splitOn_eq_cons '/' file.1
    rw [List.length_append, hparts, List.length_cons] at hlength
    omega
  have hroot : (ofTexts root files).root = root := rfl
  rw [node?, hroot, if_neg hbelow, Table.get?_of_mem hmem]

/-- What a file lies below is a folder. -/
theorem node?_folder (h : IsStorable root files)
    (hkey : place ++ name :: rest ∈ (ofTexts root files).nodes.keys) :
    (ofTexts root files).node? place = some .folder := by
  have hfresh : place ∉ (ofTexts root files).nodes.keys := by
    intro hplace
    obtain ⟨e, he, hsplit⟩ := exists_file_of_mem_keys h hkey
    obtain ⟨e', he', rfl⟩ := exists_file_of_mem_keys h hplace
    rw [List.append_assoc] at hsplit
    obtain ⟨behind, hbehind, -⟩ :=
      Text.exists_of_splitOn_eq_append (List.append_cancel_left hsplit).symm
    exact h.free e' he' e he
      ⟨behind, ((h.regular e' he').clean.folderStart_append behind).trans hbehind.symm⟩
  have hchildren : (ofTexts root files).children place ≠ [] :=
    List.ne_nil_of_mem (mem_children.2 ⟨rest, hkey⟩)
  rw [node?, Table.get?_of_not_mem hfresh]
  simp [hchildren]

end Tree
end Stored

section Finding

namespace Tree

variable {t : Tree} {root : RootPlace} {files : List (Text × Text)} {file : Text × Text}
  {path name : Text} {rest : List Text} {base names place : Place} {links : Nat}

/-- The way to the root directory goes through folders. -/
theorem find_root (h : base ++ names = t.root.place) :
    t.find links base (names ++ rest) = t.find links t.root.place rest := by
  induction names generalizing base with
  | nil => rw [← h, List.nil_append, List.append_nil]
  | cons first names ih =>
      have hentry := t.root.isEntryName first (by simp [← h])
      have hdown := leadsDown_of_isEntryName hentry
      rw [Tree.isEntryName, Bool.and_eq_true] at hentry
      have hshort : ¬nameLimit < (String.ofList first).utf8ByteSize :=
        Nat.not_lt.2 (of_decide_eq_true hentry.2)
      rw [List.append_cons] at h
      have hnode : t.node? (base ++ [first]) = some .folder :=
        if_pos (List.isPrefixOf_iff_prefix.2 ⟨names, h⟩)
      have hstay : ¬(first.isEmpty ∨ first = ['.']) := by simp [hdown.1, hdown.2.1]
      rw [List.cons_append, find, if_neg hstay, if_neg hdown.2.2, if_neg hshort, hnode]
      exact ih h

/-- A place below the root directory is looked up from there. -/
theorem lookup_below (t : Tree) (names : List Text) :
    t.lookup (t.root.place ++ names) =
      if placeLimit < placeSize (t.root.place ++ names) then .error .nameTooLong
      else t.find linkLimit t.root.place names := by
  rw [lookup, find_root (List.nil_append t.root.place)]

/-- Without links a name that leads down is looked up at its own place. -/
theorem IsPlain.find_cons (ht : t.IsPlain) (hname : LeadsDown name) :
    t.find links base (name :: rest) =
      if nameLimit < (String.ofList name).utf8ByteSize then .error .nameTooLong
      else
        match t.node? (base ++ [name]) with
        | none => .error .missing
        | some (.file bytes) => if rest.isEmpty then .ok (.file bytes) else .error .notDirectory
        | some _ => t.find links (base ++ [name]) rest := by
  have hstay : ¬(name.isEmpty ∨ name = ['.']) := by simp [hname.1, hname.2.1]
  rw [find, if_neg hstay, if_neg hname.2.2]
  split
  · rfl
  · split
    next hnode => rw [hnode]
    next hnode => rw [hnode]
    next hnode => rw [hnode]
    next target hnode => exact absurd hnode (ht.node?_ne_link _ target)

theorem find_folder (h : IsStorable root files)
    (hkey : base ++ (names ++ name :: rest) ∈ (ofTexts root files).nodes.keys)
    (hnames : ∀ name ∈ names, LeadsDown name ∧ (String.ofList name).utf8ByteSize ≤ nameLimit) :
    (ofTexts root files).find links base names = .ok .folder := by
  induction names generalizing base with
  | nil =>
      rw [find, node?_folder h hkey]
  | cons first names ih =>
      obtain ⟨⟨hdown, hshort⟩, hnames⟩ := List.forall_mem_cons.1 hnames
      rw [List.cons_append, List.append_cons] at hkey
      have hfolder : (ofTexts root files).node? (base ++ [first]) = some .folder := by
        cases names with
        | nil => exact node?_folder h hkey
        | cons second names => exact node?_folder h hkey
      rw [(isPlain_ofTexts root files).find_cons hdown, if_neg (Nat.not_lt.2 hshort), hfolder]
      exact ih hkey hnames

theorem find_file (h : IsStorable root files) (hfile : file ∈ files) (hne : names ≠ [])
    (hsplit : base ++ names = root.place ++ Text.splitOn '/' file.1)
    (hnames : ∀ name ∈ names, LeadsDown name ∧ (String.ofList name).utf8ByteSize ≤ nameLimit) :
    (ofTexts root files).find links base names = .ok (textFile file.2) := by
  induction names generalizing base with
  | nil => exact absurd rfl hne
  | cons first names ih =>
      obtain ⟨⟨hdown, hshort⟩, hnames⟩ := List.forall_mem_cons.1 hnames
      rw [(isPlain_ofTexts root files).find_cons hdown, if_neg (Nat.not_lt.2 hshort)]
      cases names with
      | nil =>
          rw [hsplit, node?_file h hfile]
          rfl
      | cons second names =>
          have hkey : base ++ [first] ++ second :: names ∈ (ofTexts root files).nodes.keys := by
            rw [keys_ofTexts h, List.append_assoc, List.singleton_append, hsplit]
            exact List.mem_map_of_mem (List.mem_map_of_mem hfile)
          rw [node?_folder h hkey]
          refine ih (List.cons_ne_nil second names) ?_ hnames
          rw [List.append_assoc, List.singleton_append, hsplit]

/-- What is not found fails by itself. -/
theorem isContained_of_find {f : Fault} (h : t.find links base names = .error f) :
    f.isContained = true := by
  fun_induction find t links base names with
  | case1 | case7 => cases h
  | case2 | case5 | case6 | case8 | case10 =>
      cases h
      rfl
  | case3 _ _ _ _ _ ih | case4 _ _ _ _ ih => exact ih h
  | case9 _ _ _ _ _ _ _ _ ih | case11 _ _ _ _ _ _ _ _ _ ih => exact ih h

/-- Names that are short are not too long to be found. -/
theorem IsPlain.ne_nameTooLong (ht : t.IsPlain) {f : Fault}
    (hnames : ∀ name ∈ names, LeadsDown name ∧ (String.ofList name).utf8ByteSize ≤ nameLimit)
    (h : t.find links base names = .error f) : f ≠ .nameTooLong := by
  induction names generalizing base with
  | nil =>
      rw [find] at h
      split at h
      · cases h
      · cases h
        simp
  | cons first names ih =>
      obtain ⟨⟨hdown, hshort⟩, hnames⟩ := List.forall_mem_cons.1 hnames
      rw [ht.find_cons hdown, if_neg (Nat.not_lt.2 hshort)] at h
      split at h
      · cases h
        simp
      · split at h
        · cases h
        · cases h
          simp
      · exact ih hnames h

/-- A file is found at its own place. -/
theorem IsPlain.node?_of_find (ht : t.IsPlain) {bytes : ByteArray}
    (hnames : ∀ name ∈ names, LeadsDown name) (h : t.find links base names = .ok (.file bytes)) :
    t.node? (base ++ names) = some (.file bytes) := by
  induction names generalizing base with
  | nil =>
      rw [find] at h
      split at h
      next node hnode =>
        cases h
        rwa [List.append_nil]
      next => cases h
  | cons first names ih =>
      obtain ⟨hdown, hnames⟩ := List.forall_mem_cons.1 hnames
      rw [ht.find_cons hdown] at h
      split at h
      next => cases h
      next =>
        split at h
        next => cases h
        next bytes' hnode =>
          split at h
          next hempty =>
            cases h
            rw [List.isEmpty_iff.1 hempty, hnode]
          next => cases h
        next =>
          rw [List.append_cons]
          exact ih hnames h

theorem isContained_of_lookup {f : Fault} (h : t.lookup place = .error f) :
    f.isContained = true := by
  rw [lookup] at h
  split at h
  · cases h
    rfl
  · exact isContained_of_find h

end Tree
end Finding

section Agreement

variable {root : RootPlace} {files : List (Text × Text)} {file : Text × Text} {path : Text}

namespace Tree

theorem resolve_ofTexts (hpath : IsRegular path) (hnull : Char.ofNat 0 ∉ path) :
    (ofTexts root files).resolve path = .ok (root.place ++ Text.splitOn '/' path) := by
  rw [(isPlain_ofTexts root files).resolve_eq (hpath.isAllowed hnull), hpath.names_eq]
  rfl

/-- What a path that can be named leads to is found from the root directory. -/
theorem lookup_ofTexts (hname : IsNameable root path) :
    (ofTexts root files).lookup (root.place ++ Text.splitOn '/' path) =
      (ofTexts root files).find linkLimit root.place (Text.splitOn '/' path) :=
  (lookup_below (ofTexts root files) _).trans (if_neg (Nat.not_lt.2 hname.small))

/-- The tree and the memory list the same for a path that can be named. -/
theorem entries_eq (h : IsStorable root files) (hpath : IsRegular path)
    (hname : IsNameable root path) :
    (ofTexts root files).entries path = .ok ((MemoryAssets.ofList files).entries path) := by
  have hnames : ∀ name ∈ Text.splitOn '/' path,
      LeadsDown name ∧ (String.ofList name).utf8ByteSize ≤ nameLimit :=
    fun name hmem => ⟨hpath.leadsDown hmem, hname.short name hmem⟩
  rw [← children_ofTexts h hpath, entries, resolve_ofTexts hpath hname.noNull, ok_bind,
    lookup_ofTexts hname]
  by_cases hchildren : (ofTexts root files).children (root.place ++ Text.splitOn '/' path) = []
  · rw [hchildren]
    split
    next => rfl
    next => rfl
    next hfind => exact if_neg ((isPlain_ofTexts root files).ne_nameTooLong hnames hfind)
  · obtain ⟨name, hmem⟩ := List.exists_mem_of_ne_nil _ hchildren
    obtain ⟨rest, hkey⟩ := mem_children.1 hmem
    rw [List.append_assoc] at hkey
    rw [find_folder h hkey hnames]
    rfl

/-- A path of one name that is too long is not listed. -/
theorem entries_of_long (hpath : IsRegular path) (hnull : Char.ofNat 0 ∉ path) (hslash : '/' ∉ path)
    (hlong : nameLimit < (String.ofList path).utf8ByteSize) :
    (ofTexts root files).entries path = .error .nameTooLong := by
  have hsplit : Text.splitOn '/' path = [path] := Text.splitOn_of_not_mem hslash
  have hdown : LeadsDown path := hpath.leadsDown (by simp [hsplit])
  have hlookup : (ofTexts root files).lookup (root.place ++ [path]) = .error .nameTooLong := by
    refine (lookup_below (ofTexts root files) [path]).trans ?_
    rw [(isPlain_ofTexts root files).find_cons hdown, if_pos hlong, ite_self]
  rw [entries, resolve_ofTexts hpath hnull, ok_bind, hsplit, hlookup]
  rfl

theorem decode_textFile (text : Text) :
    decode (String.ofList text).toByteArray = .complete (Text.lines text) := by
  rw [decode, String.toByteArray_ofList, List.utf8Decode?_utf8Encode]

/-- A file has the lines of its text. -/
theorem lines_stored (h : IsStorable root files) (hfile : file ∈ files) :
    (ofTexts root files).lines file.1 = .complete (Text.lines file.2) := by
  have hpath := h.regular file hfile
  have hname := h.nameable file hfile
  have hfind : (ofTexts root files).find linkLimit root.place (Text.splitOn '/' file.1) =
      .ok (textFile file.2) :=
    find_file h hfile (Text.splitOn_ne_nil '/' file.1) rfl
      fun name hmem => ⟨hpath.leadsDown hmem, hname.short name hmem⟩
  rw [lines, resolve_ofTexts hpath hname.noNull]
  dsimp only
  rw [lookup_ofTexts hname, hfind]
  exact decode_textFile file.2

/-- Nothing is read where no file is. -/
theorem lines_other (h : IsStorable root files) (hpath : IsRegular path)
    (hother : path ∉ files.map Prod.fst) :
    ∃ f, (ofTexts root files).lines path = .failed f ∧ f.isContained = true := by
  rw [lines]
  cases hresolve : (ofTexts root files).resolve path with
  | error f => exact ⟨f, rfl, isContained_of_resolve hresolve⟩
  | ok place =>
      have hallowed := isAllowed_of_resolve hresolve
      rw [resolve_ofTexts hpath hallowed.noNull] at hresolve
      cases hresolve
      cases hlookup : (ofTexts root files).lookup (root.place ++ Text.splitOn '/' path) with
      | error f =>
          simp only [hlookup]
          exact ⟨f, rfl, isContained_of_lookup hlookup⟩
      | ok node =>
          simp only [hlookup]
          cases node with
          | folder => exact ⟨.isDirectory, rfl, rfl⟩
          | link target => exact ⟨.isDirectory, rfl, rfl⟩
          | file bytes =>
              have hfind := (lookup_below (ofTexts root files) _).symm.trans hlookup
              split at hfind
              · cases hfind
              have hnode := (isPlain_ofTexts root files).node?_of_find
                (fun name hmem => hpath.leadsDown hmem) hfind
              obtain ⟨file, hfile, hsplit⟩ :=
                exists_file_of_mem_keys h (mem_keys_of_node? hnode nofun)
              rw [Text.splitOn_injective '/' (List.append_cancel_left hsplit)] at hother
              exact absurd (List.mem_map_of_mem hfile) hother

end Tree

theorem lines_memory (h : IsStorable root files) (hfile : file ∈ files) :
    (MemoryAssets.ofList files).lines file.1 = .complete (Text.lines file.2) := by
  have htext : (MemoryAssets.ofList files).files.get? file.1 = some file.2 := by
    rw [h.ofList_eq]
    exact Table.get?_of_mem hfile
  rw [MemoryAssets.lines, IsFolder.bare_eq (.inr (h.regular file hfile).clean), htext]

theorem lines_memory_other (h : IsStorable root files) (hpath : IsRegular path)
    (hother : path ∉ files.map Prod.fst) :
    (MemoryAssets.ofList files).lines path = .failed (.noSuchAsset path) := by
  rw [MemoryAssets.lines, IsFolder.bare_eq (.inr hpath.clean), h.ofList_eq,
    Table.get?_of_not_mem hother]

end Agreement
end Phrasebook
