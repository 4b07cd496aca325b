import Mathlib
import Phrasebook.Proofs.Assets.Links
import Phrasebook.Proofs.Assets.Listing
import Phrasebook.Proofs.Assets.Walking

/-!
# Walks that return

The search for candidates calls itself for every entry, and no depth is given to it but that of the
machine.

**Memory.**  An entry is the next name of a stored path, so that every call is for less of the path
(`MemoryAssets.Goes`), unless the name is empty: the path of an entry without a name means the
folder itself.  The calls are as deep one in the other as a stored path has names behind the root
(`spans_memory_iff`).
**Trees.**  Where no folder comes again below itself, a walk goes through different folders only
(`Tree.Goes`), of which a tree has finitely many.  If a folder does come again, everything below it
comes again as well (`Tree.exists_below_again`), at least if no links go round.
**Result.**  `candidates_returns_iff`: what the search gives, and when.  A file without a name for
one of its folders and a link to a folder around it lead too deep (`candidates_endless`).
-/

namespace Phrasebook

open MemoryAssets (bare folderStart)

section Memory

open Discovery (Collects candidates childPath)

variable {m : MemoryAssets} {path name rest suffix : Text} {paths : List Text} {fuel : Nat}

/-- Does a stored path go on behind a folder with the given rest? -/
def MemoryAssets.HasBelow (m : MemoryAssets) (folder rest : Text) : Prop :=
  folderStart folder ++ rest ∈ m.files.keys ∧ folderStart folder ++ rest ≠ bare folder

theorem length_bare_le (path : Text) : (bare path).length ≤ (folderStart path).length := by
  rw [folderStart]
  split
  next hempty => simp [List.isEmpty_iff.1 hempty]
  next => simp

/-- Below the path of an entry is what goes on behind the name of the entry. -/
theorem hasBelow_childPath_iff (hname : name ≠ []) (hslash : '/' ∉ name) :
    m.HasBelow (childPath path name) rest ↔ m.HasBelow path (name ++ '/' :: rest) := by
  have hbare := bare_childPath path hname hslash
  have hstart : folderStart (childPath path name) ++ rest =
      folderStart path ++ (name ++ '/' :: rest) := by
    rw [folderStart, hbare, if_neg (by simp [hname])]
    simp
  have hne : folderStart path ++ (name ++ '/' :: rest) ≠ folderStart path ++ name := by
    simp
  have hne' : folderStart path ++ (name ++ '/' :: rest) ≠ bare path := by
    intro h
    have hlength := congrArg List.length h
    have hlonger := length_bare_le path
    simp only [List.length_append, List.length_cons] at hlength
    omega
  rw [MemoryAssets.HasBelow, MemoryAssets.HasBelow, hstart, hbare]
  simp [hne, hne']

theorem hasBelow_childPath_nil : m.HasBelow (childPath path []) rest ↔ m.HasBelow path rest := by
  rw [MemoryAssets.HasBelow, MemoryAssets.HasBelow, folderStart, folderStart, bare_childPath_nil]

theorem mem_entries_iff_hasBelow :
    name ∈ m.entries path ↔ ∃ rest, m.HasBelow path rest ∧ Text.before '/' rest = name := by
  simp only [mem_entries, MemoryAssets.HasBelow, and_assoc]

theorem isClean_singleton (hname : name ≠ []) (hslash : '/' ∉ name) : IsClean name := by
  intro part hpart
  rw [Text.splitOn_of_not_mem hslash, List.mem_singleton] at hpart
  rwa [hpart]

/-- If the walk below a path collects, the names below the path are not empty. -/
theorem isClean_of_collects [Machine] (h : Collects m.provider suffix path paths)
    (hbelow : m.HasBelow path rest) : IsClean rest := by
  induction h generalizing rest with
  | skipped hlist => cases hlist
  | @file path hlist =>
      have hmem : Text.before '/' rest ∈ m.entries path :=
        mem_entries_iff_hasBelow.2 ⟨rest, hbelow, rfl⟩
      rw [Except.ok.inj hlist] at hmem
      cases hmem
  | @folder path names _ hlist _ _ ih =>
      have hmem : Text.before '/' rest ∈ names := by
        rw [← Except.ok.inj hlist]
        exact mem_entries_iff_hasBelow.2 ⟨rest, hbelow, rfl⟩
      have hslash := Text.not_mem_before '/' rest
      have hrest := Text.eq_before_or '/' rest
      generalize Text.before '/' rest = name at hmem hslash hrest
      by_cases hname : name = []
      · -- such an entry is the folder itself
        refine ih name hmem ?_
        rwa [hname, hasBelow_childPath_nil]
      · have hclean := isClean_singleton hname hslash
        rcases hrest with rfl | ⟨behind, rfl⟩
        · exact hclean
        · have hbehind := ih name hmem ((hasBelow_childPath_iff hname hslash).2 hbelow)
          exact isClean_append_cons.2 ⟨hclean, hbehind⟩

end Memory

section Depth

open Discovery (Collects candidates childPath)

variable [Machine] {m : MemoryAssets} {path name rest suffix : Text} {paths : List Text}
  {fuel : Nat}

/-- How much fuel is left for what goes on behind a path. -/
structure MemoryAssets.Goes (m : MemoryAssets) (fuel : Nat) (path : Text) : Prop where
  pos : 0 < fuel
  below : ∀ rest, m.HasBelow path rest → IsClean rest ∧ rest.length < fuel

theorem MemoryAssets.Goes.enters {folder : Text} (h : m.Goes (fuel + 1) folder)
    (henters : m.provider.Enters folder path) : m.Goes fuel path := by
  obtain ⟨name, hname, rfl⟩ := (Discovery.enters_iff_of_list rfl).1 henters
  obtain ⟨rest, hrest, rfl⟩ := mem_entries_iff_hasBelow.1 hname
  obtain ⟨hclean, hshort⟩ := h.below rest hrest
  have hne := (isClean_before hclean).ne_nil
  refine ⟨?_, fun behind hbehind => ?_⟩
  · have hpos := List.length_pos_iff.2 hclean.ne_nil
    omega
  · rw [hasBelow_childPath_iff hne (Text.not_mem_before '/' rest)] at hbehind
    obtain ⟨hcleanBehind, hshortBehind⟩ := h.below _ hbehind
    refine ⟨(isClean_append_cons.1 hcleanBehind).2, ?_⟩
    simp only [List.length_append, List.length_cons] at hshortBehind
    omega

theorem exists_collects_memory (suffix : Text)
    (h : ∀ rest, m.HasBelow path rest → IsClean rest) :
    ∃ paths, Collects m.provider suffix path paths := by
  have hzero : ∀ path, ¬m.Goes 0 path := fun _ hgoes => Nat.lt_irrefl 0 hgoes.pos
  have hgoes : m.Goes (m.files.keys.flatten.length + 1) path := by
    refine ⟨Nat.succ_pos _, fun rest hrest => ⟨h rest hrest, ?_⟩⟩
    have hlength := (List.sublist_flatten_of_mem hrest.1).length_le
    rw [List.length_append] at hlength
    omega
  obtain ⟨paths, hpaths⟩ := Discovery.exists_candidatesWithin hzero (fun hgoes => hgoes.enters)
    (fun _ hlist => nomatch hlist) suffix hgoes
  exact ⟨paths, Discovery.collects_of_candidatesWithin hpaths⟩

/-- A stored path has a folder to enter for every name behind a path. -/
theorem exists_chain_of_hasBelow (hbelow : m.HasBelow path rest) (hclean : IsClean rest) :
    ∃ chain, (path :: chain).IsChain m.provider.Enters ∧
      chain.length = (Text.splitOn '/' rest).length := by
  generalize hcount : (Text.splitOn '/' rest).length = count
  induction count generalizing path rest with
  | zero =>
      obtain ⟨parts, hparts⟩ := Text.exists_splitOn_eq_cons '/' rest
      simp [hparts] at hcount
  | succ count ih =>
      have hne := (isClean_before hclean).ne_nil
      have hslash := Text.not_mem_before '/' rest
      have henters : m.provider.Enters path (childPath path (Text.before '/' rest)) :=
        ⟨_, rfl, _, mem_entries_iff_hasBelow.2 ⟨rest, hbelow, rfl⟩, rfl⟩
      rcases Text.eq_before_or '/' rest with hrest | ⟨behind, hrest⟩
      · refine ⟨[_], List.isChain_cons_cons.2 ⟨henters, .singleton _⟩, ?_⟩
        rw [hrest, Text.splitOn_of_not_mem hslash] at hcount
        exact hcount
      · have hbehind : m.HasBelow (childPath path (Text.before '/' rest)) behind :=
          (hasBelow_childPath_iff hne hslash).2 (hrest ▸ hbelow)
        rw [hrest, Text.splitOn_append_cons, Text.splitOn_of_not_mem hslash] at hcount
        rw [hrest] at hclean
        obtain ⟨chain, hchain, hlength⟩ := ih hbehind (isClean_append_cons.1 hclean).2
          (Nat.succ.inj hcount)
        exact ⟨_ :: chain, List.isChain_cons_cons.2 ⟨henters, hchain⟩, congrArg Nat.succ hlength⟩

/-- What is entered one below the other are names of a stored path. -/
theorem exists_hasBelow_of_chain {next : Text} {chain : List Text}
    (h : ∀ rest, m.HasBelow path rest → IsClean rest)
    (hchain : (path :: next :: chain).IsChain m.provider.Enters) :
    ∃ rest, m.HasBelow path rest ∧ chain.length < (Text.splitOn '/' rest).length := by
  induction chain generalizing path next with
  | nil =>
      obtain ⟨⟨names, hlist, name, hname, -⟩, -⟩ := List.isChain_cons_cons.1 hchain
      cases hlist
      obtain ⟨rest, hrest, -⟩ := mem_entries_iff_hasBelow.1 hname
      obtain ⟨parts, hparts⟩ := Text.exists_splitOn_eq_cons '/' rest
      exact ⟨rest, hrest, by simp [hparts]⟩
  | cons second chain ih =>
      obtain ⟨⟨names, hlist, name, hname, rfl⟩, hchain⟩ := List.isChain_cons_cons.1 hchain
      cases hlist
      obtain ⟨rest, hrest, rfl⟩ := mem_entries_iff_hasBelow.1 hname
      have hne := (isClean_before (h rest hrest)).ne_nil
      have hslash := Text.not_mem_before '/' rest
      obtain ⟨behind, hbehind, hlength⟩ := ih (fun behind hbehind =>
        (isClean_append_cons.1 (h _ ((hasBelow_childPath_iff hne hslash).1 hbehind))).2) hchain
      refine ⟨_, (hasBelow_childPath_iff hne hslash).1 hbehind, ?_⟩
      rw [Text.splitOn_append_cons, Text.splitOn_of_not_mem hslash]
      exact Nat.succ_lt_succ hlength

/-- A search in memory goes as deep as the stored paths have names. -/
theorem spans_memory_iff (h : ∀ rest, m.HasBelow path rest → IsClean rest) :
    m.provider.Spans path ↔
      ∀ rest, m.HasBelow path rest → (Text.splitOn '/' rest).length ≤ Machine.folderDepth := by
  constructor
  · intro hspans rest hrest
    obtain ⟨chain, hchain, hlength⟩ := exists_chain_of_hasBelow hrest (h rest hrest)
    exact hlength ▸ hspans chain hchain
  · intro hdepth chain hchain
    cases chain with
    | nil => exact Nat.zero_le _
    | cons next chain =>
        obtain ⟨rest, hrest, hlength⟩ := exists_hasBelow_of_chain h hchain
        exact Nat.le_trans hlength (hdepth rest hrest)

/-- Stored paths of few names are within reach. -/
theorem spans_memory_of_collects (h : Collects m.provider suffix path paths)
    (hdepth : ∀ key ∈ m.files.keys, (Text.splitOn '/' key).length ≤ Machine.folderDepth) :
    m.provider.Spans path := by
  refine (spans_memory_iff fun _ => isClean_of_collects h).2 fun rest hrest => ?_
  have hkey := hdepth _ hrest.1
  rw [folderStart] at hkey
  split at hkey
  · rwa [List.nil_append] at hkey
  · rw [List.append_assoc, List.singleton_append, Text.splitOn_append_cons,
      List.length_append] at hkey
    exact Nat.le_trans (Nat.le_add_left _ _) hkey

/-- The search in memory gives a list exactly if the names behind the root are names, and few. -/
theorem exists_candidates_memory_iff :
    (∃ paths, candidates m.provider path suffix = .ok paths) ↔
      ∀ rest, m.HasBelow path rest →
        IsClean rest ∧ (Text.splitOn '/' rest).length ≤ Machine.folderDepth := by
  constructor
  · rintro ⟨paths, hpaths⟩ rest hrest
    obtain ⟨hcollects, hspans⟩ := Discovery.candidates_eq_ok_iff.1 hpaths
    have hclean : ∀ rest, m.HasBelow path rest → IsClean rest :=
      fun _ => isClean_of_collects hcollects
    exact ⟨hclean rest hrest, (spans_memory_iff hclean).1 hspans rest hrest⟩
  · intro h
    obtain ⟨paths, hpaths⟩ := exists_collects_memory suffix fun rest hrest => (h rest hrest).1
    exact ⟨paths, hpaths.candidates_eq ((spans_memory_iff fun rest hrest => (h rest hrest).1).2
      fun rest hrest => (h rest hrest).2)⟩

end Depth

section Tree

open Discovery (Collects candidates childPath)
open Relation (ReflTransGen TransGen)

namespace Tree

section Listing

variable {t : Tree} {path folder name : Text} {place : Place}

theorem isContained_of_entries {f : Fault} (h : t.entries path = .error f) :
    f.isContained = true := by
  rcases bind_eq_error_iff.1 h with hresolve | ⟨place, -, hlookup⟩
  · exact isContained_of_resolve hresolve
  · split at hlookup
    next => cases hlookup
    next => cases hlookup
    next =>
      split at hlookup
      next hlong =>
        cases hlookup
        exact hlong ▸ rfl
      next => cases hlookup

/-- Which entries a path lists is a matter of where it leads. -/
theorem entries_congr (h : t.resolve path = t.resolve folder) :
    t.entries path = t.entries folder := by
  rw [entries, entries, h]

theorem childPath_ne_nil (h : path ≠ []) (name : Text) : childPath path name ≠ [] := by
  rw [childPath, if_neg (by simpa using h)]
  simp

/-- The places that have names below them. -/
def folders (t : Tree) : List Place :=
  t.nodes.keys.flatMap fun key => (List.range key.length).map key.take

theorem mem_folders (h : name ∈ t.children place) : place ∈ t.folders := by
  obtain ⟨rest, hkey⟩ := mem_children.1 h
  refine List.mem_flatMap.2 ⟨_, hkey, List.mem_map.2 ⟨place.length, ?_, List.take_left⟩⟩
  rw [List.mem_range, List.length_append, List.length_cons]
  omega

end Listing

variable [Machine] {t : Tree} {root folder path other name suffix : Text} {place inner : Place}
  {paths : List Text} {fuel : Nat}

/-- Does a walk from a root come to no folder again below itself? -/
def IsOnward (t : Tree) (root : Text) : Prop :=
  ∀ folder path, ReflTransGen t.provider.Enters root folder →
    TransGen t.provider.Enters folder path → t.resolve path ≠ t.resolve folder

/-- Does every path that a walk from a root comes to lead somewhere?  Only one with links that go
round does not. -/
def IsLoopless (t : Tree) (root : Text) : Prop :=
  ∀ path, ReflTransGen t.provider.Enters root path → IsAllowed path →
    ∃ place, t.Reaches path place

/-- What is entered is a name below the place of the folder. -/
theorem exists_children_of_enters (h : t.provider.Enters folder path) :
    ∃ place name, t.resolve folder = .ok place ∧ name ∈ t.children place ∧
      path = childPath folder name := by
  obtain ⟨names, hlist, name, hname, hpath⟩ := h
  obtain ⟨place, hplace, hentries⟩ := bind_eq_ok_iff.1 hlist
  refine ⟨place, name, hplace, ?_, hpath⟩
  split at hentries
  · cases hentries
    exact hname
  · cases hentries
    cases hname
  · split at hentries
    · cases hentries
    · cases hentries
      cases hname

theorem exists_resolve_of_enters (h : t.provider.Enters folder path) :
    ∃ place, t.resolve folder = .ok place := by
  obtain ⟨place, -, hplace, -⟩ := exists_children_of_enters h
  exact ⟨place, hplace⟩

/-- Only the root of all paths can be an entry of itself. -/
theorem enters_nil (h : TransGen t.provider.Enters folder []) : t.provider.Enters [] [] := by
  obtain ⟨last, -, hlast⟩ := TransGen.tail'_iff.1 h
  obtain ⟨names, hlist, name, hname, hchild⟩ := hlast
  by_cases hne : last = []
  · subst hne
    exact ⟨names, hlist, name, hname, hchild⟩
  · exact absurd hchild.symm (childPath_ne_nil hne name)

theorem IsLoopless.reaches (h : t.IsLoopless root)
    (hvisits : ReflTransGen t.provider.Enters root path) (hpath : t.resolve path = .ok place) :
    t.Reaches path place :=
  reaches_of_resolve hpath (h path hvisits (isAllowed_of_resolve hpath))

/-- What a folder enters, another path to the folder enters as well. -/
theorem exists_enters_again (hroot : t.IsLoopless root)
    (hfolder : ReflTransGen t.provider.Enters root folder)
    (hvisits : ReflTransGen t.provider.Enters root other)
    (hother : t.resolve other = t.resolve folder) (hne : other ≠ [])
    (henters : t.provider.Enters folder path) (hpath : t.resolve path = .ok inner) :
    ∃ again, t.provider.Enters other again ∧ again ≠ [] ∧ t.resolve again = t.resolve path := by
  obtain ⟨place, hplace⟩ := exists_resolve_of_enters henters
  have hinner := hroot.reaches (hfolder.tail henters) hpath
  obtain ⟨names, hlist, name, hname, rfl⟩ := henters
  have hplace' := hother.trans hplace
  have hagain : t.Reaches (childPath other name) inner :=
    (hroot.reaches hfolder hplace).childPath (hroot.reaches hvisits hplace') hinner
  have hallowed : IsAllowed (childPath other name) :=
    isAllowed_childPath (isAllowed_of_resolve hplace') hne (isAllowed_of_resolve hpath)
  refine ⟨_, ⟨names, (entries_congr hother).trans hlist, name, hname, rfl⟩,
    childPath_ne_nil hne name, ?_⟩
  rw [hagain.resolve_eq hallowed (prefix_of_resolve hpath), hpath]

/-- What lies below a folder lies below every other path to the folder. -/
theorem exists_below_again (hroot : t.IsLoopless root)
    (hfolder : ReflTransGen t.provider.Enters root folder)
    (hvisits : ReflTransGen t.provider.Enters root other)
    (hother : t.resolve other = t.resolve folder) (hne : other ≠ [])
    (hbelow : TransGen t.provider.Enters folder path) (hpath : t.resolve path = .ok inner) :
    ∃ again, TransGen t.provider.Enters other again ∧ again ≠ [] ∧
      t.resolve again = t.resolve path := by
  induction hbelow generalizing inner with
  | single henters =>
      obtain ⟨again, hagain, h⟩ :=
        exists_enters_again hroot hfolder hvisits hother hne henters hpath
      exact ⟨again, .single hagain, h⟩
  | tail hbelow henters ih =>
      obtain ⟨place, hplace⟩ := exists_resolve_of_enters henters
      obtain ⟨middle, hmiddle, hmiddleNe, hsame⟩ := ih hplace
      obtain ⟨again, hagain, h⟩ := exists_enters_again hroot (hfolder.trans hbelow.to_reflTransGen)
        (hvisits.trans hmiddle.to_reflTransGen) hsame hmiddleNe henters hpath
      exact ⟨again, hmiddle.tail hagain, h⟩

/-- No walk that collects comes to a folder again below itself. -/
theorem onward_of_acc (hroot : t.IsLoopless root)
    (hacc : Acc (fun path folder => t.provider.Enters folder path) folder)
    (hfolder : ReflTransGen t.provider.Enters root folder)
    (hbelow : TransGen t.provider.Enters folder path) : t.resolve path ≠ t.resolve folder := by
  have hacc' := acc_transGen_iff.2 hacc
  clear hacc
  induction hacc' generalizing path with
  | intro folder hacc ih =>
      intro hsame
      have hpath := hfolder.trans hbelow.to_reflTransGen
      have hacc' : TransGen (fun path folder => t.provider.Enters folder path) path folder :=
        Relation.transGen_swap.1 hbelow
      have hne : path ≠ [] := by
        rintro rfl
        exact ih [] hacc' hpath (.single (enters_nil hbelow)) rfl
      obtain ⟨first, hfirst, -⟩ := TransGen.head'_iff.1 hbelow
      obtain ⟨place, hplace⟩ := exists_resolve_of_enters hfirst
      -- the path leads to the folder, so it has a path to the folder below itself as well
      obtain ⟨again, hagain, -, h⟩ :=
        exists_below_again hroot hfolder hpath hsame hne hbelow (hsame.trans hplace)
      exact ih path hacc' hpath hagain h

theorem isOnward_of_collects (hroot : t.IsLoopless root)
    (h : Collects t.provider suffix root paths) : t.IsOnward root := by
  intro folder path hvisits hbelow
  obtain ⟨others, hothers⟩ := h.visits hvisits
  exact onward_of_acc hroot hothers.acc hvisits hbelow

/-- How much fuel is left below a path: all folders that the walk went through are different. -/
structure Goes (t : Tree) (root : Text) (fuel : Nat) (path : Text) : Prop where
  visited : ReflTransGen t.provider.Enters root path
  passed : ∃ places : List Place, places.Nodup ∧ places.length + fuel = t.folders.length + 1 ∧
    ∀ place ∈ places, place ∈ t.folders ∧ ∃ folder, ReflTransGen t.provider.Enters root folder ∧
      TransGen t.provider.Enters folder path ∧ t.resolve folder = .ok place

theorem not_goes_zero : ¬t.Goes root 0 path := by
  rintro ⟨-, places, hnodup, hlength, hplaces⟩
  have hle : places.length ≤ t.folders.length :=
    (hnodup.subperm fun place hplace => (hplaces place hplace).1).length_le
  omega

theorem Goes.enters (hroot : t.IsOnward root) (h : t.Goes root (fuel + 1) folder)
    (henters : t.provider.Enters folder path) : t.Goes root fuel path := by
  obtain ⟨hvisited, places, hnodup, hlength, hplaces⟩ := h
  obtain ⟨place, name, hplace, hname, hpath⟩ := exists_children_of_enters henters
  have hfresh : place ∉ places := by
    intro hmem
    obtain ⟨-, around, haround, hbelow, hsame⟩ := hplaces place hmem
    exact hroot around folder haround hbelow (hplace.trans hsame.symm)
  refine ⟨hvisited.tail henters, place :: places, List.nodup_cons.2 ⟨hfresh, hnodup⟩, ?_, ?_⟩
  · rw [List.length_cons]
    omega
  · refine List.forall_mem_cons.2 ⟨?_, fun passed hpassed => ?_⟩
    · exact ⟨mem_folders hname, folder, hvisited, .single henters, hplace⟩
    · obtain ⟨hmem, around, haround, hbelow, hsame⟩ := hplaces passed hpassed
      exact ⟨hmem, around, haround, hbelow.tail henters, hsame⟩

theorem exists_collects_of_isOnward (suffix : Text) (h : t.IsOnward root) :
    ∃ paths, Collects t.provider suffix root paths := by
  have hgoes : t.Goes root (t.folders.length + 1) root :=
    ⟨.refl, [], List.nodup_nil, Nat.zero_add _, fun _ hmem => nomatch hmem⟩
  obtain ⟨paths, hpaths⟩ := Discovery.exists_candidatesWithin (fun _ => not_goes_zero)
    (fun hgoes => hgoes.enters h) (fun _ => isContained_of_entries) suffix hgoes
  exact ⟨paths, Discovery.collects_of_candidatesWithin hpaths⟩

/-- Without links every step leads further down. -/
theorem IsPlain.length_lt (ht : t.IsPlain) (h : TransGen t.provider.Enters folder path) :
    (names folder).length < (names path).length := by
  have hstep : ∀ {folder path}, t.provider.Enters folder path →
      (names folder).length < (names path).length := by
    intro folder path henters
    obtain ⟨place, name, -, hname, rfl⟩ := exists_children_of_enters henters
    obtain ⟨rest, hkey⟩ := mem_children.1 hname
    rw [names_childPath, ht.named _ hkey name (by simp), List.length_append]
    exact Nat.lt_succ_self _
  induction h with
  | single henters => exact hstep henters
  | tail _ henters ih => exact Nat.lt_trans ih (hstep henters)

theorem IsPlain.isOnward (ht : t.IsPlain) (root : Text) : t.IsOnward root := by
  intro folder path _ hbelow hsame
  obtain ⟨first, hfirst, -⟩ := TransGen.head'_iff.1 hbelow
  obtain ⟨place, hplace⟩ := exists_resolve_of_enters hfirst
  have hfolder := ht.resolve_eq (isAllowed_of_resolve hplace)
  have hpath := ht.resolve_eq (isAllowed_of_resolve (hsame.trans hplace))
  rw [hfolder, hpath] at hsame
  have hnames := List.append_cancel_left (Except.ok.inj hsame)
  exact Nat.ne_of_gt (ht.length_lt hbelow) (congrArg List.length hnames)

end Tree
end Tree

namespace Discovery

/-- The search gives what nested calls lead to that come to an end, if the machine goes as deep;
else it goes too deep.  In memory they come to an end exactly if what goes on behind the root has a
name between any two slashes, and they are as deep as there are names.  In a tree they come to an
end if no folder comes again below itself, and if no links go round only then; so they do in every
tree without links. -/
theorem candidates_returns_iff [Machine] (root suffix : Text) :
    (∀ (p : Provider) (paths : List Text), candidates p root suffix = .ok paths ↔
      Collects p suffix root paths ∧ p.Spans root) ∧
    (∀ m : MemoryAssets,
      ((∃ paths, Collects m.provider suffix root paths) ↔
        ∀ rest, m.HasBelow root rest → IsClean rest) ∧
      ((∃ paths, candidates m.provider root suffix = .ok paths) ↔
        ∀ rest, m.HasBelow root rest →
          IsClean rest ∧ (Text.splitOn '/' rest).length ≤ Machine.folderDepth) ∧
      ∀ f, candidates m.provider root suffix = .error f → f = .foldersTooDeep) ∧
    (∀ t : Tree,
      (t.IsOnward root → ∃ paths, Collects t.provider suffix root paths) ∧
      (t.IsLoopless root →
        ((∃ paths, Collects t.provider suffix root paths) ↔ t.IsOnward root)) ∧
      ∀ f, candidates t.provider root suffix = .error f → f = .foldersTooDeep) ∧
    ∀ (place : RootPlace) (nodes : List (Text × Node)),
      (∀ e ∈ nodes, ∀ target, e.2 ≠ .link target) →
        ∃ paths, Collects (Tree.ofList place nodes).provider suffix root paths := by
  refine ⟨fun p paths => candidates_eq_ok_iff, fun m => ⟨?_, exists_candidates_memory_iff, ?_⟩,
    fun t => ⟨Tree.exists_collects_of_isOnward suffix, fun hloopless => ?_, ?_⟩,
    fun place nodes hnodes => ?_⟩
  · constructor
    · rintro ⟨paths, hpaths⟩ rest
      exact isClean_of_collects hpaths
    · exact exists_collects_memory suffix
  · exact fun f => eq_of_candidates_eq_error fun _ _ hlist => nomatch hlist
  · constructor
    · rintro ⟨paths, hpaths⟩
      exact Tree.isOnward_of_collects hloopless hpaths
    · exact Tree.exists_collects_of_isOnward suffix
  · exact fun f => eq_of_candidates_eq_error fun _ _ => Tree.isContained_of_entries
  · exact Tree.exists_collects_of_isOnward suffix ((Tree.isPlain_ofList hnodes).isOnward root)

end Discovery

namespace Tree

/-- A folder with a file and a link to the folder around it. -/
def upward : Tree :=
  ofList ⟨["srv".toList], by decide⟩
    [("po/a.po".toList, textFile []), ("po/up".toList, .link "..".toList)]

theorem upward_linkAt? :
    upward.linkAt? ["srv".toList, "po".toList, "up".toList] = some "..".toList := by
  cbv

theorem upward_isLoopless [Machine] (root : Text) : upward.IsLoopless root := by
  refine fun path _ _ => exists_follows (fun place name target hlink => ?_) _ _
  have hkeys : upward.nodes.keys =
      [["srv".toList, "po".toList, "a.po".toList], ["srv".toList, "po".toList, "up".toList]] := by
    decide
  have hkey := mem_keys_of_linkAt? hlink
  rw [hkeys] at hkey
  rcases List.mem_pair.1 hkey with hplace | hplace
  · have hfile : upward.linkAt? ["srv".toList, "po".toList, "a.po".toList] = none := by cbv
    rw [hplace, hfile] at hlink
    cases hlink
  · rw [hplace, upward_linkAt?] at hlink
    cases hlink
    exact ⟨_, 0, .up .nil⟩

theorem upward_resolve_po : upward.resolve "po".toList = .ok ["srv".toList, "po".toList] := by
  have hreaches : upward.Reaches "po".toList ["srv".toList, "po".toList] :=
    ⟨0, .step (by decide) (by decide) (by cbv) .nil⟩
  exact hreaches.resolve_eq ⟨by decide, by decide, by decide⟩ (by decide)

theorem upward_resolve_up : upward.resolve "po/up".toList = .ok ["srv".toList] := by
  have hreaches : upward.Reaches "po/up".toList ["srv".toList] :=
    ⟨1, .step (by decide) (by decide) (by cbv)
      (.link (by decide) (by decide) upward_linkAt? (.up .nil) .nil)⟩
  exact hreaches.resolve_eq ⟨by decide, by decide, by decide⟩ (by decide)

theorem upward_resolve_again : upward.resolve "po/up/po".toList = upward.resolve "po".toList := by
  have hreaches : upward.Reaches "po/up/po".toList ["srv".toList, "po".toList] :=
    ⟨1, .step (by decide) (by decide) (by cbv)
      (.link (by decide) (by decide) upward_linkAt? (.up .nil)
        (.step (by decide) (by decide) (by cbv) .nil))⟩
  rw [upward_resolve_po]
  exact hreaches.resolve_eq ⟨by decide, by decide, by decide⟩ (by decide)

theorem upward_entries_po : upward.entries "po".toList = .ok ["a.po".toList, "up".toList] := by
  rw [entries, upward_resolve_po]
  cbv

theorem upward_entries_up : upward.entries "po/up".toList = .ok ["po".toList] := by
  rw [entries, upward_resolve_up]
  cbv

/-- The folder comes again below the link. -/
theorem not_isOnward_upward [Machine] : ¬upward.IsOnward "po".toList := by
  intro h
  have hup : upward.provider.Enters "po".toList "po/up".toList :=
    ⟨_, upward_entries_po, "up".toList, by decide, by decide⟩
  have hagain : upward.provider.Enters "po/up".toList "po/up/po".toList :=
    ⟨_, upward_entries_up, "po".toList, by decide, by decide⟩
  exact h _ _ .refl (.tail (.single hup) hagain) upward_resolve_again

end Tree

namespace Discovery

/-- An entry without a name lists its folder again, and so does a link to a folder around it. -/
theorem candidates_endless :
    candidates (MemoryAssets.ofList [("po//a.po".toList, [])]).provider "po".toList
      ".po".toList = .error .foldersTooDeep ∧
    candidates Tree.upward.provider "po".toList ".po".toList = .error .foldersTooDeep := by
  constructor
  · refine candidates_eq_error (fun _ _ hlist => nomatch hlist) ?_
    rintro ⟨paths, hpaths⟩
    have hbelow : (MemoryAssets.ofList [("po//a.po".toList, [])]).HasBelow "po".toList
        "/a.po".toList := by
      constructor <;> decide
    exact absurd (isClean_of_collects (collects_of_candidatesWithin hpaths) hbelow) (by decide)
  · refine candidates_eq_error (fun _ _ => Tree.isContained_of_entries) ?_
    rintro ⟨paths, hpaths⟩
    exact Tree.not_isOnward_upward (Tree.isOnward_of_collects (Tree.upward_isLoopless _)
      (collects_of_candidatesWithin hpaths))

end Discovery
end Phrasebook
