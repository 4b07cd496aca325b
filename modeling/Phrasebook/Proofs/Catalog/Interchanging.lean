import Mathlib
import Phrasebook.Catalog.Basic
import Phrasebook.Proofs.Assets.Indexing
import Phrasebook.Proofs.Assets.Mirroring
import Phrasebook.Proofs.Assets.Ordering
import Phrasebook.Proofs.Catalog.Loading
import Phrasebook.Proofs.Text.Lines

/-!
# Interchanging memory and disk

Whoever reads texts through a provider cannot tell whether they are kept in memory or in files.

**Candidates.**  A walk from a regular root comes to paths of files and of folders above them only,
all of which can be named, and both providers list these alike.  A root that cannot be named has
nothing below it; the tree may fail to list it.
**Index.**  Where there is no file both declare no tag, so that both have one index (`discover_eq`),
which has files only (`mem_files_of_indexed`).
**Loading.**  A load reads indexed paths only (`load_congr`).
-/

namespace Phrasebook

open Catalog (indexed)
open Discovery (candidates candidatesWithin childPath declaredTag discover indexPaths)

variable {directory : RootPlace} {files : List (Text × Text)}
  {root folder path name suffix : Text} {paths : List Text}

section Candidates

/-- An entry of a folder is the next name of a file below it. -/
theorem exists_file_of_entry (h : IsStorable directory files) (hfolder : IsClean folder)
    (hentry : name ∈ (MemoryAssets.ofList files).entries folder) :
    ∃ e ∈ files, ∃ rest, e.1 = folder ++ '/' :: rest ∧ Text.before '/' rest = name := by
  obtain ⟨rest, hkey, hname⟩ := (mem_entries_iff h.isTidy.clean (.inr hfolder)).1 hentry
  rw [h.ofList_eq] at hkey
  obtain ⟨e, he, hpath⟩ := List.mem_map.1 hkey
  exact ⟨e, he, rest, by rw [hpath, hfolder.folderStart_append], hname⟩

/-- Only paths that can be named are entered. -/
theorem regular_of_enters [Machine] (h : IsStorable directory files) (hfolder : IsRegular folder)
    (henters : (MemoryAssets.ofList files).provider.Enters folder path) :
    IsRegular path ∧ IsNameable directory path := by
  obtain ⟨names, hlist, name, hname, rfl⟩ := henters
  cases hlist
  obtain ⟨e, he, rest, hpath, rfl⟩ := exists_file_of_entry h hfolder.clean hname
  have hchild :
      childPath folder (Text.before '/' rest) = folder ++ '/' :: Text.before '/' rest := by
    rw [IsFolder.childPath_eq (.inr hfolder.clean), hfolder.clean.folderStart_append]
  have hregular := h.regular e he
  have hnameable := h.nameable e he
  rw [hpath] at hregular hnameable
  rcases Text.eq_before_or '/' rest with hrest | ⟨behind, hrest⟩
  · rw [hchild, ← hrest]
    exact ⟨hregular, hnameable⟩
  · have hbehind : folder ++ '/' :: rest =
        folder ++ '/' :: Text.before '/' rest ++ '/' :: behind := by
      rw [List.append_assoc, List.cons_append, ← hrest]
    rw [hbehind] at hregular hnameable
    rw [hchild]
    exact ⟨hregular.of_append, hnameable.of_append⟩

theorem isRegular_of_candidates [Machine] (h : IsStorable directory files) (hroot : IsRegular root)
    (hpaths : candidates (MemoryAssets.ofList files).provider root suffix = .ok paths) :
    ∀ path ∈ paths, IsRegular path :=
  (Discovery.collects_of_candidatesWithin hpaths).forall_mem
    (fun _ _ hfolder henters => (regular_of_enters h hfolder henters).1) hroot

/-- Below a root that can be named the tree has the candidates of the memory. -/
theorem candidates_nameable [Machine] (suffix : Text) (h : IsStorable directory files)
    (hroot : IsRegular root) (hname : IsNameable directory root) :
    candidates (Tree.ofTexts directory files).provider root suffix =
      candidates (MemoryAssets.ofList files).provider root suffix := by
  have hlist : ∀ path, IsRegular path ∧ IsNameable directory path →
      (Tree.ofTexts directory files).provider.list path =
        (MemoryAssets.ofList files).provider.list path :=
    fun path hvisited => Tree.entries_eq h hvisited.1 hvisited.2
  exact Discovery.candidatesWithin_congr hlist
    (fun _ _ hvisited henters => regular_of_enters h hvisited.1 henters) ⟨hroot, hname⟩

/-- Below a root that cannot be named there is nothing. -/
theorem entries_unnameable (h : IsStorable directory files) (hroot : IsRegular root)
    (hname : ¬IsNameable directory root) : (MemoryAssets.ofList files).entries root = [] := by
  refine List.eq_nil_iff_forall_not_mem.2 fun name hentry => hname ?_
  obtain ⟨e, he, rest, hpath, -⟩ := exists_file_of_entry h hroot.clean hentry
  have hnameable := h.nameable e he
  rw [hpath] at hnameable
  exact hnameable.of_append

/-- A root that cannot be named is at most a candidate itself, in memory more often than on disk. -/
theorem candidates_unnameable [Machine] (suffix : Text) (h : IsStorable directory files)
    (hroot : IsRegular root) (hname : ¬IsNameable directory root) :
    ∃ paths, paths ⊆ [root] ∧
      candidates (MemoryAssets.ofList files).provider root suffix = .ok paths ∧
      (candidates (Tree.ofTexts directory files).provider root suffix = .ok paths ∨
        candidates (Tree.ofTexts directory files).provider root suffix = .ok []) := by
  have hnone := entries_unnameable h hroot hname
  have hmemory : (MemoryAssets.ofList files).provider.list root = .ok [] := congrArg Except.ok hnone
  refine ⟨if root.endsWith suffix then [root] else [], ?_, ?_, ?_⟩
  · split
    · exact List.Subset.refl _
    · exact List.nil_subset _
  · rw [candidates, candidatesWithin, hmemory]
  · rw [candidates, candidatesWithin]
    cases hlist : (Tree.ofTexts directory files).provider.list root with
    | error f =>
        exact .inr (if_pos (Tree.isContained_of_entries hlist))
    | ok names =>
        cases names with
        | nil => exact .inl rfl
        | cons name names =>
            obtain ⟨place, name', hplace, hchild, -⟩ := Tree.exists_children_of_enters
              ⟨_, hlist, name, List.mem_cons_self, rfl⟩
            have hallowed := Tree.isAllowed_of_resolve hplace
            rw [Tree.resolve_ofTexts hroot hallowed.noNull] at hplace
            cases hplace
            rw [Tree.children_ofTexts h hroot, hnone] at hchild
            cases hchild

end Candidates

section Index

variable {p q : Provider} {index : Index}

theorem declaredTag_failed {f : Fault} (h : f.isContained = true) :
    declaredTag (.failed f) = .ok none :=
  if_pos h

theorem indexPaths_congr
    (h : ∀ path ∈ paths, declaredTag (q.read path) = declaredTag (p.read path)) :
    indexPaths q paths index = indexPaths p paths index := by
  induction paths generalizing index with
  | nil => rfl
  | cons path paths ih =>
      obtain ⟨hpath, hpaths⟩ := List.forall_mem_cons.1 h
      rw [indexPaths, indexPaths, hpath]
      split
      · rfl
      · exact ih hpaths
      · exact ih hpaths

/-- Memory and disk declare the same tag for a path, and none where there is no file. -/
theorem exists_declaredTag_stored [Machine] (h : IsStorable directory files)
    (hpath : IsRegular path) :
    ∃ tag?, declaredTag ((MemoryAssets.ofList files).provider.read path) = .ok tag? ∧
      declaredTag ((Tree.ofTexts directory files).provider.read path) = .ok tag? ∧
      (path ∉ files.map Prod.fst → tag? = none) := by
  by_cases hstored : path ∈ files.map Prod.fst
  · obtain ⟨e, he, rfl⟩ := List.mem_map.1 hstored
    obtain ⟨tag?, htag, -⟩ :=
      Discovery.exists_declaredTag (d := .complete (Text.lines e.2)) fun _ hfault => nomatch hfault
    exact ⟨tag?, (congrArg declaredTag (lines_memory h he)).trans htag,
      (congrArg declaredTag (Tree.lines_stored h he)).trans htag,
      fun hother => absurd hstored hother⟩
  · obtain ⟨f, hlines, hcontained⟩ := Tree.lines_other h hpath hstored
    exact ⟨none,
      (congrArg declaredTag (lines_memory_other h hpath hstored)).trans (declaredTag_failed rfl),
      (congrArg declaredTag hlines).trans (declaredTag_failed hcontained), fun _ => rfl⟩

theorem indexPaths_undeclared (h : ∀ path ∈ paths, declaredTag (p.read path) = .ok none) :
    indexPaths p paths index = .ok index := by
  induction paths with
  | nil => rfl
  | cons path paths ih =>
      obtain ⟨hpath, hpaths⟩ := List.forall_mem_cons.1 h
      rw [indexPaths, hpath]
      exact ih hpaths

/-- An index has files only. -/
theorem mem_files_of_indexed [Machine] (h : IsStorable directory files) (hroot : IsRegular root)
    (hindex : discover (MemoryAssets.ofList files).provider root suffix = .ok index) {tag : Text}
    (hpath : path ∈ indexed index tag) : path ∈ files.map Prod.fst := by
  obtain ⟨paths, tagOf, hpaths, htags, hindexed⟩ := Discovery.exists_of_discover hindex
  rw [hindexed, List.mem_filter] at hpath
  obtain ⟨hmem, htag⟩ := hpath
  obtain ⟨tag?, hmemoryTag, -, hnone⟩ :=
    exists_declaredTag_stored h (isRegular_of_candidates h hroot hpaths path hmem)
  by_contra hother
  rw [htags path hmem, hnone hother] at hmemoryTag
  rw [Except.ok.inj hmemoryTag] at htag
  cases htag

theorem discover_nameable [Machine] (suffix : Text) (h : IsStorable directory files)
    (hroot : IsRegular root) (hname : IsNameable directory root) :
    discover (Tree.ofTexts directory files).provider root suffix =
      discover (MemoryAssets.ofList files).provider root suffix := by
  rw [discover, discover, candidates_nameable suffix h hroot hname]
  cases hpaths : candidates (MemoryAssets.ofList files).provider root suffix with
  | error f => rfl
  | ok paths =>
      refine indexPaths_congr fun path hpath => ?_
      obtain ⟨tag?, hmemoryTag, hdiskTag, -⟩ :=
        exists_declaredTag_stored h (isRegular_of_candidates h hroot hpaths path hpath)
      exact hdiskTag.trans hmemoryTag.symm

theorem discover_unnameable [Machine] (suffix : Text) (h : IsStorable directory files)
    (hroot : IsRegular root) (hname : ¬IsNameable directory root) :
    discover (MemoryAssets.ofList files).provider root suffix = .ok Table.empty ∧
      discover (Tree.ofTexts directory files).provider root suffix = .ok Table.empty := by
  have hother : root ∉ files.map Prod.fst := by
    intro hstored
    obtain ⟨e, he, rfl⟩ := List.mem_map.1 hstored
    exact hname (h.nameable e he)
  obtain ⟨tag?, hmemoryTag, hdiskTag, hnone⟩ := exists_declaredTag_stored h hroot
  rw [hnone hother] at hmemoryTag hdiskTag
  obtain ⟨paths, hpaths, hmemory, hdisk⟩ := candidates_unnameable suffix h hroot hname
  have hroots : ∀ path ∈ paths, path = root := fun path hpath => List.mem_singleton.1 (hpaths hpath)
  constructor
  · rw [discover, hmemory, ok_bind]
    exact indexPaths_undeclared fun path hpath => hroots path hpath ▸ hmemoryTag
  · rcases hdisk with hdisk | hdisk
    · rw [discover, hdisk, ok_bind]
      exact indexPaths_undeclared fun path hpath => hroots path hpath ▸ hdiskTag
    · rw [discover, hdisk, ok_bind]
      rfl

/-- Both have one index. -/
theorem discover_eq [Machine] (suffix : Text) (h : IsStorable directory files)
    (hroot : IsRegular root) :
    discover (Tree.ofTexts directory files).provider root suffix =
      discover (MemoryAssets.ofList files).provider root suffix := by
  by_cases hname : IsNameable directory root
  · exact discover_nameable suffix h hroot hname
  · obtain ⟨hmemory, hdisk⟩ := discover_unnameable suffix h hroot hname
    rw [hdisk, hmemory]

/-- A discovery in memory gives an index, if the search for candidates gives a list. -/
theorem exists_discover_stored [Machine] (h : IsStorable directory files) (hroot : IsRegular root)
    (hpaths : candidates (MemoryAssets.ofList files).provider root suffix = .ok paths) :
    ∃ index, discover (MemoryAssets.ofList files).provider root suffix = .ok index := by
  choose! tagOf hmemoryTag _ _ using fun path hpath =>
    exists_declaredTag_stored h (isRegular_of_candidates h hroot hpaths path hpath)
  obtain ⟨index, hindex, -⟩ := Discovery.indexed_indexPaths Table.empty hmemoryTag
  exact ⟨index, by rw [discover, hpaths, ok_bind, hindex]⟩

end Index

section Load

variable {p q : Provider} {index : Index}

theorem loadFile_congr [Machine] (locale : Text) (strict : Bool) (h : q.read path = p.read path) :
    Catalog.loadFile locale strict q path = Catalog.loadFile locale strict p path := by
  rw [Catalog.loadFile, Catalog.loadFile, h]

/-- A load reads the candidates of the locale only. -/
theorem load_congr [Machine] (c : Catalog) (strict : Bool)
    (h : ∀ path ∈ Catalog.candidatePaths c.locale index, q.read path = p.read path) :
    c.load q index strict = c.load p index strict := by
  rw [Catalog.load, Catalog.load]
  cases hpaths : Catalog.candidatePaths c.locale index with
  | nil => rfl
  | cons path paths =>
      rw [hpaths] at h
      have hfiles : (path :: paths).mapM (Catalog.loadFile c.locale.toText strict q) =
          (path :: paths).mapM (Catalog.loadFile c.locale.toText strict p) :=
        mapM_congr fun path hpath => loadFile_congr _ strict (h path hpath)
      dsimp only
      rw [hfiles]

/-- The paths that a catalog loads are indexed ones. -/
theorem exists_indexed {locale : LocaleTag} (h : path ∈ Catalog.candidatePaths locale index) :
    ∃ tag, path ∈ indexed index tag := by
  rw [Catalog.candidatePaths_eq, List.mem_eraseDups, List.mem_append] at h
  exact h.elim (fun hregional => ⟨_, hregional⟩) fun hlanguage => ⟨_, hlanguage⟩

/-- Whether texts are kept in memory or in files makes no difference to who reads them: below a root
that can be named the candidates are the same, a file has the lines of its text, and both have one
index, from which every catalog loads the same.  There is an index, if the machine goes down to all
files below the root. -/
theorem interchangeable [Machine] (suffix : Text) (hfiles : IsStorable directory files)
    (hroot : IsRegular root) :
    let memory := (MemoryAssets.ofList files).provider
    let disk := (Tree.ofTexts directory files).provider
    (IsNameable directory root →
      candidates disk root suffix = candidates memory root suffix) ∧
    (¬IsNameable directory root → ∃ paths, paths ⊆ [root] ∧
      candidates memory root suffix = .ok paths ∧
      (candidates disk root suffix = .ok paths ∨ candidates disk root suffix = .ok [])) ∧
    (∀ file ∈ files, ∃ lines, Text.HasLines file.2 lines ∧
      memory.read file.1 = .complete lines ∧ disk.read file.1 = .complete lines) ∧
    discover disk root suffix = discover memory root suffix ∧
    ((MemoryAssets.ofList files).IsShallow root → ∃ paths index,
      candidates memory root suffix = .ok paths ∧ discover memory root suffix = .ok index) ∧
    ∀ index, discover memory root suffix = .ok index →
      ∀ (c : Catalog) (strict : Bool), c.load disk index strict = c.load memory index strict := by
  intro memory disk
  refine ⟨candidates_nameable suffix hfiles hroot, candidates_unnameable suffix hfiles hroot,
    fun file hfile => ?_, discover_eq suffix hfiles hroot, fun hshallow => ?_,
    fun index hindex c strict => load_congr c strict fun path hpath => ?_⟩
  · exact ⟨_, Text.hasLines_iff.2 rfl, lines_memory hfiles hfile, Tree.lines_stored hfiles hfile⟩
  · obtain ⟨paths, hpaths⟩ :=
      (exists_candidates_tidy_iff hfiles.isTidy (IsFolder.isRoot (.inr hroot.clean))).2 hshallow
    obtain ⟨index, hindex⟩ := exists_discover_stored hfiles hroot hpaths
    exact ⟨paths, index, hpaths, hindex⟩
  · obtain ⟨tag, htag⟩ := exists_indexed hpath
    obtain ⟨file, hfile, rfl⟩ := List.mem_map.1 (mem_files_of_indexed hfiles hroot hindex htag)
    exact (Tree.lines_stored hfiles hfile).trans (lines_memory hfiles hfile).symm

end Load

section Instances

/-- Lines with different ends in two folders. -/
theorem interchangeable_two :
    let directory : RootPlace := ⟨["srv".toList, "app".toList], by decide +kernel⟩
    let files := [("po/de.po".toList, "\"Language: de\"\r\nx\u2028y\rz".toList),
      ("po/fr/a.po".toList, "\"Language: fr\"".toList)]
    let memory := (MemoryAssets.ofList files).provider
    let disk := (Tree.ofTexts directory files).provider
    IsStorable directory files ∧ IsRegular "po".toList ∧ IsNameable directory "po".toList ∧
      ∃ paths index, candidates memory "po".toList ".po".toList = .ok paths ∧
        candidates disk "po".toList ".po".toList = .ok paths ∧
        discover disk "po".toList ".po".toList = .ok index := by
  intro directory files memory disk
  have hfiles : IsStorable directory files := by decide +kernel
  have hroot : IsRegular "po".toList := by decide
  have hname : IsNameable directory "po".toList := by decide +kernel
  have hshallow : (MemoryAssets.ofList files).IsShallow "po".toList := by decide +kernel
  obtain ⟨hcandidates, -, -, hdiscover, hexists, -⟩ := interchangeable ".po".toList hfiles hroot
  obtain ⟨paths, index, hpaths, hindex⟩ := hexists hshallow
  exact ⟨hfiles, hroot, hname, paths, index, hpaths, (hcandidates hname).trans hpaths,
    hdiscover.trans hindex⟩

/-- A root that is too long a name is a file in memory and nothing on disk. -/
theorem candidates_longRoot :
    let directory : RootPlace := ⟨["srv".toList, "app".toList], by decide +kernel⟩
    let files := [("po/a.po".toList, [])]
    let root : Text := List.replicate 256 'a'
    IsStorable directory files ∧ IsRegular root ∧
      candidates (MemoryAssets.ofList files).provider root ['a'] = .ok [root] ∧
      candidates (Tree.ofTexts directory files).provider root ['a'] = .ok [] := by
  intro directory files root
  have hfiles : IsStorable directory files := by decide +kernel
  have hroot : IsRegular root := by decide +kernel
  have hsize : Tree.nameLimit < (String.ofList root).utf8ByteSize := by decide +kernel
  have hslash : '/' ∉ root := by decide +kernel
  have hdisk : (Tree.ofTexts directory files).provider.list root = .error .nameTooLong :=
    Tree.entries_of_long hroot (by decide +kernel) hslash hsize
  have hname : ¬IsNameable directory root := by
    intro hname
    refine Nat.not_le.2 hsize (hname.short root ?_)
    rw [Text.splitOn_of_not_mem hslash]
    exact List.mem_singleton_self root
  have hmemory : (MemoryAssets.ofList files).provider.list root = .ok [] :=
    congrArg Except.ok (entries_unnameable hfiles hroot hname)
  have hsuffix : Text.endsWith root ['a'] = true := by decide +kernel
  refine ⟨hfiles, hroot, ?_, ?_⟩
  · rw [candidates, candidatesWithin, hmemory, hsuffix]
    rfl
  · rw [candidates, candidatesWithin, hdisk]
    rfl

end Instances
end Phrasebook
