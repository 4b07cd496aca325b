import Phrasebook.Proofs.Assets.Listing
import Phrasebook.Proofs.Assets.Returning

/-!
# The order of the candidates

What a walk over assets in memory collects below a folder (`Lists`): the stored paths below it with
the suffix, in the order of their names (`Precedes`).  Slashes at the end of the root do not count.

**Depth.**  The search gives a list exactly if no stored path has more names behind the root than
the machine goes down (`MemoryAssets.IsShallow`).
**Result.**  `candidates_eq_sorted`: the candidates below a folder, by membership and order, and
what becomes of the search below folders that are too many.
-/

namespace Phrasebook

open MemoryAssets (bare folderStart)

section Within

/-- Is the second path the first one or below it? -/
def IsWithin (folder path : Text) : Prop :=
  path = folder ∨ folderStart folder <+: path

/-- Does the first path come before the second one, at the first names in which they differ? -/
def Precedes (path other : Text) : Prop :=
  ∃ common name name' rest rest', Text.splitOn '/' path = common ++ name :: rest ∧
    Text.splitOn '/' other = common ++ name' :: rest' ∧ Text.Lt name name'

end Within

section Depth

open Discovery (candidates)

variable {m : MemoryAssets} {folder root path rest suffix : Text}

/-- The names of a path behind a folder. -/
def namesBelow (folder path : Text) : List Text :=
  Text.splitOn '/' (path.drop (folderStart folder).length)

theorem namesBelow_append (folder rest : Text) :
    namesBelow folder (folderStart folder ++ rest) = Text.splitOn '/' rest := by
  rw [namesBelow, List.drop_left]

theorem IsFolder.isRoot (h : IsFolder root) : IsRoot root := by
  refine h.imp_right fun hclean => ?_
  rwa [trimCharEnd_slash hclean.getLast?_ne]

/-- Slashes at the end of a root do not count. -/
theorem IsRoot.bare_eq (h : IsRoot root) : bare root = bare (Text.trimCharEnd '/' root) := by
  rcases h with rfl | hclean
  · rfl
  · rw [hclean.bare_trimmed, IsFolder.bare_eq (.inr hclean)]

theorem IsRoot.folderStart_eq (h : IsRoot root) :
    folderStart root = folderStart (Text.trimCharEnd '/' root) := by
  rw [folderStart, folderStart, h.bare_eq]

variable [Machine]

/-- Do the stored paths below a folder have no more names than the machine goes down? -/
def MemoryAssets.IsShallow (m : MemoryAssets) (folder : Text) : Prop :=
  ∀ path ∈ m.files.keys, folderStart folder <+: path →
    (namesBelow folder path).length ≤ Machine.folderDepth

instance (m : MemoryAssets) (folder : Text) : Decidable (m.IsShallow folder) :=
  inferInstanceAs (Decidable (∀ path ∈ m.files.keys, _ → _))

theorem exists_candidates_tidy_iff (hm : m.IsTidy) (hroot : IsRoot root) :
    (∃ paths, candidates m.provider root suffix = .ok paths) ↔ m.IsShallow root := by
  have hbelow : ∀ rest, m.HasBelow root rest ↔ folderStart root ++ rest ∈ m.files.keys := by
    intro rest
    refine and_iff_left_of_imp fun hkey => ?_
    have hclean := hm.clean _ hkey
    rw [hroot.folderStart_eq] at hclean ⊢
    rw [hroot.bare_eq]
    exact ne_bare hroot.isFolder hclean
  rw [exists_candidates_memory_iff]
  constructor
  · rintro h path hpath ⟨rest, rfl⟩
    rw [namesBelow_append]
    exact (h rest ((hbelow rest).2 hpath)).2
  · intro h rest hrest
    have hkey := (hbelow rest).1 hrest
    have hdepth := h _ hkey (List.prefix_append _ rest)
    rw [namesBelow_append] at hdepth
    have hclean := hm.clean _ hkey
    rw [hroot.folderStart_eq, hroot.isFolder.isClean_iff] at hclean
    exact ⟨hclean, hdepth⟩

/-- Below too many folders the search goes too deep. -/
theorem candidates_of_not_isShallow (suffix : Text) (hm : m.IsTidy) (hroot : IsRoot root)
    (hdeep : ¬m.IsShallow root) :
    candidates m.provider root suffix = .error .foldersTooDeep :=
  Discovery.candidates_eq_error (fun _ _ hlist => nomatch hlist)
    fun hpaths => hdeep ((exists_candidates_tidy_iff hm hroot).1 hpaths)

end Depth

section Walk

open Discovery (Collects candidates candidatesWithin childPath)

variable {m : MemoryAssets} {folder path name suffix : Text} {paths : List Text}

/-- A path lies within an entry of a folder if it continues the folder with this name. -/
theorem isWithin_entry_iff (hfolder : IsFolder folder) (hname : IsClean name)
    (hslash : '/' ∉ name) :
    IsWithin (folderStart folder ++ name) path ↔
      ∃ rest, path = folderStart folder ++ rest ∧ Text.before '/' rest = name := by
  have hchild : folderStart (folderStart folder ++ name) = folderStart folder ++ name ++ ['/'] :=
    (hfolder.isClean_iff.2 hname).folderStart_eq
  rw [IsWithin, hchild]
  constructor
  · rintro (rfl | ⟨behind, rfl⟩)
    · exact ⟨name, rfl, Text.before_of_not_mem hslash⟩
    · exact ⟨name ++ '/' :: behind, by simp, Text.before_append hslash⟩
  · rintro ⟨rest, rfl, rfl⟩
    rcases Text.eq_before_or '/' rest with hrest | ⟨behind, hrest⟩
    · exact .inl (by rw [← hrest])
    · refine .inr ⟨behind, ?_⟩
      conv_rhs => rw [hrest]
      simp

/-- The first name of a stored path below a folder is an entry, and the path lies within it. -/
theorem isWithin_before (hm : m.IsTidy) (hfolder : IsFolder folder) {rest : Text}
    (hkey : folderStart folder ++ rest ∈ m.files.keys) :
    IsClean (Text.before '/' rest) ∧ Text.before '/' rest ∈ m.entries folder ∧
      IsWithin (folderStart folder ++ Text.before '/' rest) (folderStart folder ++ rest) := by
  have hclean := isClean_before (hfolder.isClean_iff.1 (hm.clean _ hkey))
  exact ⟨hclean, (mem_entries_iff hm.clean hfolder).2 ⟨rest, hkey, rfl⟩,
    (isWithin_entry_iff hfolder hclean (Text.not_mem_before '/' rest)).2 ⟨rest, rfl, rfl⟩⟩

/-- Paths within two entries of a folder stand in the order of these entries. -/
theorem precedes_of_entries (hfolder : IsFolder folder) {name' rest rest' : Text}
    (hname : Text.before '/' rest = name) (hname' : Text.before '/' rest' = name')
    (hlt : Text.Lt name name') :
    Precedes (folderStart folder ++ rest) (folderStart folder ++ rest') := by
  obtain ⟨common, hcommon⟩ := hfolder.splitOn_eq
  obtain ⟨names, hnames⟩ := Text.exists_splitOn_eq_cons '/' rest
  obtain ⟨names', hnames'⟩ := Text.exists_splitOn_eq_cons '/' rest'
  refine ⟨common, name, name', names, names', ?_, ?_, hlt⟩
  · rw [hcommon, hnames, hname]
  · rw [hcommon, hnames', hname']

/-- The candidates within a folder: the stored paths with the suffix, in order. -/
structure Lists (m : MemoryAssets) (suffix folder : Text) (paths : List Text) : Prop where
  mem_iff : ∀ path, path ∈ paths ↔
    path ∈ m.files.keys ∧ IsWithin folder path ∧ suffix <:+ path
  ordered : paths.Pairwise Precedes

theorem lists_stored (suffix : Text) (hm : m.IsTidy) (hstored : folder ∈ m.files.keys) :
    m.entries folder = [] ∧
      Lists m suffix folder (if folder.endsWith suffix then [folder] else []) := by
  have hfolder : IsFolder folder := .inr (hm.clean folder hstored)
  constructor
  · refine List.eq_nil_iff_forall_not_mem.2 fun name hname => ?_
    obtain ⟨rest, hrest, -⟩ := (mem_entries_iff hm.clean hfolder).1 hname
    exact hm.free folder hstored _ hrest (List.prefix_append _ rest)
  · have hends : folder.endsWith suffix = true ↔ suffix <:+ folder := List.isSuffixOf_iff_suffix
    refine ⟨fun path => ?_, by split <;> simp⟩
    constructor
    · intro hpath
      split at hpath
      · rename_i hsuffix
        rw [List.mem_singleton.1 hpath]
        exact ⟨hstored, .inl rfl, hends.1 hsuffix⟩
      · cases hpath
    · rintro ⟨hpath, hwithin, hsuffix⟩
      obtain rfl := hwithin.resolve_right (hm.free folder hstored path hpath)
      rw [if_pos (hends.2 hsuffix)]
      exact List.mem_singleton_self path

/-- The candidates within a folder are those within its entries, one entry after the other. -/
theorem lists_entries (hm : m.IsTidy) (hfolder : IsFolder folder)
    (hstored : folder ∉ m.files.keys) {found : Text → List Text}
    (hfound : ∀ name ∈ m.entries folder,
      Lists m suffix (folderStart folder ++ name) (found name)) :
    Lists m suffix folder ((m.entries folder).flatMap found) := by
  have hentry : ∀ name ∈ m.entries folder, ∀ path ∈ found name, ∃ rest,
      path = folderStart folder ++ rest ∧ Text.before '/' rest = name := by
    intro name hname path hpath
    obtain ⟨rest, hrest, rfl⟩ := (mem_entries_iff hm.clean hfolder).1 hname
    have hclean := (isWithin_before hm hfolder hrest).1
    have hwithin := (((hfound _ hname).mem_iff path).1 hpath).2.1
    exact (isWithin_entry_iff hfolder hclean (Text.not_mem_before '/' rest)).1 hwithin
  constructor
  · intro path
    rw [List.mem_flatMap]
    constructor
    · rintro ⟨name, hname, hpath⟩
      obtain ⟨hkey, -, hsuffix⟩ := ((hfound name hname).mem_iff path).1 hpath
      obtain ⟨rest, rfl, -⟩ := hentry name hname path hpath
      exact ⟨hkey, .inr (List.prefix_append _ rest), hsuffix⟩
    · rintro ⟨hkey, hwithin, hsuffix⟩
      have hne : path ≠ folder := fun h => hstored (h ▸ hkey)
      obtain ⟨rest, rfl⟩ := hwithin.resolve_left hne
      obtain ⟨-, hname, hwithinEntry⟩ := isWithin_before hm hfolder hkey
      exact ⟨_, hname, ((hfound _ hname).mem_iff _).2 ⟨hkey, hwithinEntry, hsuffix⟩⟩
  · refine List.pairwise_flatMap.2 ⟨fun name hname => (hfound name hname).ordered, ?_⟩
    refine (entries_pairwise m folder).imp_of_mem ?_
    intro name name' hname hname' hlt path hpath path' hpath'
    obtain ⟨rest, rfl, hrest⟩ := hentry name hname path hpath
    obtain ⟨rest', rfl, hrest'⟩ := hentry name' hname' path' hpath'
    exact precedes_of_entries hfolder hrest hrest' hlt

/-- A walk collects the candidates within its folder. -/
theorem Lists.of_collects [Machine] (hm : m.IsTidy) (hfolder : IsFolder folder)
    (hbelow : ∃ path ∈ m.files.keys, IsWithin folder path)
    (h : Collects m.provider suffix folder paths) : Lists m suffix folder paths := by
  induction h with
  | skipped hlist => cases hlist
  | @file folder hlist =>
      obtain ⟨path, hpath, rfl | ⟨rest, rfl⟩⟩ := hbelow
      · exact (lists_stored suffix hm hpath).2
      · have hentry := (isWithin_before hm hfolder hpath).2.1
        rw [Except.ok.inj hlist] at hentry
        cases hentry
  | @folder folder names found hlist hne _ ih =>
      cases hlist
      have hstored : folder ∉ m.files.keys := fun hstored => hne (lists_stored suffix hm hstored).1
      refine lists_entries hm hfolder hstored fun name hname => ?_
      obtain ⟨rest, hkey, rfl⟩ := (mem_entries_iff hm.clean hfolder).1 hname
      obtain ⟨hclean, -, hwithin⟩ := isWithin_before hm hfolder hkey
      rw [← hfolder.childPath_eq] at hwithin ⊢
      refine ih _ hname (.inr ?_) ⟨_, hkey, hwithin⟩
      rw [hfolder.childPath_eq]
      exact hfolder.isClean_iff.2 hclean

theorem Precedes.ne {other : Text} (h : Precedes path other) : path ≠ other := by
  rintro rfl
  obtain ⟨common, name, name', rest, rest', hpath, hother, hlt⟩ := h
  rw [hpath] at hother
  exact hlt.2 (List.cons.inj (List.append_cancel_left hother)).1

theorem Lists.nodup (h : Lists m suffix folder paths) : paths.Nodup :=
  h.ordered.imp Precedes.ne

/-- The candidates below a folder are the stored paths below it that end with the suffix, each
once and in order. -/
theorem candidates_lists [Machine] (suffix : Text) (hm : m.IsTidy) (hfolder : IsFolder folder)
    (hbelow : ∃ path ∈ m.files.keys, IsWithin folder path) (hshallow : m.IsShallow folder) :
    ∃ paths, candidates m.provider folder suffix = .ok paths ∧ Lists m suffix folder paths := by
  obtain ⟨paths, hpaths⟩ := (exists_candidates_tidy_iff hm hfolder.isRoot).2 hshallow
  exact ⟨paths, hpaths,
    .of_collects hm hfolder hbelow (Discovery.collects_of_candidatesWithin hpaths)⟩

/-- The candidates below a folder are the same with slashes at its end. -/
theorem candidates_trimmed [Machine] (suffix : Text)
    (hclean : IsClean (Text.trimCharEnd '/' folder))
    (hentries : m.entries (Text.trimCharEnd '/' folder) ≠ []) :
    candidates m.provider folder suffix =
      candidates m.provider (Text.trimCharEnd '/' folder) suffix := by
  have hbare := IsRoot.bare_eq (.inr hclean)
  have hsame : m.entries folder = m.entries (Text.trimCharEnd '/' folder) := by
    have hchild : MemoryAssets.childOf? folder =
        MemoryAssets.childOf? (Text.trimCharEnd '/' folder) := by
      funext name
      unfold MemoryAssets.childOf? folderStart
      rw [hbare]
    rw [MemoryAssets.entries, MemoryAssets.entries, hchild]
  have hpath : childPath folder = childPath (Text.trimCharEnd '/' folder) := by
    have hne : folder ≠ [] := by
      rintro rfl
      exact hclean.ne_nil rfl
    funext name
    simp [childPath, hne, hclean.ne_nil, trimCharEnd_slash hclean.getLast?_ne]
  have hlist : ∀ path, m.provider.list path = .ok (m.entries path) := fun _ => rfl
  rw [candidates, candidates, candidatesWithin, candidatesWithin, hlist, hlist, hsame]
  cases hnames : m.entries (Text.trimCharEnd '/' folder) with
  | nil => exact absurd hnames hentries
  | cons name names => rw [hpath]

/-- The candidates below a root are those below its folder. -/
theorem candidates_root [Machine] (suffix : Text) (hm : m.IsTidy) (hroot : IsRoot folder)
    (hbelow : ∃ path ∈ m.files.keys, folderStart folder <+: path) (hshallow : m.IsShallow folder) :
    ∃ paths, candidates m.provider folder suffix = .ok paths ∧
      Lists m suffix (Text.trimCharEnd '/' folder) paths := by
  rw [hroot.folderStart_eq] at hbelow
  obtain ⟨path, hpath, rest, rfl⟩ := hbelow
  have hsame : candidates m.provider folder suffix =
      candidates m.provider (Text.trimCharEnd '/' folder) suffix := by
    rcases hroot with rfl | hclean
    · rfl
    · refine candidates_trimmed suffix hclean (List.ne_nil_of_mem (a := Text.before '/' rest) ?_)
      exact (mem_entries_iff hm.clean (.inr hclean)).2 ⟨rest, hpath, rfl⟩
  have hshallow' : m.IsShallow (Text.trimCharEnd '/' folder) := by
    unfold MemoryAssets.IsShallow namesBelow at hshallow ⊢
    rwa [← hroot.folderStart_eq]
  rw [hsame]
  exact candidates_lists suffix hm hroot.isFolder ⟨_, hpath, .inr (List.prefix_append _ rest)⟩
    hshallow'

end Walk

section Below

open Discovery (candidates)

variable {m : MemoryAssets} {root path other : Text}

/-- Does a path go on behind a folder?  All paths go on behind the empty one. -/
def IsBelow (folder path : Text) : Prop :=
  folder = [] ∨ folder ++ ['/'] <+: path

instance (folder path : Text) : Decidable (IsBelow folder path) :=
  inferInstanceAs (Decidable (_ ∨ _))

theorem IsFolder.isBelow_iff (h : IsFolder root) :
    IsBelow root path ↔ folderStart root <+: path := by
  rcases h with rfl | hclean
  · exact iff_of_true (.inl rfl) List.nil_prefix
  · rw [hclean.folderStart_eq, IsBelow, or_iff_right hclean.ne_nil]

/-- The order of the candidates is the lexicographic order of their names. -/
theorem Precedes.splitOn_lt (h : Precedes path other) :
    Text.splitOn '/' path < Text.splitOn '/' other := by
  obtain ⟨common, name, name', rest, rest', hpath, hother, hlt⟩ := h
  rw [hpath, hother]
  exact List.append_left_lt (List.cons_lt_cons_iff.2 (.inl hlt.lt))

/-- The candidates below a folder that has stored paths below it are exactly those of these paths
that end with the suffix, each once, in the lexicographic order of their names, if the machine goes
down to all of these paths; else there are none. -/
theorem candidates_eq_sorted [Machine] (suffix : Text) (hm : m.IsTidy) (hroot : IsFolder root)
    (hbelow : ∃ path ∈ m.files.keys, IsBelow root path) :
    (m.IsShallow root →
      ∃ paths, candidates m.provider root suffix = .ok paths ∧
        (∀ path, path ∈ paths ↔ path ∈ m.files.keys ∧ IsBelow root path ∧ suffix <:+ path) ∧
        paths.Nodup ∧
        paths.Pairwise fun path other => Text.splitOn '/' path < Text.splitOn '/' other) ∧
    (¬m.IsShallow root → candidates m.provider root suffix = .error .foldersTooDeep) := by
  refine ⟨fun hshallow => ?_, candidates_of_not_isShallow suffix hm hroot.isRoot⟩
  obtain ⟨stored, hstored, hfirst⟩ := hbelow
  rw [hroot.isBelow_iff] at hfirst
  obtain ⟨paths, hpaths, hlists⟩ :=
    candidates_lists suffix hm hroot ⟨stored, hstored, .inr hfirst⟩ hshallow
  refine ⟨paths, hpaths, fun path => ?_, hlists.nodup, hlists.ordered.imp Precedes.splitOn_lt⟩
  rw [hlists.mem_iff, hroot.isBelow_iff]
  refine and_congr_right fun hkey => and_congr_left fun _ => or_iff_right ?_
  -- a stored path is no folder of another one
  rintro rfl
  exact hm.free _ hkey stored hstored hfirst

/-- A folder and a file whose names begin alike, and a folder whose name begins like the root. -/
theorem candidates_eq_sorted_folders :
    let m := MemoryAssets.ofList
      [("po2/a.po".toList, []), ("po/fr.po".toList, []), ("po/fr/b.po".toList, []),
        ("po/fr/notes".toList, []), ("po/fr/a.po".toList, []), ("po/fr-x/c.po".toList, [])]
    let found := ["po/fr/a.po".toList, "po/fr/b.po".toList, "po/fr-x/c.po".toList,
      "po/fr.po".toList]
    m.IsTidy ∧ IsFolder "po".toList ∧ (∃ path ∈ m.files.keys, IsBelow "po".toList path) ∧
      candidates m.provider "po".toList ".po".toList = .ok found := by
  intro m found
  have hm : m.IsTidy := ⟨by decide, by decide⟩
  have hroot : IsFolder "po".toList := .inr (by decide)
  have hbelow : ∃ path ∈ m.files.keys, IsBelow "po".toList path := by decide
  have hshallow : m.IsShallow "po".toList := by decide
  obtain ⟨paths, hpaths, hmem, hnodup, hsorted⟩ :=
    (candidates_eq_sorted ".po".toList hm hroot hbelow).1 hshallow
  have hstored : ∀ path ∈ found, path ∈ m.files.keys := by decide
  have hfound : ∀ path ∈ m.files.keys,
      (IsBelow "po".toList path ∧ ".po".toList <:+ path) ↔ path ∈ found := by
    decide
  have hperm : paths.Perm found := by
    refine (List.perm_ext_iff_of_nodup hnodup (by decide)).2 fun path => ?_
    rw [hmem]
    constructor
    · exact fun h => (hfound path h.1).1 h.2
    · exact fun h => ⟨hstored path h, (hfound path (hstored path h)).2 h⟩
  have heq : paths = found :=
    hperm.eq_of_pairwise (fun _ _ _ _ hlt hgt => absurd hgt (List.lt_asymm hlt)) hsorted (by decide)
  exact ⟨hm, hroot, hbelow, hpaths.trans (congrArg _ heq)⟩

/-- The path of a file below as many folders. -/
def nestedPath (count : Nat) : Text :=
  "po/".toList ++ ((List.replicate count "a/".toList).flatten ++ "x.po".toList)

theorem splitOn_nested (count : Nat) (rest : Text) :
    Text.splitOn '/' ((List.replicate count "a/".toList).flatten ++ rest) =
      List.replicate count "a".toList ++ Text.splitOn '/' rest := by
  induction count with
  | zero => rfl
  | succ count ih =>
      have hsplit := Text.splitOn_append_cons (c := '/') "a".toList
        ((List.replicate count "a/".toList).flatten ++ rest)
      rw [ih] at hsplit
      rw [List.replicate_succ, List.replicate_succ, List.flatten_cons, List.append_assoc]
      exact hsplit

theorem isClean_nestedPath (count : Nat) : IsClean (nestedPath count) := by
  intro name hname
  have hsplit : Text.splitOn '/' (nestedPath count) =
      "po".toList :: (List.replicate count "a".toList ++ ["x.po".toList]) :=
    (Text.splitOn_append_cons "po".toList _).trans
      (congrArg (List.cons _) (splitOn_nested count "x.po".toList))
  rw [hsplit] at hname
  simp only [List.mem_cons, List.mem_append, List.mem_replicate, List.not_mem_nil,
    or_false] at hname
  rcases hname with rfl | ⟨-, rfl⟩ | rfl <;> simp

theorem suffix_nestedPath (count : Nat) : ".po".toList <:+ nestedPath count := by
  have hname : ".po".toList <:+ "x.po".toList := by decide
  exact (hname.trans (List.suffix_append _ _)).trans (List.suffix_append _ _)

/-- The machine does not go down to a file below more folders than it can. -/
theorem not_isShallow_nestedPath [Machine] {m : MemoryAssets} {count : Nat}
    (hpath : nestedPath count ∈ m.files.keys) (hcount : Machine.folderDepth ≤ count) :
    ¬m.IsShallow "po".toList := by
  intro hshallow
  have hstart : folderStart "po".toList = "po/".toList := by decide
  have hdepth := hshallow _ hpath (hstart ▸ List.prefix_append "po/".toList _)
  rw [nestedPath, ← hstart, namesBelow_append, splitOn_nested, List.length_append,
    List.length_replicate] at hdepth
  have hname : (Text.splitOn '/' "x.po".toList).length = 1 := rfl
  omega

/-- One file below many folders. -/
theorem candidates_nestedPath :
    let m := MemoryAssets.ofList [(nestedPath 1500, [])]
    m.IsTidy ∧ IsFolder "po".toList ∧ (∃ path ∈ m.files.keys, IsBelow "po".toList path) ∧
      candidates m.provider "po".toList ".po".toList = .error .foldersTooDeep := by
  intro m
  have hclean := isClean_nestedPath 1500
  have hkeys : m.files.keys = [nestedPath 1500] := by
    have hfiles : ∀ e ∈ [(nestedPath 1500, ([] : Text))], IsClean e.1 := by simp [hclean]
    have hnodup : ([(nestedPath 1500, ([] : Text))].map Prod.fst).Nodup := by simp
    exact congrArg (fun m => m.files.keys) (ofList_eq hnodup hfiles)
  have hm : m.IsTidy := by
    refine ⟨by simp [hkeys, hclean], ?_⟩
    simp only [hkeys, List.mem_singleton, forall_eq, hclean.folderStart_eq]
    intro hprefix
    have hlength := hprefix.length_le
    rw [List.length_append, List.length_singleton] at hlength
    omega
  have hroot : IsFolder "po".toList := .inr (by decide)
  have hstored : nestedPath 1500 ∈ m.files.keys := by simp [hkeys]
  exact ⟨hm, hroot, ⟨_, hstored, .inr (List.prefix_append _ _)⟩, candidates_of_not_isShallow _ hm
    hroot.isRoot (not_isShallow_nestedPath hstored (by decide))⟩

end Below

end Phrasebook
