import Phrasebook.Assets.Discovery
import Phrasebook.Assets.Memory
import Phrasebook.Proofs.Outcome
import Phrasebook.Proofs.Tables
import Phrasebook.Proofs.Text.Cutting
import Phrasebook.Proofs.Text.Sorting

/-!
# Listings of assets in memory

**Clean paths.**  A clean path has a name between any two slashes and at its ends.
**Slashes.**  Slashes at the ends of a path do not count, so that the path of an entry without a
name means its folder.
**Folders.**  A folder lists the first names of the paths below it, in order and each once.
-/

namespace Phrasebook

open MemoryAssets (bare folderStart)

section Paths

/-- Does a path consist of names? -/
def IsClean (path : Text) : Prop :=
  ∀ name ∈ Text.splitOn '/' path, name ≠ []

instance (path : Text) : Decidable (IsClean path) :=
  inferInstanceAs (Decidable (∀ name ∈ Text.splitOn '/' path, name ≠ []))

/-- Is it a path that can have others below it? -/
def IsFolder (path : Text) : Prop :=
  path = [] ∨ IsClean path

/-- Is it a folder, perhaps with slashes at its end? -/
def IsRoot (path : Text) : Prop :=
  path = [] ∨ IsClean (Text.trimCharEnd '/' path)

variable {path folder rest : Text}

theorem IsClean.ne_nil (h : IsClean path) : path ≠ [] := by
  rintro rfl
  exact h [] (by simp [Text.splitOn]) rfl

theorem isClean_append_cons :
    IsClean (folder ++ '/' :: rest) ↔ IsClean folder ∧ IsClean rest := by
  unfold IsClean
  rw [Text.splitOn_append_cons, List.forall_mem_append]

theorem IsClean.head?_ne (h : IsClean path) : path.head? ≠ some '/' := by
  intro hhead
  obtain ⟨rest, rfl⟩ := List.head?_eq_some_iff.1 hhead
  have hparts : IsClean ([] ++ '/' :: rest) := h
  exact (isClean_append_cons.1 hparts).1.ne_nil rfl

theorem IsClean.getLast?_ne (h : IsClean path) : path.getLast? ≠ some '/' := by
  intro hlast
  obtain ⟨front, rfl⟩ := List.getLast?_eq_some_iff.1 hlast
  exact (isClean_append_cons.1 h).2.ne_nil rfl

theorem dropWhile_slash (h : path.head? ≠ some '/') : path.dropWhile (· == '/') = path := by
  cases path with
  | nil => rfl
  | cons c path =>
      have hc : c ≠ '/' := fun hc => h (by rw [hc]; rfl)
      rw [List.dropWhile_cons_of_neg (by simpa using hc)]

theorem trimCharEnd_slash (h : path.getLast? ≠ some '/') : Text.trimCharEnd '/' path = path := by
  rw [Text.trimCharEnd, dropWhile_slash (by rwa [List.head?_reverse]), List.reverse_reverse]

theorem trimCharEnd_prefix (c : Char) (t : Text) : Text.trimCharEnd c t <+: t := by
  rw [Text.trimCharEnd, ← List.reverse_suffix, List.reverse_reverse]
  exact List.dropWhile_suffix _

theorem IsFolder.bare_eq (h : IsFolder path) : bare path = path := by
  rcases h with rfl | h
  · rfl
  · rw [bare, Text.trimChar, dropWhile_slash h.head?_ne]
    exact trimCharEnd_slash h.getLast?_ne

/-- Slashes at the end of a path do not count. -/
theorem IsClean.bare_trimmed (h : IsClean (Text.trimCharEnd '/' path)) :
    bare path = Text.trimCharEnd '/' path := by
  have hhead : path.head? ≠ some '/' := by
    obtain ⟨slashes, hpath⟩ := trimCharEnd_prefix '/' path
    intro hslash
    rw [← hpath, List.head?_append_of_ne_nil _ h.ne_nil] at hslash
    exact h.head?_ne hslash
  rw [bare, Text.trimChar, dropWhile_slash hhead, Text.trimCharEnd]

theorem IsRoot.isFolder (h : IsRoot path) : IsFolder (Text.trimCharEnd '/' path) := by
  rcases h with rfl | hclean
  · exact .inl rfl
  · exact .inr hclean

theorem IsClean.folderStart_eq (h : IsClean folder) : folderStart folder = folder ++ ['/'] := by
  rw [folderStart, IsFolder.bare_eq (.inr h), if_neg (by simpa using h.ne_nil)]

theorem IsClean.folderStart_append (h : IsClean folder) (rest : Text) :
    folderStart folder ++ rest = folder ++ '/' :: rest := by
  rw [h.folderStart_eq, List.append_assoc, List.singleton_append]

theorem IsFolder.childPath_eq (h : IsFolder folder) (name : Text) :
    Discovery.childPath folder name = folderStart folder ++ name := by
  rcases h with rfl | h
  · rfl
  · rw [Discovery.childPath, if_neg (by simpa using h.ne_nil), trimCharEnd_slash h.getLast?_ne,
      h.folderStart_append]

/-- What stands behind a folder in a clean path is clean, and so are the folder and the path of
every name in it. -/
theorem IsFolder.isClean_iff (h : IsFolder folder) :
    IsClean (folderStart folder ++ rest) ↔ IsClean rest := by
  rcases h with rfl | h
  · rfl
  · rw [h.folderStart_append]
    exact isClean_append_cons.trans (and_iff_right h)

theorem IsFolder.splitOn_eq (h : IsFolder folder) :
    ∃ common, ∀ rest, Text.splitOn '/' (folderStart folder ++ rest) =
      common ++ Text.splitOn '/' rest := by
  rcases h with rfl | h
  · exact ⟨[], fun rest => rfl⟩
  · refine ⟨Text.splitOn '/' folder, fun rest => ?_⟩
    rw [h.folderStart_append]
    exact Text.splitOn_append_cons folder rest

end Paths

section Slashes

variable {path name : Text}

/-- Slashes may be cut from the end first. -/
theorem bare_eq_dropWhile (path : Text) :
    bare path = (Text.trimCharEnd '/' path).dropWhile (· == '/') := by
  obtain ⟨count, hpath⟩ := Text.exists_trimCharEnd '/' path
  have hlast := Text.getLast?_trimCharEnd_ne '/' path
  generalize Text.trimCharEnd '/' path = front at hpath hlast
  rw [bare, Text.trimChar, hpath, List.dropWhile_append]
  cases hfront : front.dropWhile (· == '/') with
  | nil => simp
  | cons x rest =>
      have hsuffix : x :: rest <:+ front := hfront ▸ List.dropWhile_suffix _
      obtain ⟨before, rfl⟩ := hsuffix
      rw [List.getLast?_append_of_ne_nil _ (List.cons_ne_nil x rest)] at hlast
      have htrim := Text.trimCharEnd_append_replicate '/' (x :: rest) count
      rw [trimCharEnd_slash hlast] at htrim
      simpa [Text.trimCharEnd] using htrim

/-- An entry without a name is the folder itself. -/
theorem bare_childPath_nil (path : Text) : bare (Discovery.childPath path []) = bare path := by
  rw [Discovery.childPath]
  split
  next hempty => rw [List.isEmpty_iff.1 hempty]
  next =>
    have htrim : Text.trimCharEnd '/' (Text.trimCharEnd '/' path ++ ['/']) =
        Text.trimCharEnd '/' path :=
      (Text.trimCharEnd_append_replicate '/' (Text.trimCharEnd '/' path) 1).trans
        (trimCharEnd_slash (Text.getLast?_trimCharEnd_ne '/' path))
    rw [bare_eq_dropWhile, bare_eq_dropWhile path, htrim]

theorem bare_childPath (path : Text) (hname : name ≠ []) (hslash : '/' ∉ name) :
    bare (Discovery.childPath path name) = folderStart path ++ name := by
  have hhead : name.head? ≠ some '/' := fun h => hslash (List.mem_of_mem_head? h)
  have hlast : name.getLast? ≠ some '/' := fun h => hslash (List.mem_of_mem_getLast? h)
  have htrim : ∀ front, Text.trimCharEnd '/' (front ++ name) = front ++ name := by
    intro front
    refine trimCharEnd_slash ?_
    rwa [List.getLast?_append_of_ne_nil _ hname]
  have hdrop : ('/' :: name).dropWhile (· == '/') = name := by
    rw [List.dropWhile_cons_of_pos (by simp), dropWhile_slash hhead]
  rw [Discovery.childPath]
  split
  next hempty =>
    have htrimmed : Text.trimCharEnd '/' name = name := htrim []
    rw [List.isEmpty_iff.1 hempty, bare_eq_dropWhile, htrimmed, dropWhile_slash hhead]
    rfl
  next =>
    have hall := htrim (Text.trimCharEnd '/' path ++ ['/'])
    rw [List.append_assoc, List.singleton_append] at hall
    rw [bare_eq_dropWhile, hall, List.dropWhile_append, hdrop, folderStart, bare_eq_dropWhile path]
    split <;> simp

end Slashes

section Entries

/-- Assets under clean paths, none of which is a folder of another one. -/
structure MemoryAssets.IsTidy (m : MemoryAssets) : Prop where
  clean : ∀ path ∈ m.files.keys, IsClean path
  free : ∀ path ∈ m.files.keys, ∀ other ∈ m.files.keys, ¬folderStart path <+: other

variable {m : MemoryAssets} {folder path key name rest : Text}

theorem isClean_before (h : IsClean rest) : IsClean (Text.before '/' rest) := by
  rcases Text.eq_before_or '/' rest with hrest | ⟨behind, hrest⟩
  · rwa [← hrest]
  · rw [hrest] at h
    exact (isClean_append_cons.1 h).1

theorem childOf?_eq_some_iff :
    MemoryAssets.childOf? path key = some name ↔
      ∃ rest, key = folderStart path ++ rest ∧ key ≠ bare path ∧ Text.before '/' rest = name := by
  rw [MemoryAssets.childOf?]
  constructor
  · intro h
    split at h
    · rename_i hstart
      obtain ⟨rest, rfl⟩ := List.isPrefixOf_iff_prefix.1 hstart.1
      rw [List.drop_left] at h
      exact ⟨rest, rfl, hstart.2, Option.some.inj h⟩
    · cases h
  · rintro ⟨rest, rfl, hne, rfl⟩
    have hstart : Text.startsWith (folderStart path ++ rest) (folderStart path) = true :=
      List.isPrefixOf_iff_prefix.2 ⟨rest, rfl⟩
    rw [if_pos ⟨hstart, hne⟩, List.drop_left]

/-- The entries of any path: the first names of the stored paths that go on behind it. -/
theorem mem_entries :
    name ∈ m.entries path ↔ ∃ rest, folderStart path ++ rest ∈ m.files.keys ∧
      folderStart path ++ rest ≠ bare path ∧ Text.before '/' rest = name := by
  rw [MemoryAssets.entries, List.mem_mergeSort, List.mem_eraseDups, List.mem_filterMap]
  simp only [childOf?_eq_some_iff]
  constructor
  · rintro ⟨key, hkey, rest, rfl, hne, hname⟩
    exact ⟨rest, hkey, hne, hname⟩
  · rintro ⟨rest, hkey, hne, hname⟩
    exact ⟨_, hkey, rest, rfl, hne, hname⟩

theorem ne_bare (hfolder : IsFolder folder) (hclean : IsClean (folderStart folder ++ rest)) :
    folderStart folder ++ rest ≠ bare folder := by
  intro hbare
  rw [hfolder.bare_eq] at hbare
  rcases hfolder with rfl | hfolder
  · exact hclean.ne_nil hbare
  · have hlength := congrArg List.length hbare
    simp [hfolder.folderStart_eq] at hlength

theorem mem_entries_iff (hclean : ∀ path ∈ m.files.keys, IsClean path) (hfolder : IsFolder folder) :
    name ∈ m.entries folder ↔
      ∃ rest, folderStart folder ++ rest ∈ m.files.keys ∧ Text.before '/' rest = name := by
  rw [mem_entries]
  constructor
  · rintro ⟨rest, hkey, -, hname⟩
    exact ⟨rest, hkey, hname⟩
  · rintro ⟨rest, hkey, hname⟩
    exact ⟨rest, hkey, ne_bare hfolder (hclean _ hkey), hname⟩

/-- Files under different clean paths are kept as they are. -/
theorem ofList_eq {files : List (Text × Text)} (hnodup : (files.map Prod.fst).Nodup)
    (hclean : ∀ e ∈ files, IsClean e.1) :
    MemoryAssets.ofList files = ⟨⟨files, hnodup⟩⟩ := by
  have hbare : files.map (fun e => (bare e.1, e.2)) = files.map id :=
    List.map_congr_left fun e he => by rw [IsFolder.bare_eq (.inr (hclean e he)), id]
  have hfiles := Table.ofList_entries (⟨files, hnodup⟩ : Table Text Text)
  rw [MemoryAssets.ofList, hfiles, hbare, List.map_id, hfiles]

theorem read_clean [Machine] (hclean : IsClean path) {text : Text}
    (h : m.files.get? path = some text) :
    m.provider.read path = .complete (Text.lines text) := by
  have hread : m.provider.read path = m.lines path := rfl
  rw [hread, MemoryAssets.lines, IsFolder.bare_eq (.inr hclean), h]

theorem entries_pairwise (m : MemoryAssets) (folder : Text) :
    (m.entries folder).Pairwise Text.Lt :=
  Text.pairwise_sorted _

end Entries

end Phrasebook
