import Mathlib
import Phrasebook.Proofs.Assets.Indexing
import Phrasebook.Proofs.Assets.Ordering
import Phrasebook.Proofs.Catalog.Loading
import Phrasebook.Proofs.Locale.Spelling
import Phrasebook.Proofs.Po.Localized
import Phrasebook.Proofs.Tables

/-!
# Overriding

Rendered files in memory, from their texts to the answers of a catalog.

**Stock.**  A stock is a set of rendered files under paths none of which is a folder of another.
Every candidate is indexed under the tag that it declares (`discover_stock`), and a catalog asks the
templates of its paths in order (`build_stock`).
**Two files.**  `build_overriding`: a file of a region and one of its language.  In the catalog of
the region its own file comes first, wherever the listing has it; in that of the language it has no
part.  There is no catalog if the machine does not go down to both files.
-/

namespace Phrasebook

open Discovery (discover declaredTag)
open MemoryAssets (folderStart)
open Po (IsRendering)
open Printf (formatTemplate)

section Stock

/-- The assets are rendered files, each of the tag and with the templates of its path. -/
structure MemoryAssets.IsStock (m : MemoryAssets) (tagOf : Text → LocaleTag)
    (singlesOf : Text → Table Text Text) : Prop extends m.IsTidy where
  rendered : ∀ path ∈ m.files.keys, ∃ language text, m.files.get? path = some text ∧
    language.all isCodeChar = true ∧ LocaleTag.parse language = .ok (tagOf path) ∧
    IsRendering language (singlesOf path) text
  filled : ∀ path ∈ m.files.keys, ∀ e ∈ (singlesOf path).entries, e.1 ≠ [] ∧ e.2 ≠ []

variable {m : MemoryAssets} {tagOf : Text → LocaleTag} {singlesOf : Text → Table Text Text}
  {root suffix path : Text} {paths : List Text}

theorem declaredTag_stock [Machine] (hm : m.IsStock tagOf singlesOf) (hpath : path ∈ m.files.keys) :
    declaredTag (m.provider.read path) = .ok (some (tagOf path)) := by
  obtain ⟨language, text, htext, hcode, htag, hrendering⟩ := hm.rendered path hpath
  obtain ⟨line, hfind, hline⟩ := hrendering.renders.declares hcode
  have hne : language ≠ [] := by
    rintro rfl
    cases htag
  rw [read_clean (hm.clean path hpath) htext]
  exact Discovery.Declares.declaredTag_eq ⟨line, language, hfind, hline, hne, htag⟩

/-- The candidates below a folder are indexed under the tags that they declare, in order. -/
theorem discover_stock [Machine] (suffix : Text) (hm : m.IsStock tagOf singlesOf)
    (hroot : IsRoot root) (hbelow : ∃ path ∈ m.files.keys, folderStart root <+: path)
    (hshallow : m.IsShallow root) :
    ∃ paths index, discover m.provider root suffix = .ok index ∧
      Lists m suffix (Text.trimCharEnd '/' root) paths ∧
      ∀ text, Catalog.indexed index text =
        paths.filter fun path => (tagOf path).toText == text := by
  obtain ⟨paths, hcandidates, hlists⟩ :=
    candidates_root suffix hm.toIsTidy hroot hbelow hshallow
  obtain ⟨index, hindex, hindexed⟩ := Discovery.indexed_indexPaths Table.empty
    fun path hpath => declaredTag_stock hm ((hlists.mem_iff path).1 hpath).1
  refine ⟨paths, index, ?_, hlists, hindexed⟩
  rw [discover, hcandidates, ok_bind, hindex]

/-- Below too many folders a discovery goes too deep. -/
theorem discover_of_not_isShallow [Machine] (suffix : Text) (hm : m.IsTidy) (hroot : IsRoot root)
    (hdeep : ¬m.IsShallow root) : discover m.provider root suffix = .error .foldersTooDeep := by
  rw [discover, candidates_of_not_isShallow suffix hm hroot hdeep]
  rfl

/-- A catalog of paths of the stock has their templates in the order of the paths. -/
theorem build_stock [Machine] (strict : Bool) (hm : m.IsStock tagOf singlesOf) {tag : LocaleTag}
    {index : Index} (hne : Catalog.candidatePaths tag index ≠ [])
    (hpaths : ∀ path ∈ Catalog.candidatePaths tag index, path ∈ m.files.keys) :
    ∃ c, Catalog.build tag m.provider index strict = .ok c ∧
      c.files.map (fun f => f.singles.values) =
        (Catalog.candidatePaths tag index).map singlesOf := by
  have hfile : ∀ path ∈ m.files.keys, ∃ file : Po.File,
      Po.File.parse ⟨strict, some path⟩ .empty (m.provider.read path).lines = .ok file ∧
        (m.provider.read path).fault = none ∧ file.singles.values = singlesOf path := by
    intro path hpath
    obtain ⟨language, text, htext, hcode, -, hrendering⟩ := hm.rendered path hpath
    rw [read_clean (hm.clean path hpath) htext]
    exact ⟨_, hrendering.renders.parse_eq hcode (hm.filled path hpath) _ _, rfl, rfl⟩
  obtain ⟨first, hfirst⟩ := List.exists_mem_of_ne_nil _ hne
  have : Nonempty Po.File := (hfile first (hpaths first hfirst)).nonempty
  choose! fileOf hparse hfault hsingles using hfile
  obtain ⟨c, hbuild, hfiles⟩ := Catalog.build_eq hne fun path hpath =>
    ⟨hparse path (hpaths path hpath), hfault path (hpaths path hpath)⟩
  refine ⟨c, hbuild, ?_⟩
  rw [hfiles, List.map_map]
  exact List.map_congr_left fun path hpath => hsingles path (hpaths path hpath)

end Stock

section Answers

/-- A catalog fills the templates of a look-up without arguments, and misses the other keys. -/
structure Catalog.AnswersFrom [Machine] (c : Catalog) (template? : Text → Option Text) : Prop where
  found : ∀ key template, template? key = some template →
    ∃ text, formatTemplate template [] = .ok text ∧ c.single key [] = .ok (.found text none)
  missing : ∀ key, template? key = none → c.single key [] = .ok .missingKey

theorem Catalog.answersFrom [Machine] {c : Catalog} {tables : List (Table Text Text)}
    (h : c.files.map (fun f => f.singles.values) = tables) :
    c.AnswersFrom fun key => tables.findSome? fun table => table.get? key := by
  have hfiles : ∀ key, (c.files.findSome? fun f => f.singles.values.get? key) =
      tables.findSome? fun table => table.get? key := by
    intro key
    rw [← h, List.findSome?_map]
    rfl
  constructor
  · intro key template htemplate
    refine ⟨_, rfl, ?_⟩
    rw [single_eq, hfiles, htemplate]
    rfl
  · intro key hnone
    rw [single_eq, hfiles, hnone]

theorem Catalog.AnswersFrom.single_found [Machine] {c : Catalog} {template? : Text → Option Text}
    {key template text : Text} (h : c.AnswersFrom template?)
    (htemplate : template? key = some template)
    (htext : formatTemplate template [] = .ok text) :
    c.single key [] = .ok (.found text none) := by
  obtain ⟨found, hfound, hsingle⟩ := h.found key template htemplate
  rw [htext] at hfound
  cases hfound
  exact hsingle

theorem findSome?_two (first second : Table Text Text) (key : Text) :
    ([first, second].findSome? fun table => table.get? key) =
      (first.get? key).or (second.get? key) := by
  rw [List.findSome?_cons, List.findSome?_singleton]
  cases first.get? key <;> rfl

end Answers

section TwoFiles

/-- A rendered file of a language below a root, with the suffix of catalog files; slashes at the end
of the root do not count. -/
structure IsCatalogFile (root suffix language : Text) (singles : Table Text Text)
    (file : Text × Text) : Prop where
  clean : IsClean file.1
  below : root = [] ∨ Text.trimCharEnd '/' root ++ ['/'] <+: file.1
  ends : suffix <:+ file.1
  filled : ∀ e ∈ singles.entries, e.1 ≠ [] ∧ e.2 ≠ []
  rendering : IsRendering language singles file.2

/-- Two paths, neither of which is the other one or a folder of it. -/
structure Apart (path other : Text) : Prop where
  ne : path ≠ other
  left : ¬path ++ ['/'] <+: other
  right : ¬other ++ ['/'] <+: path

variable {root suffix l r language : Text} {singles regionTexts languageTexts : Table Text Text}
  {file regional generic : Text × Text} {files : List (Text × Text)}

theorem IsCatalogFile.isRoot (h : IsCatalogFile root suffix language singles file) :
    IsRoot root ∧ folderStart (Text.trimCharEnd '/' root) <+: file.1 := by
  rcases h.below with rfl | hbelow
  · exact ⟨.inl rfl, List.nil_prefix⟩
  · have hclean : IsClean (Text.trimCharEnd '/' root) := by
      obtain ⟨rest, hrest⟩ := hbelow
      have hfile := h.clean
      rw [← hrest, List.append_assoc] at hfile
      exact (isClean_append_cons.1 hfile).1
    exact ⟨.inr hclean, by rwa [hclean.folderStart_eq]⟩

/-- Two files under clean paths are kept as they are, in whichever order they are given. -/
theorem ofList_two (hregional : IsClean regional.1) (hgeneric : IsClean generic.1)
    (hne : regional.1 ≠ generic.1) (hfiles : files.Perm [regional, generic]) :
    (MemoryAssets.ofList files).files.keys.Perm [regional.1, generic.1] ∧
      ∀ e ∈ [regional, generic], (MemoryAssets.ofList files).files.get? e.1 = some e.2 := by
  have hkeys : (files.map Prod.fst).Perm [regional.1, generic.1] := hfiles.map Prod.fst
  have hnodup : (files.map Prod.fst).Nodup := by
    rw [hkeys.nodup_iff]
    simpa using hne
  have hclean : ∀ e ∈ files, IsClean e.1 := by
    intro e he
    rcases List.mem_pair.1 (hfiles.mem_iff.1 he) with rfl | rfl
    · exact hregional
    · exact hgeneric
  rw [ofList_eq hnodup hclean]
  exact ⟨hkeys, fun e he => Table.get?_of_mem (hfiles.mem_iff.2 he)⟩

theorem isTidy_two {m : MemoryAssets} {path other : Text} (hpath : IsClean path)
    (hother : IsClean other) (hapart : Apart path other)
    (hkeys : m.files.keys.Perm [path, other]) : m.IsTidy := by
  have hself : ∀ t : Text, ¬t ++ ['/'] <+: t := by
    intro t hprefix
    have hlength := hprefix.length_le
    rw [List.length_append, List.length_singleton] at hlength
    omega
  have hstart := hpath.folderStart_eq
  have hstart' := hother.folderStart_eq
  have hmem : ∀ key ∈ m.files.keys, key = path ∨ key = other :=
    fun key hkey => List.mem_pair.1 (hkeys.mem_iff.1 hkey)
  constructor
  · intro key hkey
    rcases hmem key hkey with rfl | rfl
    · exact hpath
    · exact hother
  · intro key hkey key' hkey'
    rcases hmem key hkey with rfl | rfl <;> rcases hmem key' hkey' with rfl | rfl
    · exact hstart ▸ hself _
    · exact hstart ▸ hapart.left
    · exact hstart' ▸ hapart.right
    · exact hstart' ▸ hself _

/-- A file of a region and one of its language are a stock. -/
theorem isStock_two (hl : IsLanguageCode l) (hr : IsRegionCode r)
    (hregional : IsCatalogFile root suffix (l ++ '_' :: r) regionTexts regional)
    (hgeneric : IsCatalogFile root suffix l languageTexts generic)
    (hapart : Apart regional.1 generic.1) (hfiles : files.Perm [regional, generic]) :
    (MemoryAssets.ofList files).files.keys.Perm [regional.1, generic.1] ∧
      (MemoryAssets.ofList files).IsStock
        (fun path => if path = regional.1 then ⟨l, some (.code r), hl.1⟩ else ⟨l, none, hl.1⟩)
        (fun path => if path = regional.1 then regionTexts else languageTexts) := by
  obtain ⟨hkeys, hget⟩ := ofList_two hregional.clean hgeneric.clean hapart.ne hfiles
  have hmem : ∀ path ∈ (MemoryAssets.ofList files).files.keys,
      path = regional.1 ∨ path = generic.1 :=
    fun path hpath => List.mem_pair.1 (hkeys.mem_iff.1 hpath)
  have htidy := isTidy_two hregional.clean hgeneric.clean hapart hkeys
  refine ⟨hkeys, htidy, fun path hpath => ?_, fun path hpath => ?_⟩
  · rcases hmem path hpath with rfl | rfl
    · rw [if_pos rfl, if_pos rfl]
      exact ⟨_, _, hget regional (by simp), all_isCodeChar_regional hl hr, parse_regional hl hr,
        hregional.rendering⟩
    · rw [if_neg hapart.ne.symm, if_neg hapart.ne.symm]
      exact ⟨_, _, hget generic (by simp), hl.all_isCodeChar, parse_language hl,
        hgeneric.rendering⟩
  · rcases hmem path hpath with rfl | rfl
    · rw [if_pos rfl]
      exact hregional.filled
    · rw [if_neg hapart.ne.symm]
      exact hgeneric.filled

/-- The paths of a region and of its language, each the one that declares it. -/
theorem filter_two {paths : List Text} (hl : IsLanguageCode l) (hr : IsRegionCode r)
    (hne : regional.1 ≠ generic.1) (hpaths : paths.Perm [regional.1, generic.1]) :
    let tagOf := fun path : Text =>
      if path = regional.1 then LocaleTag.mk l (some (.code r)) hl.1 else ⟨l, none, hl.1⟩
    (paths.filter fun path => (tagOf path).toText == l ++ '_' :: r) = [regional.1] ∧
      (paths.filter fun path => (tagOf path).toText == l) = [generic.1] := by
  intro tagOf
  have hregional : (tagOf regional.1).toText = l ++ '_' :: r := by
    rw [← LocaleTag.toText_code hl.1 hr.ne_nil]
    exact congrArg LocaleTag.toText (if_pos rfl)
  have hgeneric : (tagOf generic.1).toText = l :=
    congrArg LocaleTag.toText (if_neg hne.symm)
  constructor
  · refine List.perm_singleton.1 ((hpaths.filter _).trans ?_)
    simp [hregional, hgeneric]
  · refine List.perm_singleton.1 ((hpaths.filter _).trans ?_)
    simp [hregional, hgeneric]

/-- The index of a file of a region and one of its language has one path for each. -/
theorem discover_two [Machine] (hl : IsLanguageCode l) (hr : IsRegionCode r)
    (hregional : IsCatalogFile root suffix (l ++ '_' :: r) regionTexts regional)
    (hgeneric : IsCatalogFile root suffix l languageTexts generic)
    (hapart : Apart regional.1 generic.1) (hfiles : files.Perm [regional, generic])
    (hshallow : (MemoryAssets.ofList files).IsShallow root) :
    ∃ index, discover (MemoryAssets.ofList files).provider root suffix = .ok index ∧
      Catalog.indexed index (l ++ '_' :: r) = [regional.1] ∧
      Catalog.indexed index l = [generic.1] := by
  obtain ⟨hkeys, hstock⟩ := isStock_two hl hr hregional hgeneric hapart hfiles
  obtain ⟨hroot, hbelow⟩ := hregional.isRoot
  have hbelow' := hbelow
  rw [← hroot.folderStart_eq] at hbelow'
  have hstored := hkeys.mem_iff.2 (List.mem_cons_self (a := regional.1))
  obtain ⟨paths, index, hdiscover, hlists, hindexed⟩ := discover_stock suffix hstock hroot
    ⟨regional.1, hstored, hbelow'⟩ hshallow
  -- Whatever order the listing has, both paths are in it and no other one.
  have hpaths : paths.Perm [regional.1, generic.1] := by
    refine (List.perm_ext_iff_of_nodup hlists.nodup (by simpa using hapart.ne)).2 fun path => ?_
    rw [hlists.mem_iff, ← hkeys.mem_iff, and_iff_left_iff_imp]
    intro hpath
    rcases List.mem_pair.1 (hkeys.mem_iff.1 hpath) with rfl | rfl
    · exact ⟨.inr hbelow, hregional.ends⟩
    · exact ⟨.inr hgeneric.isRoot.2, hgeneric.ends⟩
  have hfilter := filter_two hl hr hapart.ne hpaths
  refine ⟨index, hdiscover, ?_⟩
  rwa [hindexed, hindexed]

/-- A file of a region and one of its language, wherever they lie below the root: the catalog of the
region answers with the texts of its own file, and with those of the language for the other keys.
The catalog of the language answers with the texts of its file alone.  If the machine does not go
down to both files, nothing is discovered. -/
theorem build_overriding [Machine] (hl : IsLanguageCode l) (hr : IsRegionCode r)
    (hregional : IsCatalogFile root suffix (l ++ '_' :: r) regionTexts regional)
    (hgeneric : IsCatalogFile root suffix l languageTexts generic)
    (hapart : Apart regional.1 generic.1) (hfiles : files.Perm [regional, generic])
    (strict : Bool) :
    let m := MemoryAssets.ofList files
    let p := m.provider
    (m.IsShallow root → ∃ index tag tag' c c', discover p root suffix = .ok index ∧
      LocaleTag.coerce (.identifier (l ++ '_' :: r)) = .ok tag ∧
      LocaleTag.coerce (.identifier l) = .ok tag' ∧
      Catalog.build tag p index strict = .ok c ∧ Catalog.build tag' p index strict = .ok c' ∧
      (c.AnswersFrom fun key => (regionTexts.get? key).or (languageTexts.get? key)) ∧
      c'.AnswersFrom fun key => languageTexts.get? key) ∧
    (¬m.IsShallow root → discover p root suffix = .error .foldersTooDeep) := by
  intro m p
  obtain ⟨hkeys, hstock⟩ := isStock_two hl hr hregional hgeneric hapart hfiles
  refine ⟨fun hshallow => ?_,
    discover_of_not_isShallow suffix hstock.toIsTidy hregional.isRoot.1⟩
  obtain ⟨index, hdiscover, hwhole, hpart⟩ :=
    discover_two hl hr hregional hgeneric hapart hfiles hshallow
  have hboth : Catalog.candidatePaths ⟨l, some (.code r), hl.1⟩ index =
      [regional.1, generic.1] := by
    rw [Catalog.candidatePaths_eq, LocaleTag.toText_code hl.1 hr.ne_nil, hwhole, hpart]
    simp [List.eraseDups_cons, hapart.ne.symm]
  have hone : Catalog.candidatePaths ⟨l, none, hl.1⟩ index = [generic.1] := by
    have htext : (LocaleTag.mk l none hl.1).toText = l := rfl
    rw [Catalog.candidatePaths_eq, htext, hpart]
    simp [List.eraseDups_cons]
  obtain ⟨c, hc, htables⟩ := build_stock strict hstock (by rw [hboth]; simp)
    fun path hpath => hkeys.mem_iff.2 (hboth ▸ hpath)
  obtain ⟨c', hc', htables'⟩ := build_stock strict hstock (by rw [hone]; simp)
    fun path hpath => hkeys.mem_iff.2 (List.mem_cons_of_mem _ (hone ▸ hpath))
  refine ⟨index, _, _, c, c', hdiscover, parse_regional hl hr, parse_language hl, hc, hc', ?_, ?_⟩
  · have hanswers := Catalog.answersFrom htables
    simpa only [hboth, List.map_cons, List.map_nil, if_true, hapart.ne.symm, if_false,
      findSome?_two] using hanswers
  · have hanswers := Catalog.answersFrom htables'
    simpa [hone, hapart.ne.symm] using hanswers

/-- The file of the region is given last and has the later name. -/
theorem build_overriding_canadian :
    let regionTexts : Table Text Text :=
      Table.ofList
        [("HELLO".toList, "All\u00f4!\n".toList), ("SNOW".toList, "\"poudrerie\"".toList)]
    let languageTexts : Table Text Text :=
      Table.ofList [("HELLO".toList, "Bonjour".toList), ("SALE".toList, "-5 %%".toList)]
    let regional := ("po/z.po".toList,
      ['\n'].intercalate (Po.rendered "fr_CA".toList regionTexts))
    let generic := ("po/a.po".toList,
      ['\n'].intercalate (Po.rendered "fr".toList languageTexts))
    let p := (MemoryAssets.ofList [generic, regional]).provider
    ∃ index tag tag' c c', discover p "po".toList ".po".toList = .ok index ∧
      LocaleTag.coerce (.identifier "fr_CA".toList) = .ok tag ∧
      LocaleTag.coerce (.identifier "fr".toList) = .ok tag' ∧
      Catalog.build tag p index true = .ok c ∧ Catalog.build tag' p index true = .ok c' ∧
      c.single "HELLO".toList [] = .ok (.found "All\u00f4!\n".toList none) ∧
      c.single "SALE".toList [] = .ok (.found "-5 %".toList none) ∧
      c.single "BYE".toList [] = .ok .missingKey ∧
      c'.single "HELLO".toList [] = .ok (.found "Bonjour".toList none) ∧
      c'.single "SNOW".toList [] = .ok .missingKey := by
  intro regionTexts languageTexts regional generic p
  have hl : IsLanguageCode "fr".toList := ⟨by decide, by simp⟩
  have hr : IsRegionCode "CA".toList := .inl ⟨rfl, by simp⟩
  have hregional : IsCatalogFile "po".toList ".po".toList "fr_CA".toList regionTexts regional :=
    ⟨by decide, .inr (by decide), by decide, by decide,
      Po.isRendering_rendered (by decide) regionTexts⟩
  have hgeneric : IsCatalogFile "po".toList ".po".toList "fr".toList languageTexts generic :=
    ⟨by decide, .inr (by decide), by decide, by decide,
      Po.isRendering_rendered (by decide) languageTexts⟩
  have hapart : Apart regional.1 generic.1 := ⟨by decide, by decide, by decide⟩
  have hbuild := (build_overriding hl hr hregional hgeneric hapart (.swap _ _ []) true).1
  have hshallow : (MemoryAssets.ofList [generic, regional]).IsShallow "po".toList := by decide
  obtain ⟨index, tag, tag', c, c', hindex, htag, htag', hc, hc', hanswers, hanswers'⟩ :=
    hbuild hshallow
  refine ⟨index, tag, tag', c, c', hindex, htag, htag', hc, hc', ?_, ?_, ?_, ?_, ?_⟩
  · exact hanswers.single_found rfl (by cbv)
  · exact hanswers.single_found rfl (by cbv)
  · exact hanswers.missing _ (by decide)
  · exact hanswers'.single_found rfl (by cbv)
  · exact hanswers'.missing _ (by decide)

/-- A file of a region near the root, and one of its language below many folders. -/
theorem discover_nestedPath :
    let texts : Table Text Text := Table.ofList [("HELLO".toList, "Bonjour".toList)]
    let regional := ("po/z.po".toList, ['\n'].intercalate (Po.rendered "fr_CA".toList texts))
    let generic := (nestedPath 1500, ['\n'].intercalate (Po.rendered "fr".toList texts))
    IsLanguageCode "fr".toList ∧ IsRegionCode "CA".toList ∧
      IsCatalogFile "po".toList ".po".toList "fr_CA".toList texts regional ∧
      IsCatalogFile "po".toList ".po".toList "fr".toList texts generic ∧
      Apart regional.1 generic.1 ∧
      discover (MemoryAssets.ofList [regional, generic]).provider "po".toList ".po".toList =
        .error .foldersTooDeep := by
  intro texts regional generic
  have hclean := isClean_nestedPath 1500
  have hregional : IsCatalogFile "po".toList ".po".toList "fr_CA".toList texts regional :=
    ⟨by decide, .inr (by decide), by decide, by decide,
      Po.isRendering_rendered (by decide) texts⟩
  have hgeneric : IsCatalogFile "po".toList ".po".toList "fr".toList texts generic :=
    ⟨hclean, .inr (List.prefix_append _ _), suffix_nestedPath 1500, by decide,
      Po.isRendering_rendered (by decide) texts⟩
  have hapart : Apart regional.1 generic.1 := by
    obtain ⟨rest, hrest⟩ : ∃ rest, generic.1 = "po/a".toList ++ rest := ⟨_, rfl⟩
    rw [hrest]
    refine ⟨nofun, fun hprefix => ?_, fun hprefix => ?_⟩
    · cases List.isPrefixOf_iff_prefix.2 hprefix
    · cases List.isPrefixOf_iff_prefix.2 hprefix
  refine ⟨⟨by decide, by simp⟩, .inl ⟨rfl, by simp⟩, hregional, hgeneric, hapart, ?_⟩
  obtain ⟨hkeys, -⟩ := ofList_two hregional.clean hclean hapart.ne (.refl [regional, generic])
  have hstored := hkeys.mem_iff.2 (List.mem_cons_of_mem _ (List.mem_singleton_self generic.1))
  exact discover_of_not_isShallow _ (isTidy_two hregional.clean hclean hapart hkeys)
    hregional.isRoot.1 (not_isShallow_nestedPath hstored (by decide))

end TwoFiles

end Phrasebook
