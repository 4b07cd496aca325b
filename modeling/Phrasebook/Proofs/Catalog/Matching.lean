import Mathlib
import Phrasebook.Proofs.Assets.Declaring
import Phrasebook.Proofs.Catalog.Loading
import Phrasebook.Proofs.Locale.Spelling

/-!
# Declared and requested tags

Which files a catalog searches, by the tags that the files declare and the one that is asked for.

**Texts.**  Files are indexed and looked for under the texts of tags.  Tags that are read from
identifiers have different texts, so that this comes to the tags themselves (`indexed_toText`).
**Rows.**  The files of a catalog are those that declare its tag, and behind them those that declare
its language alone (`candidatePaths_eq_filters`).
**Result.**  `candidatePaths_matching`: this holds of whatever a discovery has found, however the
files spell what they declare and however the locale is asked for.
-/

namespace Phrasebook
namespace Catalog

open Discovery (Collects Declares candidates childPath declaredLanguage declaredTag_eq_some_iff
  declares_iff discover exists_discover exists_of_discover isContained_memory)

variable {p : Provider} {root suffix identifier : Text} {paths : List Text} {index : Index}
  {requested : LocaleTag}

section Rows

variable {tagOf : Text → Option LocaleTag}

/-- Under the text of a tag stand the files of the tag. -/
theorem indexed_toText (hspelled : ∀ path ∈ paths, ∀ tag ∈ tagOf path, tag.IsSpelled)
    (hindexed : ∀ text, indexed index text =
      paths.filter fun path => (tagOf path).any fun tag => tag.toText == text)
    (hrequested : requested.IsSpelled) :
    indexed index requested.toText = paths.filter fun path => tagOf path = some requested := by
  rw [hindexed]
  refine List.filter_congr fun path hpath => ?_
  cases htag : tagOf path with
  | none => simp
  | some tag =>
      rw [Option.any_some, Bool.eq_iff_iff, beq_iff_eq, decide_eq_true_eq, Option.some.injEq]
      exact (hspelled path hpath tag htag).toText_eq_iff hrequested

/-- The files of the tag, then those of its language alone, each at its first position. -/
theorem candidatePaths_eq_filters
    (hspelled : ∀ path ∈ paths, ∀ tag ∈ tagOf path, tag.IsSpelled)
    (hindexed : ∀ text, indexed index text =
      paths.filter fun path => (tagOf path).any fun tag => tag.toText == text)
    (hrequested : requested.IsSpelled) :
    candidatePaths requested index =
      (paths.filter (fun path => tagOf path = some requested) ++
        paths.filter fun path => tagOf path = some requested.languageOnly).eraseDups := by
  have hlanguage : requested.language = requested.languageOnly.toText := rfl
  rw [candidatePaths_eq, hlanguage, indexed_toText hspelled hindexed hrequested,
    indexed_toText hspelled hindexed hrequested.languageOnly]

end Rows

section Results

/-- A file that declares a language is searched for a locale exactly if the tag of the language is
the one that is asked for or the language of that alone, and those that declare the whole tag come
first. -/
theorem candidatePaths_matching (hindex : discover p root suffix = .ok index)
    (hrequested : LocaleTag.coerce (.identifier identifier) = .ok requested) :
    ∃ paths complete general,
      candidates p root suffix = .ok paths ∧
      (∀ path ∈ paths, ∀ language declared,
        declaredLanguage (p.read path) = .ok (some language) →
        LocaleTag.parse language = .ok declared →
          path ∈ indexed index declared.toText ∧
            (path ∈ candidatePaths requested index ↔
              declared = requested ∨ declared = requested.languageOnly)) ∧
      candidatePaths requested index = complete ++ general ∧ (complete ++ general).Nodup ∧
      (∀ path, path ∈ complete ↔ path ∈ paths ∧ Declares (p.read path) requested) ∧
      ∀ path, path ∈ general ↔ path ∈ paths ∧
        Declares (p.read path) requested.languageOnly ∧ requested.languageOnly ≠ requested := by
  obtain ⟨paths, tagOf, hpaths, htags, hindexed⟩ := exists_of_discover hindex
  have hdeclares : ∀ path ∈ paths, ∀ tag, tagOf path = some tag ↔ Declares (p.read path) tag := by
    intro path hpath tag
    rw [← declaredTag_eq_some_iff, htags path hpath, Except.ok.injEq]
  -- every tag is read from an identifier, so that the texts of the tags tell them apart
  have hspelled : ∀ path ∈ paths, ∀ tag ∈ tagOf path, tag.IsSpelled := by
    intro path hpath tag htag
    obtain ⟨language, -, hparse⟩ := declares_iff.1 ((hdeclares path hpath tag).1 htag)
    exact LocaleTag.isSpelled_of_parse hparse
  have hasked : requested.IsSpelled := LocaleTag.isSpelled_of_parse hrequested
  have heq := candidatePaths_eq_filters hspelled hindexed hasked
  refine ⟨paths, _, _, hpaths, fun path hpath language declared hlanguage hparse => ?_,
    heq.trans List.eraseDups_append, ?_, fun path => ?_, fun path => ?_⟩
  · have htag : tagOf path = some declared :=
      (hdeclares path hpath declared).2 (declares_iff.2 ⟨language, hlanguage, hparse⟩)
    constructor
    · rw [indexed_toText hspelled hindexed (LocaleTag.isSpelled_of_parse hparse), List.mem_filter]
      exact ⟨hpath, decide_eq_true htag⟩
    · rw [heq]
      simp [hpath, htag]
  · rw [← List.eraseDups_append, ← heq]
    exact candidatePaths_nodup requested index
  · rw [List.mem_eraseDups, List.mem_filter, decide_eq_true_eq]
    exact and_congr_right fun hpath => hdeclares path hpath requested
  · rw [List.mem_eraseDups, List.removeAll, List.mem_filter, List.mem_filter, decide_eq_true_eq,
      and_assoc]
    refine and_congr_right fun hpath => ?_
    rw [← hdeclares path hpath]
    refine and_congr_right fun htag => ?_
    simp [hpath, htag]

/-- Three files in memory.  The one of the region comes first, although it is listed last, and the
one of another region is left out. -/
theorem candidatePaths_matching_brazilian :
    let m := MemoryAssets.ofList [("po/a.po".toList, "\"Language: PT\\n\"".toList),
      ("po/b.po".toList, "\"Language: pt-PT\\n\"".toList),
      ("po/c.po".toList, "\"Language: pt-br.utf8\\n\"".toList)]
    ∃ index requested complete general,
      discover m.provider "po".toList ".po".toList = .ok index ∧
      LocaleTag.coerce (.identifier "pt_Latn_BR".toList) = .ok requested ∧
      candidatePaths requested index = complete ++ general ∧ "po/c.po".toList ∈ complete ∧
      "po/a.po".toList ∈ general ∧ "po/b.po".toList ∉ candidatePaths requested index := by
  intro m
  have hentries : m.entries "po".toList = ["a.po".toList, "b.po".toList, "c.po".toList] ∧
      m.entries "po/a.po".toList = [] ∧ m.entries "po/b.po".toList = [] ∧
      m.entries "po/c.po".toList = [] := by
    refine ⟨?_, ?_, ?_, ?_⟩ <;> simp only [m] <;> cbv
  have hlines : m.lines "po/a.po".toList = .complete ["\"Language: PT\\n\"".toList] ∧
      m.lines "po/b.po".toList = .complete ["\"Language: pt-PT\\n\"".toList] ∧
      m.lines "po/c.po".toList = .complete ["\"Language: pt-br.utf8\\n\"".toList] := by
    refine ⟨?_, ?_, ?_⟩ <;> simp only [m] <;> cbv
  have hdepth : ∀ key ∈ m.files.keys,
      (Text.splitOn '/' key).length ≤ Machine.folderDepth := by
    decide
  clear_value m
  have hfiles : ∀ name ∈ ["a.po".toList, "b.po".toList, "c.po".toList],
      Collects m.provider ".po".toList (childPath "po".toList name)
        [childPath "po".toList name] := by
    intro name hname
    simp only [List.mem_cons, List.not_mem_nil, or_false] at hname
    rcases hname with rfl | rfl | rfl
    · exact .file (congrArg Except.ok hentries.2.1)
    · exact .file (congrArg Except.ok hentries.2.2.1)
    · exact .file (congrArg Except.ok hentries.2.2.2)
  have hcollects : Collects m.provider ".po".toList "po".toList
      ["po/a.po".toList, "po/b.po".toList, "po/c.po".toList] :=
    .folder (congrArg Except.ok hentries.1) (by simp) hfiles
  have hspans := spans_memory_of_collects hcollects hdepth
  obtain ⟨index, hindex, -⟩ :=
    exists_discover (isContained_memory m) hspans hcollects (by decide)
  have hrequested : LocaleTag.coerce (.identifier "pt_Latn_BR".toList) =
      .ok ⟨"pt".toList, some (.code "BR".toList), by decide⟩ := by
    cbv
  have hlanguages :
      declaredLanguage (m.provider.read "po/a.po".toList) = .ok (some "PT".toList) ∧
      declaredLanguage (m.provider.read "po/b.po".toList) = .ok (some "pt-PT".toList) ∧
      declaredLanguage (m.provider.read "po/c.po".toList) = .ok (some "pt-br.utf8".toList) :=
    ⟨(congrArg declaredLanguage hlines.1).trans (by cbv),
      (congrArg declaredLanguage hlines.2.1).trans (by cbv),
      (congrArg declaredLanguage hlines.2.2).trans (by cbv)⟩
  have htags : LocaleTag.parse "PT".toList = .ok ⟨"pt".toList, none, by decide⟩ ∧
      LocaleTag.parse "pt-PT".toList = .ok ⟨"pt".toList, some (.code "PT".toList), by decide⟩ ∧
      LocaleTag.parse "pt-br.utf8".toList =
        .ok ⟨"pt".toList, some (.code "BR".toList), by decide⟩ := by
    refine ⟨?_, ?_, ?_⟩ <;> cbv
  obtain ⟨paths, complete, general, hpaths, hmatching, heq, -, hcomplete, hgeneral⟩ :=
    candidatePaths_matching hindex hrequested
  rw [hcollects.candidates_eq hspans] at hpaths
  cases hpaths
  refine ⟨index, _, complete, general, hindex, hrequested, heq, ?_, ?_, ?_⟩
  · exact (hcomplete _).2 ⟨by decide, declares_iff.2 ⟨_, hlanguages.2.2, htags.2.2⟩⟩
  · exact (hgeneral _).2 ⟨by decide, declares_iff.2 ⟨_, hlanguages.1, htags.1⟩, by decide⟩
  · rw [(hmatching _ (by decide) _ _ hlanguages.2.1 htags.2.1).2]
    decide

end Results

end Catalog
end Phrasebook
