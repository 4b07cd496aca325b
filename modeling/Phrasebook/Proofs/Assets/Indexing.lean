import Phrasebook.Assets.Discovery
import Phrasebook.Catalog.Basic
import Phrasebook.Proofs.Outcome
import Phrasebook.Proofs.Tables

/-!
# Indexing declared files

**Declarations.**  `Declares` says which tag a file declares: its first line with the field of the
language is delivered before any fault, and the text of the field is a tag.
**One step.**  A path is added behind the paths of its tag, and no other tag changes.
**All paths.**  `indexed_indexPaths`: the index of some candidates has, under each tag, those
that declare it, in the order of the candidates.
**Order.**  `IsOrdered` is kept by every path, so that the tags of an index come in the order in
which they first appear (`IsOrdered.indexPaths`).
-/

namespace Phrasebook
namespace Discovery

open Catalog (indexed)

variable {p : Provider}

section Declarations

variable {d : Delivery} {tag : LocaleTag}

/-- Does a file declare the tag in its first line with the field of the language, before any
fault? -/
def Declares (d : Delivery) (tag : LocaleTag) : Prop :=
  ∃ line language, d.lines.find? declaresLanguage = some line ∧
    Po.declaredLanguage? (Text.trim line) = some language ∧ language ≠ [] ∧
    LocaleTag.parse language = .ok tag

/-- Unless a fault ends the discovery, a file has the tag that it declares. -/
theorem exists_declaredTag (h : ∀ f, d.fault = some f → f.isContained = true) :
    ∃ tag?, declaredTag d = .ok tag? ∧ ∀ tag, tag? = some tag ↔ Declares d tag := by
  unfold declaredTag declaredLanguage Declares
  cases hfind : d.lines.find? declaresLanguage with
  | none =>
      refine ⟨none, ?_, by simp⟩
      cases hfault : d.fault with
      | none => rfl
      | some f => simp [h f hfault]
  | some line =>
      dsimp only
      cases hlanguage : Po.declaredLanguage? (Text.trim line) with
      | none => exact ⟨none, rfl, by simp [hlanguage]⟩
      | some language =>
          by_cases hne : language = []
          · exact ⟨none, by simp [hne], by simp [hlanguage, hne]⟩
          · cases hparse : LocaleTag.parse language with
            | error e => exact ⟨none, by simp [hne, hparse], by simp [hlanguage, hparse]⟩
            | ok tag => exact ⟨some tag, by simp [hne, hparse], by simp [hlanguage, hne, hparse]⟩

theorem Declares.declaredTag_eq (h : Declares d tag) : declaredTag d = .ok (some tag) := by
  obtain ⟨line, language, hfind, hline, hne, htag⟩ := h
  have hlanguage : declaredLanguage d = .ok (some language) := by
    rw [declaredLanguage]
    simp only [hfind, hline]
  rw [declaredTag, hlanguage]
  simp [hne, htag]

/-- A file declares the tag that the text of its field names. -/
theorem declares_iff :
    Declares d tag ↔
      ∃ language,
        declaredLanguage d = .ok (some language) ∧ LocaleTag.parse language = .ok tag := by
  unfold Declares declaredLanguage
  constructor
  · rintro ⟨line, language, hfind, hlanguage, -, htag⟩
    exact ⟨language, by simp only [hfind, hlanguage], htag⟩
  · rintro ⟨language, hlanguage, htag⟩
    have hne : language ≠ [] := by
      rintro rfl
      cases htag
    split at hlanguage
    · rename_i line hfind
      exact ⟨line, language, hfind, Except.ok.inj hlanguage, hne, htag⟩
    · split at hlanguage <;> cases hlanguage

theorem declaredTag_eq_some_iff : declaredTag d = .ok (some tag) ↔ Declares d tag := by
  refine ⟨fun h => declares_iff.2 ?_, Declares.declaredTag_eq⟩
  unfold declaredTag at h
  cases hlanguage : declaredLanguage d with
  | error f =>
      simp only [hlanguage] at h
      split at h <;> cases h
  | ok language? =>
      cases language? with
      | none =>
          rw [hlanguage] at h
          cases h
      | some language =>
          simp only [hlanguage] at h
          split at h
          · cases h
          · split at h
            · rename_i found hparse
              cases h
              exact ⟨language, rfl, hparse⟩
            · cases h

theorem Declares.unique {tag' : LocaleTag} (h : Declares d tag) (h' : Declares d tag') :
    tag = tag' :=
  Option.some.inj (Except.ok.inj (h.declaredTag_eq.symm.trans h'.declaredTag_eq))

end Declarations

theorem indexed_addPath (index : Index) (tag : LocaleTag) (path text : Text) :
    indexed (addPath index tag path) text =
      indexed index text ++ if tag.toText = text then [path] else [] := by
  rw [indexed, addPath, Table.get?_modify]
  split
  · rename_i h
    rw [h, indexed, Option.getD_some]
  · rw [indexed, List.append_nil]

/-- The index of candidates none of which fails: a tag has the candidates that declare it. -/
theorem indexed_indexPaths (index : Index) {paths : List Text} {tagOf : Text → Option LocaleTag}
    (h : ∀ path ∈ paths, declaredTag (p.read path) = .ok (tagOf path)) :
    ∃ index', indexPaths p paths index = .ok index' ∧
      ∀ text, indexed index' text = indexed index text ++
        paths.filter fun path => (tagOf path).any fun tag => tag.toText == text := by
  induction paths generalizing index with
  | nil => exact ⟨index, rfl, fun text => (List.append_nil _).symm⟩
  | cons path paths ih =>
      obtain ⟨hpath, hpaths⟩ := List.forall_mem_cons.1 h
      cases htag : tagOf path with
      | none =>
          obtain ⟨index', hindex, hindexed⟩ := ih index hpaths
          refine ⟨index', ?_, fun text => ?_⟩
          · simp only [indexPaths, hpath, htag, hindex]
          · simp [hindexed, htag]
      | some tag =>
          obtain ⟨index', hindex, hindexed⟩ := ih (addPath index tag path) hpaths
          refine ⟨index', ?_, fun text => ?_⟩
          · simp only [indexPaths, hpath, htag, hindex]
          · rw [hindexed, indexed_addPath, List.append_assoc]
            by_cases htext : tag.toText = text <;> simp [htag, htext]

theorem exists_declaredTag_of_indexPaths {paths : List Text} {index index' : Index}
    (h : indexPaths p paths index = .ok index') :
    ∀ path ∈ paths, ∃ tag?, declaredTag (p.read path) = .ok tag? := by
  induction paths generalizing index with
  | nil => exact fun path hpath => nomatch hpath
  | cons path paths ih =>
      rw [indexPaths] at h
      split at h
      · cases h
      · rename_i htag
        exact List.forall_mem_cons.2 ⟨⟨none, htag⟩, ih h⟩
      · rename_i tag htag
        exact List.forall_mem_cons.2 ⟨⟨some tag, htag⟩, ih h⟩

/-- What a discovery has found: its candidates by the texts of their tags, in order. -/
theorem exists_of_discover {root suffix : Text} {index : Index}
    (h : discover p root suffix = .ok index) :
    ∃ (paths : List Text) (tagOf : Text → Option LocaleTag),
      candidates p root suffix = .ok paths ∧
      (∀ path ∈ paths, declaredTag (p.read path) = .ok (tagOf path)) ∧
      ∀ text, indexed index text =
        paths.filter fun path => (tagOf path).any fun tag => tag.toText == text := by
  obtain ⟨paths, hpaths, hindex⟩ := bind_eq_ok_iff.1 h
  have htags := exists_declaredTag_of_indexPaths hindex
  choose! tagOf htag using htags
  obtain ⟨index', hindex', hindexed⟩ := indexed_indexPaths Table.empty htag
  obtain rfl : index' = index := Except.ok.inj (hindex'.symm.trans hindex)
  exact ⟨paths, tagOf, hpaths, htag, fun text => (hindexed text).trans (List.nil_append _)⟩

/-- Has every tag a path, and do the tags come in the order of their first paths? -/
structure IsOrdered (paths : List Text) (index : Index) : Prop where
  inhabited : ∀ e ∈ index.entries, e.2 ≠ []
  first : (index.entries.filterMap fun e => e.2.head?).Sublist paths

variable {front paths : List Text} {index index' : Index}

/-- A path is the first one of its tag only if the tag is new, and then it goes to the end. -/
theorem IsOrdered.addPath (h : IsOrdered front index) (tag : LocaleTag) (path : Text) :
    IsOrdered (front ++ [path]) (addPath index tag path) := by
  by_cases hkey : tag.toText ∈ index.keys
  · obtain ⟨before, old, behind, hentries, hold, hput⟩ := Table.exists_put_eq hkey
    have hindex : (Discovery.addPath index tag path).entries =
        before ++ (tag.toText, old ++ [path]) :: behind := by
      have hget : index.get? tag.toText = some old := hold
      rw [Discovery.addPath, Table.modify, hget]
      exact hput _
    have hne : old ≠ [] := h.inhabited (tag.toText, old) (by simp [hentries])
    have hhead : (old ++ [path]).head? = old.head? := by
      cases old with
      | nil => exact absurd rfl hne
      | cons first others => rfl
    constructor
    · intro e he
      rw [hindex, List.mem_append, List.mem_cons] at he
      rcases he with he | rfl | he
      · exact h.inhabited e (by simp [hentries, he])
      · simp
      · exact h.inhabited e (by simp [hentries, he])
    · have hfirst := h.first
      rw [hentries, List.filterMap_append, List.filterMap_cons] at hfirst
      rw [hindex, List.filterMap_append, List.filterMap_cons, hhead]
      exact hfirst.trans (List.sublist_append_left front [path])
  · have hindex : (Discovery.addPath index tag path).entries =
        index.entries ++ [(tag.toText, [path])] := by
      rw [Discovery.addPath, Table.modify, Table.get?_of_not_mem hkey]
      exact Table.entries_set_of_not_mem _ hkey
    constructor
    · intro e he
      rw [hindex, List.mem_append, List.mem_singleton] at he
      rcases he with he | rfl
      · exact h.inhabited e he
      · simp
    · rw [hindex, List.filterMap_append]
      exact h.first.append (List.Sublist.refl [path])

theorem IsOrdered.indexPaths (h : IsOrdered front index)
    (hindex : indexPaths p paths index = .ok index') : IsOrdered (front ++ paths) index' := by
  induction paths generalizing front index with
  | nil =>
      cases hindex
      rwa [List.append_nil]
  | cons path paths ih =>
      rw [Discovery.indexPaths] at hindex
      rw [List.append_cons]
      split at hindex
      · cases hindex
      · have hskipped : IsOrdered (front ++ [path]) index :=
          ⟨h.inhabited, h.first.trans (List.sublist_append_left front [path])⟩
        exact ih hskipped hindex
      · exact ih (h.addPath _ path) hindex

end Discovery
end Phrasebook
