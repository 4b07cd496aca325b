import Mathlib
import Phrasebook.Proofs.Assets.Indexing
import Phrasebook.Proofs.Assets.Returning

/-!
# What a discovery indexes

The index of a discovery has exactly the candidates that declare a tag, whatever fails on the way.

**Indexes.**  `Indexes` says of an index that it has the paths that declare a tag, each once, and in
which order.
**Reach.**  Whatever a walk collects is within reach of a provider that reaches far enough
(`Collects.exists_spans`).
**Faults.**  `Provider.AddsFaultsTo` are the faults that a file or a folder may meet with, among
them those of `withListFaults` and `withInterruptions`.
**Result.**  `discover_indexes`: faults that concern one path end no discovery, and no such fault
changes what is indexed of other files.
-/

namespace Phrasebook

open Catalog (indexed)
open Relation (ReflTransGen)

/-- Do all faults of a provider concern one path only? -/
structure Provider.IsContained (p : Provider) : Prop where
  list : ∀ path f, p.list path = .error f → f.isContained = true
  read : ∀ path f, (p.read path).fault = some f → f.isContained = true

namespace Discovery

variable {p q : Provider} {root suffix path : Text} {paths : List Text} {index : Index}

section Indexes

/-- An index of those of the paths that declare a tag. -/
structure Indexes (p : Provider) (paths : List Text) (index : Index) : Prop where
  mem_iff : ∀ text path, path ∈ indexed index text ↔
    path ∈ paths ∧ ∃ tag, Declares (p.read path) tag ∧ tag.toText = text
  once : (index.entries.flatMap Prod.snd).Nodup
  inhabited : ∀ e ∈ index.entries, e.2 ≠ []
  ordered : ∀ e ∈ index.entries, e.2.Sublist paths
  first : (index.entries.filterMap fun e => e.2.head?).Sublist paths

/-- The candidates are indexed, if no fault ends the discovery. -/
theorem exists_indexes (h : ∀ path f, (p.read path).fault = some f → f.isContained = true)
    (hnodup : paths.Nodup) :
    ∃ index, indexPaths p paths Table.empty = .ok index ∧ Indexes p paths index := by
  choose tagOf htag hdeclares using fun path => exists_declaredTag (h path)
  obtain ⟨index, hindex, hindexed⟩ :=
    indexed_indexPaths Table.empty (fun path (_ : path ∈ paths) => htag path)
  have hfilter : ∀ text, indexed index text =
      paths.filter fun path => (tagOf path).any fun tag => tag.toText == text :=
    fun text => (hindexed text).trans (List.nil_append _)
  have hentry : ∀ e ∈ index.entries, e.2 = indexed index e.1 := by
    intro e he
    rw [indexed, Table.get?_of_mem (v := e.2) he]
    rfl
  have hmem : ∀ text path, path ∈ indexed index text ↔
      path ∈ paths ∧ ∃ tag, Declares (p.read path) tag ∧ tag.toText = text := by
    intro text path
    rw [hfilter, List.mem_filter, Option.any_eq_true]
    simp only [hdeclares, beq_iff_eq]
  have hordered : ∀ e ∈ index.entries, e.2.Sublist paths := by
    intro e he
    rw [hentry e he, hfilter]
    exact List.filter_sublist
  have hempty : IsOrdered [] (Table.empty : Index) :=
    ⟨fun _ he => absurd he List.not_mem_nil, List.Sublist.refl []⟩
  obtain ⟨hinhabited, hfirst⟩ := hempty.indexPaths hindex
  refine ⟨index, hindex, hmem, ?_, hinhabited, hordered, hfirst⟩
  refine List.nodup_flatMap.2 ⟨fun e he => hnodup.sublist (hordered e he), ?_⟩
  have hkeys : index.entries.Pairwise fun e e' => e.1 ≠ e'.1 := List.pairwise_map.1 index.keysNodup
  refine hkeys.imp_of_mem fun {e e'} he he' hne path hpath hpath' => hne ?_
  rw [hentry e he] at hpath
  rw [hentry e' he'] at hpath'
  obtain ⟨-, tag, htag, htext⟩ := (hmem _ path).1 hpath
  obtain ⟨-, tag', htag', htext'⟩ := (hmem _ path).1 hpath'
  rw [← htext, ← htext', htag.unique htag']

end Indexes

section Reach

/-- With a long reach every walk that collects is within it. -/
theorem Collects.exists_spans (h : Collects p suffix root paths) :
    ∃ n, ∀ reach, n ≤ reach → ({ p with reach := reach } : Provider).Spans root := by
  have hbound : ∃ n, ∀ chain, (root :: chain).IsChain p.Enters → chain.length ≤ n := by
    induction h with
    | @skipped path f hlist =>
        refine ⟨0, fun chain hchain => ?_⟩
        cases chain with
        | nil => exact Nat.le_refl 0
        | cons next chain =>
            exact absurd (List.isChain_cons_cons.1 hchain).1 (not_enters_skipped hlist)
    | @file path hlist =>
        refine ⟨0, fun chain hchain => ?_⟩
        cases chain with
        | nil => exact Nat.le_refl 0
        | cons next chain =>
            exact absurd (List.isChain_cons_cons.1 hchain).1 (not_enters_file hlist)
    | @folder path names found hlist _ _ ih =>
        choose! depth hdepth using ih
        refine ⟨names.toFinset.sup depth + 1, fun chain hchain => ?_⟩
        cases chain with
        | nil => exact Nat.zero_le _
        | cons next chain =>
            obtain ⟨henters, hrest⟩ := List.isChain_cons_cons.1 hchain
            obtain ⟨name, hname, rfl⟩ := (enters_iff_of_list hlist).1 henters
            have hle : depth name ≤ names.toFinset.sup depth :=
              Finset.le_sup (List.mem_toFinset.2 hname)
            exact Nat.succ_le_succ ((hdepth name hname chain hrest).trans hle)
  obtain ⟨n, hn⟩ := hbound
  exact ⟨n, fun reach hreach chain hchain => (hn chain hchain).trans hreach⟩

end Reach

section Faults

theorem isContained_memory [Machine] (m : MemoryAssets) : m.provider.IsContained := by
  refine ⟨nofun, fun path f hfault => ?_⟩
  have hlines : (m.lines path).fault = some f := hfault
  unfold MemoryAssets.lines at hlines
  split at hlines
  · cases hlines
  · cases hlines
    rfl

theorem isContained_of_addsFaultsTo (hp : p.IsContained) (h : q.AddsFaultsTo p) :
    q.IsContained := by
  constructor
  · intro path f hfault
    rcases h.list path with hsame | ⟨f', hfault', hcontained⟩
    · exact hp.list path f (hsame.symm.trans hfault)
    · rw [hfault] at hfault'
      exact Except.error.inj hfault' ▸ hcontained
  · intro path f hfault
    rcases h.read path with hsame | ⟨f', hfault', hcontained⟩
    · exact hp.read path f (hsame ▸ hfault)
    · rw [hfault] at hfault'
      exact Option.some.inj hfault' ▸ hcontained

theorem mem_of_lookup {α : Type} {entries : List (Text × α)} {a : α}
    (h : entries.lookup path = some a) : (path, a) ∈ entries := by
  obtain ⟨front, behind, rfl, -⟩ := List.lookup_eq_some_iff.1 h
  simp

theorem withListFaults_addsFaultsTo {faults : List (Text × Fault)}
    (h : ∀ e ∈ faults, e.2.isContained = true) : (p.withListFaults faults).AddsFaultsTo p where
  list path := by
    cases hlookup : faults.lookup path with
    | none => exact .inl (by simp [Provider.withListFaults, hlookup])
    | some f =>
        exact .inr ⟨f, by simp [Provider.withListFaults, hlookup], h _ (mem_of_lookup hlookup)⟩
  read path := .inl rfl
  reach := Nat.le_refl _

/-- An interrupted delivery fails with the fault of the interruption, or with its own before. -/
theorem interrupted_eq_or (d : Delivery) (i : Interruption) :
    d.interrupted i = d ∨ (d.interrupted i).fault = some i.fault := by
  unfold Delivery.interrupted
  cases i.after with
  | none => exact .inr rfl
  | some count =>
      simp only [Delivery.interruptedAfter]
      split
      · exact .inr rfl
      · exact .inl rfl

theorem withInterruptions_addsFaultsTo {interruptions : List (Text × Interruption)}
    (h : ∀ e ∈ interruptions, e.2.fault.isContained = true) :
    (p.withInterruptions interruptions).AddsFaultsTo p where
  list path := .inl rfl
  read path := by
    cases hlookup : interruptions.lookup path with
    | none => exact .inl (by simp [Provider.withInterruptions, hlookup])
    | some i =>
        have hread :
            (p.withInterruptions interruptions).read path = (p.read path).interrupted i := by
          simp [Provider.withInterruptions, hlookup]
        rw [hread]
        exact (interrupted_eq_or (p.read path) i).imp_right fun hfault =>
          ⟨i.fault, hfault, h _ (mem_of_lookup hlookup)⟩
  reach := Nat.le_refl _

/-- The index of a discovery. -/
theorem exists_discover (hp : p.IsContained) (hspans : p.Spans root)
    (hpaths : Collects p suffix root paths) (hnodup : paths.Nodup) :
    ∃ index, discover p root suffix = .ok index ∧ Indexes p paths index := by
  obtain ⟨index, hindex, hindexes⟩ := exists_indexes hp.read hnodup
  refine ⟨index, ?_, hindexes⟩
  rw [discover, hpaths.candidates_eq hspans]
  exact hindex

/-- Faults that concern one path each end no discovery, and the index has exactly the candidates
that declare a tag.  Further faults of this kind change nothing of a file that is still come to and
delivers the same. -/
theorem discover_indexes (hp : p.IsContained) (hspans : p.Spans root)
    (hpaths : Collects p suffix root paths) (hnodup : paths.Nodup) :
    ∃ index, discover p root suffix = .ok index ∧ Indexes p paths index ∧
      ∀ q : Provider, q.AddsFaultsTo p →
        ∃ index', discover q root suffix = .ok index' ∧
          ∀ path, ReflTransGen q.Enters root path → q.list path = .ok [] →
            q.read path = p.read path →
            ∀ text, path ∈ indexed index' text ↔ path ∈ indexed index text := by
  obtain ⟨index, hindex, hindexes⟩ := exists_discover hp hspans hpaths hnodup
  refine ⟨index, hindex, hindexes, fun q hq => ?_⟩
  obtain ⟨others, hothers, hsub⟩ := hpaths.of_addsFaultsTo hq
  obtain ⟨index', hindex', hindexes'⟩ := exists_discover (isContained_of_addsFaultsTo hp hq)
    (spans_of_addsFaultsTo hq hspans) hothers (hnodup.sublist hsub)
  refine ⟨index', hindex', fun path hvisited hlist hread text => ?_⟩
  have hpath : path ∈ others ↔ path ∈ paths := by
    have hvisited' : ReflTransGen p.Enters root path :=
      Relation.ReflTransGen.mono (fun _ _ => enters_of_addsFaultsTo hq) _ _ hvisited
    have hlist' : p.list path = .ok [] := by
      rcases hq.list path with hsame | ⟨f, hfault, -⟩
      · exact hsame.symm.trans hlist
      · simp [hfault] at hlist
    rw [hothers.mem_iff, hpaths.mem_iff]
    simp only [hvisited, hvisited', hlist, hlist', true_and]
  rw [hindexes'.mem_iff, hindexes.mem_iff, hpath, hread]

/-- Three files in memory, of which the last one declares nothing; the second one fails when it is
read again. -/
theorem discover_indexes_files :
    let m := MemoryAssets.ofList [("po/a.po".toList, "\"Language: de-AT\\n\"".toList),
      ("po/b.po".toList, "\"Language: fr\\n\"".toList), ("po/c.po".toList, [])]
    let q := m.provider.withInterruptions [("po/b.po".toList, ⟨some 0, .undecodable⟩)]
    ∃ index index', discover m.provider "po".toList ".po".toList = .ok index ∧
      discover q "po".toList ".po".toList = .ok index' ∧
      (∀ text, "po/c.po".toList ∉ indexed index text) ∧
      "po/a.po".toList ∈ indexed index' "de_AT".toList := by
  intro m q
  have hentries : m.entries "po".toList = ["a.po".toList, "b.po".toList, "c.po".toList] ∧
      m.entries "po/a.po".toList = [] ∧ m.entries "po/b.po".toList = [] ∧
      m.entries "po/c.po".toList = [] := by
    refine ⟨?_, ?_, ?_, ?_⟩ <;> simp only [m] <;> cbv
  have hlines : m.lines "po/a.po".toList = .complete ["\"Language: de-AT\\n\"".toList] ∧
      m.lines "po/c.po".toList = .complete [] := by
    refine ⟨?_, ?_⟩ <;> simp only [m] <;> cbv
  have hfiles : ∀ name ∈ ["a.po".toList, "b.po".toList, "c.po".toList],
      Collects m.provider ".po".toList (childPath "po".toList name)
        [childPath "po".toList name] := by
    intro name hname
    simp only [List.mem_cons, List.not_mem_nil, or_false] at hname
    rcases hname with rfl | rfl | rfl
    · exact .file (congrArg Except.ok hentries.2.1)
    · exact .file (congrArg Except.ok hentries.2.2.1)
    · exact .file (congrArg Except.ok hentries.2.2.2)
  have hcollects : Collects m.provider ".po".toList "po".toList
      ["po/a.po".toList, "po/b.po".toList, "po/c.po".toList] :=
    .folder (congrArg Except.ok hentries.1) (by simp) hfiles
  obtain ⟨index, hindex, hindexes, hfaults⟩ := discover_indexes (isContained_memory m)
    (spans_memory_of_collects hcollects (by decide)) hcollects (by decide)
  have hq : q.AddsFaultsTo m.provider := withInterruptions_addsFaultsTo (by decide)
  obtain ⟨index', hindex', hsame⟩ := hfaults q hq
  refine ⟨index, index', hindex, hindex', fun text hmem => ?_, ?_⟩
  · obtain ⟨-, tag, ⟨line, language, hline, -⟩, -⟩ := (hindexes.mem_iff _ _).1 hmem
    have hread : m.provider.read "po/c.po".toList = .complete [] := hlines.2
    rw [hread] at hline
    cases hline
  · have hvisited := hcollects.mem_iff.1 (List.mem_cons_self (a := "po/a.po".toList))
    rw [hsame _ hvisited.1 hvisited.2.1 rfl, hindexes.mem_iff]
    have hread : m.provider.read "po/a.po".toList = .complete ["\"Language: de-AT\\n\"".toList] :=
      hlines.1
    have htag : LocaleTag.parse "de-AT".toList =
        .ok ⟨"de".toList, some (.code "AT".toList), by decide⟩ := by
      cbv
    rw [hread]
    exact ⟨by decide, _, ⟨_, "de-AT".toList, rfl, rfl, by decide, htag⟩, rfl⟩

end Faults

end Discovery
end Phrasebook
