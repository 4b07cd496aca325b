import Mathlib
import Phrasebook.Catalog.Basic
import Phrasebook.Proofs.Outcome
import Phrasebook.Proofs.Po.Junk
import Phrasebook.Proofs.Text.Sorting

/-!
# Loading a catalog

Which files a catalog loads, and what comes of each of them.

**Paths.**  The candidates are the indexed paths of the tag and then those of its language, each at
its first position (`candidatePaths_eq`).
**Reports.**  `Catalog.Reports` says what a load reports of one path, given what the provider
delivers for it; no other path has a part in it.
**Depth.**  `Catalog.GivesUp`: a path whose formula is nested too deep for the machine has no
report.
**Result.**  `load_contained`: a load reports every candidate in order, whatever fails, and gives a
summary exactly if a file was loaded, unless the machine gives up on one of them.  Then it reports
nothing at all (`load_nestedLine`).
-/

namespace Phrasebook
namespace Catalog

section Paths

/-- The paths of the tag, then those of its language; without a region these are the same ones. -/
theorem candidatePaths_eq (locale : LocaleTag) (index : Index) :
    candidatePaths locale index =
      (indexed index locale.toText ++ indexed index locale.language).eraseDups := by
  unfold candidatePaths
  by_cases hregion : locale.hasRegion = true
  · rw [if_pos hregion]
  · have htext : locale.toText = locale.language := by
      unfold LocaleTag.toText
      cases hnone : locale.region with
      | none => rfl
      | some region => simp [LocaleTag.hasRegion, hnone] at hregion
    have hself :
        (indexed index locale.language).removeAll (indexed index locale.language) = [] := by
      simp [List.removeAll]
    simp only [hregion, htext, List.nil_append, List.eraseDups_append, hself, List.eraseDups_nil,
      List.append_nil, Bool.false_eq_true, if_false]

theorem candidatePaths_nodup (locale : LocaleTag) (index : Index) :
    (candidatePaths locale index).Nodup := by
  rw [candidatePaths_eq]
  exact nodup_eraseDups _

end Paths

section Reports

variable {p : Provider} {locale path : Text} {strict : Bool}

theorem contentFailure_eq {e : Po.ReadError} (h : e ≠ .stopped .nestedTooDeep) :
    contentFailure e = .content e := by
  unfold contentFailure
  split
  next => exact absurd rfl h
  next => rfl

variable [Machine]

/-- Are the chains in a formula of the file nested too deep for the machine to read on? -/
def GivesUp (p : Provider) (strict : Bool) (path : Text) : Prop :=
  Po.File.parse ⟨strict, some path⟩ .empty (p.read path).lines = .error (.stopped .nestedTooDeep)

/-- What a load reports of a path, and the file that it gives. -/
inductive Reports (p : Provider) (locale : Text) (strict : Bool) (path : Text) :
    LoadResult → Option Po.File → Prop
  | success {file : Po.File} :
      Po.File.parse ⟨strict, some path⟩ .empty (p.read path).lines = .ok file →
      (p.read path).fault = none →
      Reports p locale strict path ⟨locale, path, .success, none, file.junk⟩ (some file)
  | notFound {file : Po.File} {f : Fault} :
      Po.File.parse ⟨strict, some path⟩ .empty (p.read path).lines = .ok file →
      (p.read path).fault = some f → f.category = .missing →
      Reports p locale strict path ⟨locale, path, .notFound, some (.fault f), []⟩ none
  | faulty {file : Po.File} {f : Fault} :
      Po.File.parse ⟨strict, some path⟩ .empty (p.read path).lines = .ok file →
      (p.read path).fault = some f → f.category ≠ .missing →
      Reports p locale strict path ⟨locale, path, .error, some (.fault f), []⟩ none
  | unreadable {e : Po.ReadError} :
      Po.File.parse ⟨strict, some path⟩ .empty (p.read path).lines = .error e →
      e ≠ .stopped .nestedTooDeep →
      Reports p locale strict path ⟨locale, path, .error, some (.content e), []⟩ none

theorem loadFile_of_givesUp (locale : Text) (h : GivesUp p strict path) :
    loadFile locale strict p path = .error .chainsTooDeep := by
  rw [GivesUp] at h
  simp only [loadFile, readDelivery, h, contentFailure]
  rfl

theorem loadFile_reports (locale : Text) (h : ¬GivesUp p strict path)
    (hcontained : ∀ f ∈ (p.read path).fault, f.isContained = true) :
    ∃ loaded, loadFile locale strict p path = .ok loaded ∧
      Reports p locale strict path loaded.1 loaded.2 := by
  unfold loadFile readDelivery
  cases hparse : Po.File.parse ⟨strict, some path⟩ .empty (p.read path).lines with
  | error e =>
      have he : e ≠ .stopped .nestedTooDeep := by
        rintro rfl
        exact h hparse
      simp only [contentFailure_eq he]
      exact ⟨_, rfl, .unreadable hparse he⟩
  | ok file =>
      cases hfault : (p.read path).fault with
      | none => exact ⟨_, rfl, .success hparse hfault⟩
      | some f =>
          simp only [hcontained f hfault, if_true]
          refine ⟨_, rfl, ?_⟩
          unfold failureStatus
          by_cases hmissing : f.category = .missing
          · simp only [if_pos hmissing]
            exact .notFound hparse hfault hmissing
          · simp only [if_neg hmissing]
            exact .faulty hparse hfault hmissing

theorem mapM_loadFile_reports (locale : Text) {paths : List Text}
    (h : ∀ path ∈ paths, ¬GivesUp p strict path)
    (hcontained : ∀ path ∈ paths, ∀ f ∈ (p.read path).fault, f.isContained = true) :
    ∃ loaded, paths.mapM (loadFile locale strict p) = .ok loaded ∧
      List.Forall₂ (fun path l => Reports p locale strict path l.1 l.2) paths loaded := by
  induction paths with
  | nil => exact ⟨[], rfl, .nil⟩
  | cons path paths ih =>
      obtain ⟨hpath, hpaths⟩ := List.forall_mem_cons.1 h
      obtain ⟨hfirst, hrest⟩ := List.forall_mem_cons.1 hcontained
      obtain ⟨first, hloaded, hreports⟩ := loadFile_reports locale hpath hfirst
      obtain ⟨rest, hothers, hall⟩ := ih hpaths hrest
      refine ⟨first :: rest, ?_, .cons hreports hall⟩
      rw [List.mapM_cons, hloaded, ok_bind, hothers]
      rfl

/-- The first path on which the machine gives up ends the load. -/
theorem mapM_loadFile_of_givesUp (locale : Text) {paths : List Text} {deep : Text}
    (hdeep : deep ∈ paths) (hgives : GivesUp p strict deep)
    (hcontained : ∀ path ∈ paths, ∀ f ∈ (p.read path).fault, f.isContained = true) :
    paths.mapM (loadFile locale strict p) = .error .chainsTooDeep := by
  induction paths with
  | nil => cases hdeep
  | cons path paths ih =>
      obtain ⟨hfirst, hrest⟩ := List.forall_mem_cons.1 hcontained
      rw [List.mapM_cons]
      by_cases hpath : GivesUp p strict path
      · rw [loadFile_of_givesUp locale hpath]
        rfl
      · have hothers : deep ∈ paths := by
          rcases List.mem_cons.1 hdeep with rfl | hothers
          · exact absurd hgives hpath
          · exact hothers
        obtain ⟨loaded, hloaded, -⟩ := loadFile_reports locale hpath hfirst
        rw [hloaded, ok_bind, ih hothers hrest]
        rfl

/-- The machine gives up on a line with a formula. -/
theorem GivesUp.exists_line (h : GivesUp p strict path) :
    ∃ content ∈ (p.read path).lines, ¬Po.ChainsFit (Text.trim content) := by
  rw [GivesUp, Po.File.parse, map_eq_error_iff] at h
  obtain ⟨content, hcontent, s, hstep⟩ := Po.Reading.exists_of_run_eq_stopped h
  refine ⟨content, hcontent, fun hfit => ?_⟩
  rcases Po.State.step_eq_error_iff.1 hstep with ⟨hkind, hformula⟩ | ⟨-, -, _, -, he⟩
  · rcases Plural.Formula.failure_of_ofHeader hformula with ⟨_, he, -⟩ | ⟨-, hdeep⟩
    · cases he
    · exact hfit (Po.LineKind.startsWith_formulaField hkind) hdeep
  · cases he

/-- What a load can do to the catalogs of a locale. -/
theorem load_cases (locale : LocaleTag) (p : Provider) (index : Index) (strict : Bool) :
    (candidatePaths locale index = [] ∧
      ∀ c : Catalog, c.locale = locale → c.load p index strict =
        ({ c with phase := .failed }, .error (.noCatalog (.noneDeclared locale.toText)))) ∨
    (∃ f, (candidatePaths locale index).mapM (loadFile locale.toText strict p) = .error f ∧
      ∀ c : Catalog, c.locale = locale → c.load p index strict =
        ({ c with phase := .loading }, .error (.fault f))) ∨
    ∃ loaded, loaded ≠ [] ∧
      (candidatePaths locale index).mapM (loadFile locale.toText strict p) = .ok loaded ∧
      ((loaded.filterMap Prod.snd = [] ∧
        ∀ c : Catalog, c.locale = locale → c.load p index strict =
          ({ c with phase := .failed, results := loaded.map Prod.fst },
            .error (.noCatalog (.noneLoaded locale.toText)))) ∨
      (loaded.filterMap Prod.snd ≠ [] ∧
        ∀ c : Catalog, c.locale = locale → c.load p index strict =
          ({ c with phase := .ready, files := loaded.filterMap Prod.snd,
                    results := loaded.map Prod.fst },
            .ok ⟨loaded.map Prod.fst⟩))) := by
  cases hpaths : candidatePaths locale index with
  | nil =>
      refine .inl ⟨rfl, ?_⟩
      rintro c rfl
      simp only [load, hpaths]
  | cons path paths =>
      refine .inr ?_
      cases hloaded : (path :: paths).mapM (loadFile locale.toText strict p) with
      | error f =>
          refine .inl ⟨f, rfl, ?_⟩
          rintro c rfl
          simp only [load, hpaths, hloaded]
      | ok loaded =>
          obtain ⟨first, rest, -, -, rfl⟩ := mapM_cons_eq_ok_iff.1 hloaded
          refine .inr ⟨first :: rest, List.cons_ne_nil _ _, rfl, ?_⟩
          cases hfiles : (first :: rest).filterMap Prod.snd with
          | nil =>
              refine .inl ⟨rfl, ?_⟩
              rintro c rfl
              simp only [load, hpaths, hloaded, hfiles]
          | cons file files =>
              refine .inr ⟨List.cons_ne_nil _ _, ?_⟩
              rintro c rfl
              simp only [load, hpaths, hloaded, hfiles]

/-- A load ends where the machine gives up. -/
theorem load_of_givesUp {tag : LocaleTag} {index : Index}
    (h : ∀ path ∈ candidatePaths tag index, ∀ f ∈ (p.read path).fault, f.isContained = true)
    (hpath : path ∈ candidatePaths tag index) (hgives : GivesUp p strict path) :
    (new tag).load p index strict =
      ({ new tag with phase := .loading }, .error (.fault .chainsTooDeep)) := by
  have hloaded := mapM_loadFile_of_givesUp tag.toText hpath hgives h
  rcases load_cases tag p index strict with ⟨hnone, -⟩ | ⟨f, hf, hload⟩ | ⟨loaded, -, hok, -⟩
  · rw [hnone] at hpath
    cases hpath
  · rw [hloaded] at hf
    cases hf
    exact hload (new tag) rfl
  · rw [hloaded] at hok
    cases hok

/-- A load of a new catalog, given what comes of its paths. -/
theorem load_new_eq {tag : LocaleTag} {index : Index}
    {loaded : List (LoadResult × Option Po.File)}
    (h : (candidatePaths tag index).mapM (loadFile tag.toText strict p) = .ok loaded) :
    let results := loaded.map Prod.fst
    let files := loaded.filterMap Prod.snd
    (new tag).load p index strict =
      ({ locale := tag
         phase := if files = [] then .failed else .ready
         files := files
         results := results },
        if files = [] then
          .error (.noCatalog (if loaded = [] then .noneDeclared tag.toText
            else .noneLoaded tag.toText))
        else .ok ⟨results⟩) := by
  intro results files
  rcases load_cases tag p index strict with
    ⟨hpaths, hload⟩ | ⟨f, hf, -⟩ | ⟨loaded', hne, hloaded', ⟨hfiles, hload⟩ | ⟨hfiles, hload⟩⟩
  · rw [hpaths] at h
    cases h
    exact hload (new tag) rfl
  · rw [h] at hf
    cases hf
  all_goals
    rw [h] at hloaded'
    cases hloaded'
    rw [hload (new tag) rfl]
    simp [files, results, hfiles, hne, new]

/-- A catalog is built from the files of its paths if all of them can be read. -/
theorem build_eq {tag : LocaleTag} {index : Index} {fileOf : Text → Po.File}
    (hne : candidatePaths tag index ≠ [])
    (h : ∀ path ∈ candidatePaths tag index,
      Po.File.parse ⟨strict, some path⟩ .empty (p.read path).lines = .ok (fileOf path) ∧
        (p.read path).fault = none) :
    ∃ c, build tag p index strict = .ok c ∧
      c.files = (candidatePaths tag index).map fileOf := by
  have hload : ∀ path ∈ candidatePaths tag index, loadFile tag.toText strict p path =
      .ok (⟨tag.toText, path, .success, none, (fileOf path).junk⟩, some (fileOf path)) := by
    intro path hpath
    obtain ⟨hparse, hfault⟩ := h path hpath
    simp only [loadFile, readDelivery, hparse, hfault]
  have hloaded := load_new_eq (mapM_eq_ok_map hload)
  have hfiles : ((candidatePaths tag index).map fun path =>
      (LoadResult.mk tag.toText path .success none (fileOf path).junk,
        some (fileOf path))).filterMap Prod.snd = (candidatePaths tag index).map fileOf := by
    rw [List.filterMap_map]
    exact congrFun List.filterMap_eq_map _
  have hsome : (candidatePaths tag index).map fileOf ≠ [] := by
    simpa using hne
  rw [build, hloaded]
  simp only [hfiles, if_neg hsome]
  exact ⟨_, rfl, rfl⟩

end Reports

section Lookups

/-- The first file with a template for the key fills it. -/
theorem single_eq [Machine] (c : Catalog) (key : Text) (args : List Argument) :
    c.single key args =
      match c.files.findSome? fun f => f.singles.values.get? key with
      | none => .ok .missingKey
      | some template => (fill template args).map (.found · none) := by
  rw [single]
  induction c.files with
  | nil => rfl
  | cons f files ih =>
      rw [List.find?_cons, List.findSome?_cons, SingleStore.has, Table.has]
      cases hget : f.singles.values.get? key with
      | none => exact ih
      | some template => simp [SingleStore.lookup, hget]

end Lookups

/-- A load whose provider fails in contained ways reports each of its candidates once and in order,
unless the machine gives up on the chains of a formula in one of them.  A file is there exactly for
the paths that succeeded, and it is what comes of the path alone.  The catalog is ready and gives a
summary if there is a file, and fails otherwise.  Where the machine gives up, the load ends without
any report. -/
theorem load_contained [Machine] (locale : LocaleTag) (p : Provider) (index : Index) (strict : Bool)
    (h : ∀ path ∈ candidatePaths locale index, ∀ f ∈ (p.read path).fault, f.isContained = true) :
    let paths := candidatePaths locale index
    let all := indexed index locale.toText ++ indexed index locale.language
    let done := (new locale).load p index strict
    (∀ path, path ∈ paths ↔ path ∈ all) ∧
      (paths.Pairwise fun path other => all.idxOf path < all.idxOf other) ∧
      ((∀ path ∈ paths, ¬GivesUp p strict path) →
        (∃ loaded : List (LoadResult × Option Po.File),
          List.Forall₂ (fun path l => Reports p locale.toText strict path l.1 l.2) paths loaded ∧
            done.1.results = loaded.map Prod.fst ∧ done.1.files = loaded.filterMap Prod.snd) ∧
        (done.1.files ≠ [] → done.1.phase = .ready ∧ done.2 = .ok ⟨done.1.results⟩) ∧
        (done.1.files = [] → done.1.phase = .failed ∧
          ∃ e, done.2 = .error (.noCatalog e) ∧ e.locale = locale.toText)) ∧
      ((∃ path ∈ paths, GivesUp p strict path) →
        done = ({ new locale with phase := .loading }, .error (.fault .chainsTooDeep))) ∧
      ∀ path, GivesUp p strict path →
        ∃ content ∈ (p.read path).lines, ¬Po.ChainsFit (Text.trim content) := by
  intro paths all done
  have hpaths : paths = all.eraseDups := candidatePaths_eq locale index
  refine ⟨fun path => ?_, ?_, fun hfit => ?_, ?_, fun path hpath => hpath.exists_line⟩
  · rw [hpaths, List.mem_eraseDups]
  · rw [hpaths]
    exact eraseDups_pairwise all
  · obtain ⟨loaded, hloaded, hreports⟩ := mapM_loadFile_reports locale.toText hfit h
    have hdone : done = _ := load_new_eq hloaded
    rw [hdone]
    refine ⟨⟨loaded, hreports, rfl, rfl⟩, fun hfiles => ?_, fun hfiles => ?_⟩
    · simp only [if_neg hfiles, and_self]
    · simp only [if_pos hfiles, true_and]
      split
      · exact ⟨_, rfl, rfl⟩
      · exact ⟨_, rfl, rfl⟩
  · rintro ⟨path, hpath, hgives⟩
    exact load_of_givesUp h hpath hgives

/-- A regional file that goes missing in the middle, one for the tag and its language, and one for
the language with a line that a strict reading refuses. -/
theorem load_contained_three :
    let p : Provider :=
      { description := "three files"
        list := fun _ => .ok []
        read := fun path =>
          if path = ['a'] then ⟨["msgid \"x\"".toList], some .missing⟩
          else if path = ['b'] then .complete [] else .complete ["nonsense".toList]
        reach := 0 }
    let tag : LocaleTag := ⟨"fr".toList, some (.code "FR".toList), by decide⟩
    let index : Index :=
      Table.ofList [("fr_FR".toList, [['a'], ['b']]), ("fr".toList, [['b'], ['c']])]
    let done := (new tag).load p index true
    (∀ path ∈ candidatePaths tag index, ∀ f ∈ (p.read path).fault, f.isContained = true) ∧
      (∀ path ∈ candidatePaths tag index, ¬GivesUp p true path) ∧
      done.1.results.map (fun r => (r.path, r.status)) =
        [(['a'], .notFound), (['b'], .success), (['c'], .error)] ∧
      done.1.phase = .ready ∧ done.2 = .ok ⟨done.1.results⟩ := by
  intro p tag index done
  have hcontained : ∀ path ∈ candidatePaths tag index, ∀ f ∈ (p.read path).fault,
      f.isContained = true := by
    intro path _ f hf
    simp only [p] at hf
    split at hf
    · cases hf
      rfl
    · split at hf <;> cases hf
  obtain ⟨-, -, hreports, -, hline⟩ := load_contained tag p index true hcontained
  have hfit : ∀ path ∈ candidatePaths tag index, ¬GivesUp p true path := by
    intro path _ hgives
    obtain ⟨content, hcontent, hdeep⟩ := hline path hgives
    have hflat : Text.startsWith (Text.trim content) Po.formulaField = false := by
      simp only [p] at hcontent
      split at hcontent
      · rw [List.mem_singleton.1 hcontent]
        rfl
      · split at hcontent
        · cases hcontent
        · rw [List.mem_singleton.1 hcontent]
          rfl
    exact hdeep fun hfield => absurd (hfield.symm.trans hflat) (by decide)
  have hfiles : done.1.files ≠ [] := List.cons_ne_nil _ _
  exact ⟨hcontained, hfit, rfl, (hreports hfit).2.1 hfiles⟩

/-- A file of one header line, whose formula has 700 chains one in the other.  Nothing fails that
the provider answers, and yet the load reports nothing. -/
theorem load_nestedLine :
    let p : Provider :=
      { description := "one file"
        list := fun _ => .ok []
        read := fun _ => .complete [Po.nestedLine 700]
        reach := 0 }
    let tag : LocaleTag := ⟨"en".toList, none, by decide⟩
    let index : Index := Table.ofList [("en".toList, [['a']])]
    let done := (new tag).load p index false
    (∀ path ∈ candidatePaths tag index, ∀ f ∈ (p.read path).fault, f.isContained = true) ∧
      candidatePaths tag index = [['a']] ∧
      done.1.results = [] ∧ done.1.phase = .loading ∧
      done.2 = .error (.fault .chainsTooDeep) := by
  have hgives : Po.File.parse ⟨false, some ['a']⟩ .empty [Po.nestedLine 700] =
      .error (.stopped .nestedTooDeep) :=
    Po.parse_nestedLine (by decide) _ _
  generalize Po.nestedLine 700 = line at hgives ⊢
  intro p tag index done
  have hcontained : ∀ path ∈ candidatePaths tag index, ∀ f ∈ (p.read path).fault,
      f.isContained = true := fun _ _ => nofun
  have hpaths : candidatePaths tag index = [['a']] := by decide
  have hpath : ['a'] ∈ candidatePaths tag index := hpaths ▸ List.mem_cons_self
  have hload : done = _ := load_of_givesUp hcontained hpath hgives
  rw [hload]
  exact ⟨hcontained, hpaths, rfl, rfl, rfl⟩

end Catalog
end Phrasebook
