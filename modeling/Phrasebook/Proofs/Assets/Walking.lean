import Mathlib.Data.List.Chain
import Mathlib.Data.List.Flatten
import Mathlib.Logic.Relation
import Mathlib.Tactic.Choose
import Phrasebook.Assets.Discovery
import Phrasebook.Proofs.Outcome

/-!
# Walks through folders

The search for candidates, without a bound on how deep it may go and within one.

**Walks.**  `Discovery.Collects` has one case for each way in which the search answers for a path.
It relates a root to its candidates exactly if finitely many nested calls lead to them.
**Entering.**  `Provider.Enters` leads from a folder to the paths of its entries.  A search that
answers cannot enter folders for ever (`Collects.acc`).
**Fuel.**  A search with fuel finds what the walk collects (`collects_of_candidatesWithin`), and it
has enough fuel if every folder that it enters has one unit less to go (`exists_candidatesWithin`).
**Reach.**  The search gives what the walk collects, if it stays within the reach of the provider
(`candidates_eq_ok_iff`): the files with the suffix that are come to (`Collects.mem_iff`).  Beyond
that it goes too deep (`candidates_eq_error`).
**Faults.**  Further faults in listings and readings take candidates away and change nothing else
(`Collects.of_addsFaultsTo`).
-/

namespace Phrasebook

/-- Is the second path that of an entry of the first one? -/
def Provider.Enters (p : Provider) (folder path : Text) : Prop :=
  ∃ names, p.list folder = .ok names ∧ ∃ name ∈ names, path = Discovery.childPath folder name

/-- Is every chain of folders from the root, each an entry of the one before, within reach? -/
def Provider.Spans (p : Provider) (root : Text) : Prop :=
  ∀ chain, (root :: chain).IsChain p.Enters → chain.length ≤ p.reach

/-- Does a provider answer as another one does, but for further faults that concern one path
each? -/
structure Provider.AddsFaultsTo (q p : Provider) : Prop where
  list : ∀ path, q.list path = p.list path ∨ ∃ f, q.list path = .error f ∧ f.isContained = true
  read : ∀ path, q.read path = p.read path ∨
    ∃ f, (q.read path).fault = some f ∧ f.isContained = true
  reach : p.reach ≤ q.reach

namespace Discovery

/-- The candidates below a path, as the listings have them. -/
inductive Collects (p : Provider) (suffix : Text) : Text → List Text → Prop
  | skipped {path : Text} {f : Fault} (hlist : p.list path = .error f)
      (hcontained : f.isContained = true) : Collects p suffix path []
  | file {path : Text} (hlist : p.list path = .ok []) :
      Collects p suffix path (if path.endsWith suffix then [path] else [])
  | folder {path : Text} {names : List Text} {found : Text → List Text}
      (hlist : p.list path = .ok names) (hne : names ≠ [])
      (hfound : ∀ name ∈ names, Collects p suffix (childPath path name) (found name)) :
      Collects p suffix path (names.flatMap found)

variable {p : Provider} {suffix path : Text} {paths : List Text} {fuel : Nat}

/-- What a search with fuel finds, the walk collects. -/
theorem collects_of_candidatesWithin (h : candidatesWithin p suffix fuel path = .ok paths) :
    Collects p suffix path paths := by
  induction fuel generalizing path paths with
  | zero => cases h
  | succ fuel ih =>
      rw [candidatesWithin] at h
      split at h
      next f hlist =>
        split at h
        next hcontained =>
          cases h
          exact .skipped hlist hcontained
        next => cases h
      next hlist =>
        cases h
        exact .file hlist
      next name names hlist =>
        obtain ⟨found, hfound, rfl⟩ := map_eq_ok_iff.1 h
        obtain ⟨answer, hanswer, rfl⟩ := exists_of_mapM_eq_ok hfound
        rw [← List.flatMap_def]
        exact .folder hlist (List.cons_ne_nil name names) fun name hname =>
          ih (hanswer name hname)

/-- A search fails with a fault that a listing does not contain, or because it goes too deep. -/
theorem eq_of_candidatesWithin_eq_error {f : Fault}
    (h : candidatesWithin p suffix fuel path = .error f) :
    f = .foldersTooDeep ∨ ∃ folder, p.list folder = .error f ∧ f.isContained = false := by
  induction fuel generalizing path with
  | zero =>
      cases h
      exact .inl rfl
  | succ fuel ih =>
      rw [candidatesWithin] at h
      split at h
      next f' hlist =>
        split at h
        next => cases h
        next hcontained =>
          cases h
          exact .inr ⟨path, hlist, Bool.eq_false_iff.2 hcontained⟩
      next => cases h
      next name names hlist =>
        obtain ⟨entry, -, hentry⟩ := exists_of_mapM_eq_error (map_eq_error_iff.1 h)
        exact ih hentry

/-- A walk has one outcome. -/
theorem Collects.unique {others : List Text} (h : Collects p suffix path paths)
    (hother : Collects p suffix path others) : paths = others := by
  induction h generalizing others with
  | skipped hlist _ =>
      cases hother with
      | skipped => rfl
      | file hlist' => simp [hlist] at hlist'
      | folder hlist' => simp [hlist] at hlist'
  | file hlist =>
      cases hother with
      | skipped hlist' => simp [hlist] at hlist'
      | file => rfl
      | folder hlist' hne =>
          rw [hlist] at hlist'
          exact absurd (Except.ok.inj hlist').symm hne
  | @folder path names found hlist hne _ ih =>
      cases hother with
      | skipped hlist' => simp [hlist] at hlist'
      | file hlist' =>
          rw [hlist] at hlist'
          exact absurd (Except.ok.inj hlist') hne
      | @folder _ names' found' hlist' _ hfound' =>
          rw [hlist] at hlist'
          obtain rfl := Except.ok.inj hlist'
          rw [List.flatMap_def, List.flatMap_def]
          refine congrArg List.flatten (List.map_congr_left fun name hname => ?_)
          exact ih name hname (hfound' name hname)

/-- A search with fuel answers if what it enters has always one unit of fuel less to go, and no
listing on the way has a fault that ends the search. -/
theorem exists_candidatesWithin {Goes : Nat → Text → Prop} (hzero : ∀ path, ¬Goes 0 path)
    (henters : ∀ {fuel folder path}, Goes (fuel + 1) folder → p.Enters folder path →
      Goes fuel path)
    (hlists : ∀ {fuel path f}, Goes fuel path → p.list path = .error f → f.isContained = true)
    (suffix : Text) (h : Goes fuel path) :
    ∃ paths, candidatesWithin p suffix fuel path = .ok paths := by
  induction fuel generalizing path with
  | zero => exact absurd h (hzero path)
  | succ fuel ih =>
      rw [candidatesWithin]
      cases hlist : p.list path with
      | error f => exact ⟨[], by simp only [hlists h hlist, if_true]⟩
      | ok names =>
          have hsub : ∀ name ∈ names, ∃ paths,
              candidatesWithin p suffix fuel (childPath path name) = .ok paths :=
            fun name hname => ih (henters h ⟨names, hlist, name, hname, rfl⟩)
          choose! found hfound using hsub
          cases names with
          | nil => exact ⟨_, rfl⟩
          | cons name names =>
              dsimp only
              rw [mapM_eq_ok_map hfound]
              exact ⟨_, rfl⟩

section Entering

variable {folder root : Text} {names : List Text}

theorem enters_iff_of_list (hlist : p.list folder = .ok names) :
    p.Enters folder path ↔ ∃ name ∈ names, path = childPath folder name := by
  simp [Provider.Enters, hlist]

theorem not_enters_file (hlist : p.list folder = .ok []) : ¬p.Enters folder path := by
  simp [enters_iff_of_list hlist]

theorem not_enters_skipped {f : Fault} (hlist : p.list folder = .error f) :
    ¬p.Enters folder path := by
  simp [Provider.Enters, hlist]

/-- A walk that collects answers for every entry. -/
theorem Collects.enters (h : Collects p suffix folder paths) (henters : p.Enters folder path) :
    ∃ others, Collects p suffix path others := by
  cases h with
  | skipped hlist => exact absurd henters (not_enters_skipped hlist)
  | file hlist => exact absurd henters (not_enters_file hlist)
  | folder hlist _ hfound =>
      obtain ⟨name, hname, rfl⟩ := (enters_iff_of_list hlist).1 henters
      exact ⟨_, hfound name hname⟩

theorem Collects.visits (h : Collects p suffix root paths)
    (hvisits : Relation.ReflTransGen p.Enters root path) :
    ∃ others, Collects p suffix path others := by
  induction hvisits with
  | refl => exact ⟨paths, h⟩
  | tail _ henters ih =>
      obtain ⟨others, hothers⟩ := ih
      exact hothers.enters henters

/-- No listing of a walk that collects has a fault that ends the search. -/
theorem Collects.isContained (h : Collects p suffix path paths) {f : Fault}
    (hlist : p.list path = .error f) : f.isContained = true := by
  cases h with
  | skipped hlist' hcontained =>
      rw [hlist] at hlist'
      exact Except.error.inj hlist' ▸ hcontained
  | file hlist' => simp [hlist] at hlist'
  | folder hlist' => simp [hlist] at hlist'

/-- A walk that collects cannot enter folders for ever. -/
theorem Collects.acc (h : Collects p suffix path paths) :
    Acc (fun path folder => p.Enters folder path) path := by
  induction h with
  | skipped hlist => exact ⟨_, fun path henters => absurd henters (not_enters_skipped hlist)⟩
  | file hlist => exact ⟨_, fun path henters => absurd henters (not_enters_file hlist)⟩
  | folder hlist _ _ ih =>
      refine ⟨_, fun path henters => ?_⟩
      obtain ⟨name, hname, rfl⟩ := (enters_iff_of_list hlist).1 henters
      exact ih name hname

/-- Whatever holds of the root and of every entry of what it holds of, holds of the candidates. -/
theorem Collects.forall_mem {Visited : Text → Prop}
    (henters : ∀ folder path, Visited folder → p.Enters folder path → Visited path)
    (h : Collects p suffix root paths) (hroot : Visited root) : ∀ path ∈ paths, Visited path := by
  induction h with
  | skipped => exact fun path hpath => nomatch hpath
  | file =>
      intro path hpath
      split at hpath
      · exact List.mem_singleton.1 hpath ▸ hroot
      · cases hpath
  | folder hlist _ _ ih =>
      intro path hpath
      obtain ⟨name, hname, hmem⟩ := List.mem_flatMap.1 hpath
      exact ih name hname (henters _ _ hroot ⟨_, hlist, name, hname, rfl⟩) path hmem

/-- Two providers that list alike what a search comes to give one outcome. -/
theorem candidatesWithin_congr {q : Provider} {Visited : Text → Prop}
    (hlist : ∀ path, Visited path → q.list path = p.list path)
    (henters : ∀ folder path, Visited folder → p.Enters folder path → Visited path)
    (hvisited : Visited path) :
    candidatesWithin q suffix fuel path = candidatesWithin p suffix fuel path := by
  induction fuel generalizing path with
  | zero => rfl
  | succ fuel ih =>
      rw [candidatesWithin, candidatesWithin, hlist path hvisited]
      cases hnames : p.list path with
      | error f => rfl
      | ok names =>
          cases names with
          | nil => rfl
          | cons name names =>
              have hsame : ∀ entry ∈ name :: names,
                  candidatesWithin q suffix fuel (childPath path entry) =
                    candidatesWithin p suffix fuel (childPath path entry) :=
                fun entry hentry => ih (henters _ _ hvisited ⟨_, hnames, entry, hentry, rfl⟩)
              dsimp only
              rw [mapM_congr hsame]

end Entering

section Reach

open Relation (ReflTransGen)

variable {q : Provider} {folder root : Text}

/-- A search that answers has fuel for every folder on the way. -/
theorem length_lt_of_candidatesWithin (h : candidatesWithin p suffix fuel path = .ok paths)
    {chain : List Text} (hchain : (path :: chain).IsChain p.Enters) : chain.length < fuel := by
  induction fuel generalizing path paths chain with
  | zero => cases h
  | succ fuel ih =>
      cases chain with
      | nil => exact Nat.succ_pos fuel
      | cons next chain =>
          obtain ⟨⟨names, hlist, name, hname, rfl⟩, hchain⟩ := List.isChain_cons_cons.1 hchain
          rw [candidatesWithin, hlist] at h
          cases names with
          | nil => cases hname
          | cons first others =>
              obtain ⟨found, hfound, -⟩ := map_eq_ok_iff.1 h
              obtain ⟨answer, hanswer, -⟩ := exists_of_mapM_eq_ok hfound
              exact Nat.succ_lt_succ (ih (hanswer name hname) hchain)

/-- A search within reach answers, if no listing on the way has a fault that ends the search. -/
theorem exists_candidates_of_spans (h : p.Spans root)
    (hlists : ∀ path f, ReflTransGen p.Enters root path → p.list path = .error f →
      f.isContained = true) (suffix : Text) :
    ∃ paths, candidates p root suffix = .ok paths := by
  let Goes (fuel : Nat) (path : Text) : Prop :=
    ReflTransGen p.Enters root path ∧
      ∀ chain, (path :: chain).IsChain p.Enters → chain.length < fuel
  have hzero : ∀ path, ¬Goes 0 path :=
    fun path hgoes => absurd (hgoes.2 [] (.singleton path)) (Nat.not_lt_zero _)
  have henters : ∀ {fuel folder path}, Goes (fuel + 1) folder → p.Enters folder path →
      Goes fuel path := by
    intro fuel folder path hgoes henters
    refine ⟨hgoes.1.tail henters, fun chain hchain => ?_⟩
    have hlength := hgoes.2 (path :: chain) (List.isChain_cons_cons.2 ⟨henters, hchain⟩)
    exact Nat.lt_of_succ_lt_succ hlength
  exact exists_candidatesWithin hzero henters (fun hgoes => hlists _ _ hgoes.1) suffix
    ⟨.refl, fun chain hchain => Nat.lt_succ_of_le (h chain hchain)⟩

/-- Within reach the search gives what the walk collects. -/
theorem Collects.candidates_eq (h : Collects p suffix root paths) (hspans : p.Spans root) :
    candidates p root suffix = .ok paths := by
  have hlists : ∀ path f, ReflTransGen p.Enters root path → p.list path = .error f →
      f.isContained = true := by
    intro path f hvisited hlist
    obtain ⟨others, hothers⟩ := h.visits hvisited
    exact hothers.isContained hlist
  obtain ⟨others, hothers⟩ := exists_candidates_of_spans hspans hlists suffix
  rw [hothers, (collects_of_candidatesWithin hothers).unique h]

/-- The search gives exactly what the walk collects within reach. -/
theorem candidates_eq_ok_iff :
    candidates p root suffix = .ok paths ↔ Collects p suffix root paths ∧ p.Spans root :=
  ⟨fun h => ⟨collects_of_candidatesWithin h, fun _ hchain =>
      Nat.lt_succ_iff.1 (length_lt_of_candidatesWithin h hchain)⟩,
    fun h => h.1.candidates_eq h.2⟩

/-- If no fault of a listing ends it, a search fails only because it goes too deep. -/
theorem eq_of_candidates_eq_error {f : Fault}
    (hlists : ∀ path f, p.list path = .error f → f.isContained = true)
    (h : candidates p root suffix = .error f) : f = .foldersTooDeep := by
  rcases eq_of_candidatesWithin_eq_error h with rfl | ⟨folder, hlist, hfault⟩
  · rfl
  · exact absurd (hlists folder f hlist) (Bool.eq_false_iff.1 hfault)

theorem candidates_eq_error (hlists : ∀ path f, p.list path = .error f → f.isContained = true)
    (h : ¬∃ paths, candidates p root suffix = .ok paths) :
    candidates p root suffix = .error .foldersTooDeep := by
  cases hcandidates : candidates p root suffix with
  | ok paths => exact absurd ⟨paths, hcandidates⟩ h
  | error f => rw [eq_of_candidates_eq_error hlists hcandidates]

/-- The candidates are the files with the suffix that the walk comes to. -/
theorem Collects.mem_iff (h : Collects p suffix root paths) :
    path ∈ paths ↔ ReflTransGen p.Enters root path ∧ p.list path = .ok [] ∧
      path.endsWith suffix = true := by
  constructor
  · intro hpath
    have hvisited : ReflTransGen p.Enters root path :=
      h.forall_mem (fun _ _ hvisited henters => hvisited.tail henters) .refl path hpath
    refine ⟨hvisited, ?_⟩
    clear hvisited
    induction h with
    | skipped => cases hpath
    | file hlist =>
        split at hpath
        next hsuffix => exact List.mem_singleton.1 hpath ▸ ⟨hlist, hsuffix⟩
        next => cases hpath
    | folder _ _ _ ih =>
        obtain ⟨name, hname, hmem⟩ := List.mem_flatMap.1 hpath
        exact ih name hname hmem
  · rintro ⟨hvisited, hlist, hsuffix⟩
    induction h with
    | skipped hfault =>
        rcases hvisited.cases_head with rfl | ⟨next, henters, -⟩
        · simp [hfault] at hlist
        · exact absurd henters (not_enters_skipped hfault)
    | file hfile =>
        rcases hvisited.cases_head with rfl | ⟨next, henters, -⟩
        · simp [hsuffix]
        · exact absurd henters (not_enters_file hfile)
    | folder hfolder hne _ ih =>
        rcases hvisited.cases_head with rfl | ⟨next, henters, hrest⟩
        · rw [hfolder] at hlist
          exact absurd (Except.ok.inj hlist) hne
        · obtain ⟨name, hname, rfl⟩ := (enters_iff_of_list hfolder).1 henters
          exact List.mem_flatMap.2 ⟨name, hname, ih name hname hrest⟩

end Reach

section Faults

open Relation (ReflTransGen)

variable {q : Provider} {folder root : Text}

theorem enters_of_addsFaultsTo (h : q.AddsFaultsTo p) (henters : q.Enters folder path) :
    p.Enters folder path := by
  rcases h.list folder with hsame | ⟨f, hfault, -⟩
  · obtain ⟨names, hlist, hname⟩ := henters
    exact ⟨names, hsame.symm.trans hlist, hname⟩
  · exact absurd henters (not_enters_skipped hfault)

theorem spans_of_addsFaultsTo (h : q.AddsFaultsTo p) (hspans : p.Spans root) : q.Spans root :=
  fun chain hchain =>
    (hspans chain (hchain.imp fun _ _ => enters_of_addsFaultsTo h)).trans h.reach

/-- Further faults take candidates away and change nothing else. -/
theorem Collects.of_addsFaultsTo (h : q.AddsFaultsTo p) (hcollects : Collects p suffix path paths) :
    ∃ others, Collects q suffix path others ∧ others.Sublist paths := by
  induction hcollects with
  | @skipped path f hlist hcontained =>
      refine ⟨[], ?_, List.Sublist.refl []⟩
      rcases h.list path with hsame | ⟨f', hfault, hcontained'⟩
      · exact .skipped (hsame.trans hlist) hcontained
      · exact .skipped hfault hcontained'
  | @file path hlist =>
      rcases h.list path with hsame | ⟨f, hfault, hcontained⟩
      · exact ⟨_, .file (hsame.trans hlist), List.Sublist.refl _⟩
      · exact ⟨[], .skipped hfault hcontained, List.nil_sublist _⟩
  | @folder path names found hlist hne _ ih =>
      rcases h.list path with hsame | ⟨f, hfault, hcontained⟩
      · choose! others hothers hsub using ih
        exact ⟨_, .folder (hsame.trans hlist) hne hothers, List.Sublist.flatMap_right names hsub⟩
      · exact ⟨[], .skipped hfault hcontained, List.nil_sublist _⟩

end Faults

end Discovery
end Phrasebook
