import Phrasebook.Proofs.Catalog.Loading
import Phrasebook.Proofs.Resolver.History

/-!
# Failed selections

A selection that fails changes no answer of its resolver, whatever the provider does meanwhile.

**Courses.**  A provider may answer a call in another way than an earlier one, and may fail at
any of them.  A `Course` has its answers call by call; discovery counts the calls.  A load reads
each of its paths once, so the answers that it meets are those of one provider.
**Circumstances.**  A selection meets three courses: one in its discovery, and one in each of
its two loads, whose calls may come in any order among each other.
**Results.**
* `discoverAlong_steady`, `selectAmid_steady`: with a provider that keeps to its answers, these
  are the discovery and the selection.
* `outcome_loadFilesAlong`: a load call by call is a load with the answers gathered.
* `select_atomic`: a selection that fails leaves the installed one as it is.
-/

namespace Phrasebook

/-- A provider call by call: the answers to the call that has so many others before it. -/
abbrev Course := Nat → Provider

/-- A computation that counts its calls to a provider. -/
abbrev Asking := StateT Nat (Except Fault)

namespace Asking

variable {α β : Type}

/-- The outcome of a computation, from its first call on. -/
def outcome (x : Asking α) : Except Fault α :=
  (x.run 0).map Prod.fst

/-- Does a computation have the outcome, whatever calls came before? -/
def Gives (x : Asking α) (y : Except Fault α) : Prop :=
  ∀ calls, (x.run calls).map Prod.fst = y

theorem gives_pure (a : α) : Gives (pure a) (.ok a) := fun _ => rfl

theorem gives_throw (f : Fault) : Gives (throw f : Asking α) (.error f) := fun _ => rfl

theorem Gives.bind {x : Asking α} {y : Except Fault α} {f : α → Asking β}
    {g : α → Except Fault β} (hx : Gives x y) (hf : ∀ a, Gives (f a) (g a)) :
    Gives (x >>= f) (y >>= g) := by
  intro calls
  rw [StateT.run_bind, ← hx calls]
  cases x.run calls with
  | error e => rfl
  | ok a => exact hf a.1 a.2

theorem gives_mapM {f : α → Asking β} {g : α → Except Fault β} (h : ∀ a, Gives (f a) (g a))
    (as : List α) : Gives (as.mapM f) (as.mapM g) := by
  induction as with
  | nil => exact gives_pure []
  | cons a as ih =>
      rw [List.mapM_cons, List.mapM_cons]
      exact (h a).bind fun b => ih.bind fun bs => gives_pure (b :: bs)

end Asking

namespace Course

/-- The course of a provider that keeps to its answers. -/
def steady (p : Provider) : Course :=
  fun _ => p

/-- The answers to the next call. -/
def next (c : Course) : Asking Provider :=
  fun calls => .ok (c calls, calls + 1)

/-- A provider that answers the readings of the paths as the course does in this order. -/
def gathered (c : Course) (paths : List Text) : Provider :=
  { c 0 with read := fun path => (c (paths.idxOf path)).read path }

theorem gives_next_bind {α : Type} {p : Provider} {f : Provider → Asking α} {y : Except Fault α}
    (h : (f p).Gives y) : ((steady p).next >>= f).Gives y :=
  fun calls => h (calls + 1)

end Course

namespace Discovery

/-- The candidates below a path, call by call. -/
def candidatesAlong (c : Course) (suffix : Text) : Nat → Text → Asking (List Text)
  | 0, _ => throw .foldersTooDeep
  | fuel + 1, path => do
      match (← c.next).list path with
      | .error f => if f.isContained then pure [] else throw f
      | .ok [] => pure (if path.endsWith suffix then [path] else [])
      | .ok (entry :: entries) =>
          let found ← (entry :: entries).mapM
            (fun e => candidatesAlong c suffix fuel (childPath path e))
          pure found.flatten

/-- The index of further paths, call by call. -/
def indexAlong (c : Course) : List Text → Index → Asking Index
  | [], index => pure index
  | path :: paths, index => do
      match declaredTag ((← c.next).read path) with
      | .error f => throw f
      | .ok none => indexAlong c paths index
      | .ok (some tag) => indexAlong c paths (addPath index tag path)

/-- The index of the files below a folder, through less than `depth` folders, call by call. -/
def discoverAlong (c : Course) (depth : Nat) (root suffix : Text) : Asking Index := do
  let paths ← candidatesAlong c suffix depth root
  indexAlong c paths Table.empty

section Steady

variable (p : Provider)

theorem candidatesAlong_steady (suffix : Text) (fuel : Nat) (path : Text) :
    (candidatesAlong (.steady p) suffix fuel path).Gives
      (candidatesWithin p suffix fuel path) := by
  induction fuel generalizing path with
  | zero => exact Asking.gives_throw _
  | succ fuel ih =>
      refine Course.gives_next_bind ?_
      rw [candidatesWithin]
      match p.list path with
      | .error f =>
          by_cases h : f.isContained
          · simp only [if_pos h]
            exact Asking.gives_pure []
          · simp only [if_neg h]
            exact Asking.gives_throw f
      | .ok [] => exact Asking.gives_pure _
      | .ok (entry :: entries) =>
          exact (Asking.gives_mapM (fun e => ih (childPath path e)) (entry :: entries)).bind
            fun found => Asking.gives_pure found.flatten

theorem indexAlong_steady (paths : List Text) (index : Index) :
    (indexAlong (.steady p) paths index).Gives (indexPaths p paths index) := by
  induction paths generalizing index with
  | nil => exact Asking.gives_pure index
  | cons path paths ih =>
      refine Course.gives_next_bind ?_
      rw [indexPaths]
      match declaredTag (p.read path) with
      | .error f => exact Asking.gives_throw f
      | .ok none => exact ih index
      | .ok (some tag) => exact ih (addPath index tag path)

/-- With a provider that keeps to its answers, discovery call by call is discovery. -/
theorem discoverAlong_steady (root suffix : Text) :
    (discoverAlong (.steady p) (p.reach + 1) root suffix).Gives (discover p root suffix) :=
  (candidatesAlong_steady p suffix (p.reach + 1) root).bind
    fun paths => indexAlong_steady p paths Table.empty

end Steady
end Discovery

namespace Catalog

/-- The files of a load, call by call. -/
def loadFilesAlong [Machine] (c : Course) (locale : Text) (strict : Bool) (paths : List Text) :
    Asking (List (LoadResult × Option Po.File)) :=
  paths.mapM fun path => do
    let p ← c.next
    loadFile locale strict p path

/-- What the next calls give is what one provider gives that answers as they do. -/
theorem run_loadFilesAlong_of_read [Machine] {c : Course} {p : Provider} (locale : Text)
    (strict : Bool) (paths : List Text) (calls : Nat)
    (h : ∀ i (hi : i < paths.length), (c (calls + i)).read paths[i] = p.read paths[i]) :
    ((loadFilesAlong c locale strict paths).run calls).map Prod.fst =
      paths.mapM (loadFile locale strict p) := by
  induction paths generalizing calls with
  | nil => rfl
  | cons path paths ih =>
      have hread : loadFile locale strict (c calls) path = loadFile locale strict p path := by
        have hpath : (c calls).read path = p.read path := h 0 (Nat.zero_lt_succ _)
        rw [loadFile, loadFile, hpath]
      have hrest := ih (calls + 1) fun i hi => by
        have := h (i + 1) (Nat.succ_lt_succ hi)
        rwa [List.getElem_cons_succ, Nat.add_comm i 1, ← Nat.add_assoc] at this
      rw [loadFilesAlong, List.mapM_cons, List.mapM_cons, ← hread, ← hrest, StateT.run_bind]
      have hstep : StateT.run (do let p ← c.next; loadFile locale strict p path) calls =
          (loadFile locale strict (c calls) path).map (fun loaded => (loaded, calls + 1)) := by
        change StateT.run (liftM (loadFile locale strict (c calls) path) : Asking _) (calls + 1) = _
        cases loadFile locale strict (c calls) path <;> rfl
      rw [hstep]
      cases loadFile locale strict (c calls) path with
      | error f => rfl
      | ok loaded =>
          change Except.map Prod.fst (StateT.run (do
            let rest ← loadFilesAlong c locale strict paths
            pure (loaded :: rest)) (calls + 1)) = _
          rw [StateT.run_bind]
          cases (loadFilesAlong c locale strict paths).run (calls + 1) <;> rfl

/-- A load call by call is a load with the answers gathered. -/
theorem outcome_loadFilesAlong [Machine] (c : Course) (locale : LocaleTag) (strict : Bool)
    (index : Index) :
    let paths := candidatePaths locale index
    (loadFilesAlong c locale.toText strict paths).outcome =
      paths.mapM (loadFile locale.toText strict (c.gathered paths)) := by
  intro paths
  refine run_loadFilesAlong_of_read locale.toText strict paths 0 fun i hi => ?_
  rw [Nat.zero_add]
  change _ = (c (paths.idxOf paths[i])).read paths[i]
  rw [(candidatePaths_nodup locale index).idxOf_getElem i hi]

end Catalog

/-- What a selection meets: the answers to its discovery, through how many folders that goes at
most, and the answers to its two loads. -/
structure Circumstances where
  discovery : Course
  depth : Nat
  active : Course
  fallback : Course

/-- The circumstances with a provider that keeps to its answers. -/
def Circumstances.steady (p : Provider) : Circumstances where
  discovery := .steady p
  depth := p.reach + 1
  active := .steady p
  fallback := .steady p

namespace Resolver

section Selecting

/-- The index to select with, in circumstances. -/
def indexAmid (r : Resolver) (w : Circumstances) (rescan : Bool) : Except Fault Index :=
  match r.index, rescan with
  | some index, false => .ok index
  | _, _ => (Discovery.discoverAlong w.discovery w.depth r.config.root r.config.suffix).outcome

variable [Machine]

/-- A new catalog behind its first load along a course, and why the load gave none. -/
def loadCatalogAlong (config : Config) (c : Course) (index : Index) (tag : LocaleTag) :
    Except Fault (Catalog × Option CatalogError) :=
  loadCatalog config (c.gathered (Catalog.candidatePaths tag index)) index tag

/-- The selection of two loaded tags, in circumstances. -/
def selectionAmid (config : Config) (w : Circumstances) (index : Index)
    (tag fallback : LocaleTag) (sendsKey : Bool) : Except SelectError Selection := do
  let active ← (loadCatalogAlong config w.active index tag).mapError .fault
  let other ← (loadCatalogAlong config w.fallback index fallback).mapError .fault
  match active.2, other.2 with
  | some e, some f => throw (.noCatalogs e f)
  | _, _ =>
      pure
        { active := active.1
          fallback := other.1
          sendsKey := sendsKey
          summary := ⟨active.1.results⟩ ++ ⟨other.1.results⟩ }

/-- Loads the two tags and installs them, in circumstances. -/
def installAmid (r : Resolver) (w : Circumstances) (tag fallback : LocaleTag)
    (sendsKey rescan : Bool) : Resolver × Except SelectError Summary :=
  match r.indexAmid w rescan with
  | .error f => (r, .error (.fault f))
  | .ok index =>
      match selectionAmid r.config w index tag fallback sendsKey with
      | .error e => ({ r with index := some index }, .error e)
      | .ok s => ({ r with index := some index, selection := some s }, .ok s.summary)

/-- Selects what a request asks for, in circumstances. -/
def selectAmid (r : Resolver) (w : Circumstances) (env : Environment Fault) (q : Request) :
    Resolver × Except SelectError Summary :=
  match requestedTag env q with
  | .error e => (r, .error e)
  | .ok tag =>
      match fallbackTag r.config q with
      | .error e => (r, .error e)
      | .ok fallback =>
          match r.summaryIfActive tag with
          | some summary => (r, .ok summary)
          | none =>
              r.installAmid w tag fallback (q.sendsKey.getD r.config.sendsKey) q.rescan

end Selecting

section Steady

variable (r : Resolver) (p : Provider)

theorem indexAmid_steady (rescan : Bool) :
    r.indexAmid (.steady p) rescan = r.currentIndex p rescan := by
  have hdiscover : (Discovery.discoverAlong (.steady p) (p.reach + 1) r.config.root
      r.config.suffix).outcome = Discovery.discover p r.config.root r.config.suffix :=
    Discovery.discoverAlong_steady p r.config.root r.config.suffix 0
  unfold indexAmid currentIndex
  cases r.index with
  | none => exact hdiscover
  | some index => cases rescan with
    | false => rfl
    | true => exact hdiscover

variable [Machine]

theorem installAmid_steady (tag fallback : LocaleTag) (sendsKey rescan : Bool) :
    r.installAmid (.steady p) tag fallback sendsKey rescan =
      r.install p tag fallback sendsKey rescan := by
  rw [installAmid, install, indexAmid_steady]
  rfl

/-- With a provider that keeps to its answers, this is the selection. -/
theorem selectAmid_steady (env : Environment Fault) (q : Request) :
    r.selectAmid (.steady p) env q = r.select p env q := by
  unfold selectAmid select
  cases requestedTag env q with
  | error e => rfl
  | ok tag =>
      simp only
      cases fallbackTag r.config q with
      | error e => rfl
      | ok fallback =>
          simp only
          cases r.summaryIfActive tag with
          | some summary => rfl
          | none => exact installAmid_steady r p tag fallback _ q.rescan

end Steady

section Atomicity

variable [Machine] {r : Resolver} {w : Circumstances}

/-- Loading two tags keeps the installed selection or puts another one in its place, and then
tells what came of its files. -/
theorem installAmid_cases (tag fallback : LocaleTag) (sendsKey rescan : Bool) :
    let done := r.installAmid w tag fallback sendsKey rescan
    done.1.selection = r.selection ∨
      ∃ s, done.2 = .ok s.summary ∧ done.1.selection = some s := by
  unfold installAmid
  cases r.indexAmid w rescan with
  | error f => exact .inl rfl
  | ok index =>
      simp only
      cases selectionAmid r.config w index tag fallback sendsKey with
      | error e => exact .inl rfl
      | ok s => exact .inr ⟨s, rfl, rfl⟩

theorem selectAmid_cases (env : Environment Fault) (q : Request) :
    let done := r.selectAmid w env q
    done.1.selection = r.selection ∨
      ∃ s, done.2 = .ok s.summary ∧ done.1.selection = some s := by
  unfold selectAmid
  cases requestedTag env q with
  | error e => exact .inl rfl
  | ok tag =>
      simp only
      cases fallbackTag r.config q with
      | error e => exact .inl rfl
      | ok fallback =>
          simp only
          cases r.summaryIfActive tag with
          | some summary => exact .inl rfl
          | none => exact installAmid_cases tag fallback _ q.rescan

end Atomicity

/-- A selection that fails, for whatever reason and amid whatever answers of the provider,
leaves the installed selection, and so every answer that comes from it. -/
theorem select_atomic [Machine] (r : Resolver) (env : Environment Fault) (q : Request) :
    (∀ p, r.selectAmid (.steady p) env q = r.select p env q) ∧
      ∀ w e, (r.selectAmid w env q).2 = .error e →
        (r.selectAmid w env q).1.selection = r.selection ∧
          AnswersAlike (r.selectAmid w env q).1 r := by
  refine ⟨fun p => selectAmid_steady r p env q, fun w e h => ?_⟩
  have hselection : (r.selectAmid w env q).1.selection = r.selection := by
    rcases selectAmid_cases (w := w) env q with hkept | ⟨s, hs, _⟩
    · exact hkept
    · rw [hs] at h
      cases h
  exact ⟨hselection, answersAlike_of_selection hselection⟩

/-- A file that is cut short in the load of the active catalog, and found whole before. -/
theorem select_atomic_cut :
    let tag : LocaleTag := ⟨"fr".toList, none, by decide⟩
    let installed : Selection := ⟨Catalog.new tag, Catalog.new tag, true, .empty⟩
    let r : Resolver := ⟨.default, some installed, none⟩
    let p : Provider :=
      { description := ""
        list := fun path => .ok (if path = "po".toList then ["de.po".toList] else [])
        reach := 1
        read := fun _ => .complete ["\"Language: de\\n\"".toList] }
    let lost : Fault := .external "KeyError" .other ""
    let w : Circumstances :=
      { Circumstances.steady p with
        active := fun _ => { p with read := fun path => (p.read path).interruptedAfter 1 lost } }
    let env : Environment Fault := ⟨.answered none, none, none, none⟩
    let q : Request := ⟨some (.identifier "de".toList), none, none, true⟩
    (r.selectAmid w env q).2 = .error (.fault lost) ∧
      (r.selectAmid w env q).1.selection = some installed := by
  intro tag installed r p lost w env q
  have h : (r.selectAmid w env q).2 = .error (.fault lost) := by rfl
  exact ⟨h, ((select_atomic r env q).2 w _ h).1⟩

end Resolver
end Phrasebook
