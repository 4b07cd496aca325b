import Mathlib
import Phrasebook.Proofs.Catalog.Loading

/-!
# Loading a catalog again

What a catalog has after several loads, against what the last of them gives a new catalog.

**Loads.**  A `LoadCall` is what a load is given.  It `returns` if it finds a file that it can read,
and it `reports` its files if there are any and no fault ends it.
**Fields.**  Every load sets the phase.  The results are set by a load that reports, and the files
by one that returns; any other load leaves them as they are (`LoadCall.apply_eq`).
**Result.**  `reload_eq_alone_iff`: a load leaves what it gives a new catalog, unless it fails and
an earlier one has left something behind.  `reload_keeps_files` is a catalog that has failed and
still answers.
-/

namespace Phrasebook

/-- What a load is given.  It reads each path once, so whatever a provider does meanwhile, the
answers are those of one provider. -/
structure LoadCall where
  provider : Provider
  index : Index
  strict : Bool

namespace LoadCall

section Definitions

variable [Machine] (call : LoadCall)

/-- The load of a catalog. -/
def apply (c : Catalog) : Catalog × Except LoadFailure Summary :=
  c.load call.provider call.index call.strict

variable (locale : LocaleTag)

/-- The load of a new catalog. -/
def alone : Catalog × Except LoadFailure Summary :=
  call.apply (Catalog.new locale)

/-- Does the load give a summary? -/
def returns : Bool :=
  (call.alone locale).2.isOk

/-- Does the load tell what came of its files? -/
def reports : Bool :=
  match (call.alone locale).2 with
  | .ok _ | .error (.noCatalog (.noneLoaded _)) => true
  | .error _ => false

end Definitions

section Fields

variable [Machine] {call : LoadCall} {locale : LocaleTag}

/-- What a load leaves, field by field. -/
theorem apply_eq (call : LoadCall) (c : Catalog) :
    call.apply c =
      ({ locale := c.locale
         phase := (call.alone c.locale).1.phase
         files := if call.returns c.locale then (call.alone c.locale).1.files else c.files
         results := if call.reports c.locale then (call.alone c.locale).1.results else c.results },
        (call.alone c.locale).2) := by
  -- the locale alone decides which way a load goes
  rcases Catalog.load_cases c.locale call.provider call.index call.strict with
    ⟨-, hload⟩ | ⟨f, -, hload⟩ | ⟨loaded, -, -, ⟨-, hload⟩ | ⟨-, hload⟩⟩
  all_goals
    have hnew := hload (Catalog.new c.locale) rfl
    simp [returns, reports, alone, apply, hload c rfl, hnew, Except.isOk, Except.toBool]

theorem alone_files_ne_nil_iff : (call.alone locale).1.files ≠ [] ↔ call.returns locale = true := by
  rcases Catalog.load_cases locale call.provider call.index call.strict with
    ⟨-, hload⟩ | ⟨f, -, hload⟩ | ⟨loaded, -, -, ⟨-, hload⟩ | ⟨hfiles, hload⟩⟩
  all_goals
    have hnew := hload (Catalog.new locale) rfl
    simp_all [returns, alone, apply, Catalog.new, Except.isOk, Except.toBool]

theorem alone_results_ne_nil_iff :
    (call.alone locale).1.results ≠ [] ↔ call.reports locale = true := by
  rcases Catalog.load_cases locale call.provider call.index call.strict with
    ⟨-, hload⟩ | ⟨f, -, hload⟩ | ⟨loaded, hne, -, ⟨-, hload⟩ | ⟨-, hload⟩⟩
  all_goals
    have hnew := hload (Catalog.new locale) rfl
    simp_all [reports, alone, apply, Catalog.new]

theorem alone_phase_eq_ready_iff :
    (call.alone locale).1.phase = .ready ↔ call.returns locale = true := by
  rcases Catalog.load_cases locale call.provider call.index call.strict with
    ⟨-, hload⟩ | ⟨f, -, hload⟩ | ⟨loaded, -, -, ⟨-, hload⟩ | ⟨-, hload⟩⟩
  all_goals
    have hnew := hload (Catalog.new locale) rfl
    simp_all [returns, alone, apply, Except.isOk, Except.toBool]

theorem reports_of_returns (h : call.returns locale = true) : call.reports locale = true := by
  rw [returns] at h
  rw [reports]
  cases houtcome : (call.alone locale).2 with
  | ok summary => rfl
  | error e =>
      rw [houtcome] at h
      cases h

end Fields

end LoadCall

namespace Catalog

section Sequences

variable [Machine] {locale : LocaleTag} {calls : List LoadCall} {call : LoadCall}

/-- The catalog behind a sequence of loads. -/
def reload (c : Catalog) (calls : List LoadCall) : Catalog :=
  calls.foldl (fun c call => (call.apply c).1) c

theorem reload_concat (c : Catalog) (calls : List LoadCall) (call : LoadCall) :
    reload c (calls ++ [call]) = (call.apply (reload c calls)).1 := by
  simp [reload]

theorem reload_locale (c : Catalog) (calls : List LoadCall) :
    (reload c calls).locale = c.locale := by
  induction calls using List.reverseRecOn with
  | nil => rfl
  | append_singleton calls call ih => rw [reload_concat, LoadCall.apply_eq, ih]

/-- What one more load leaves of a new catalog. -/
theorem reload_new_concat (locale : LocaleTag) (calls : List LoadCall) (call : LoadCall) :
    let before := reload (new locale) calls
    let alone := (call.alone locale).1
    reload (new locale) (calls ++ [call]) =
      { locale := locale
        phase := alone.phase
        files := if call.returns locale then alone.files else before.files
        results := if call.reports locale then alone.results else before.results } := by
  have hlocale : (reload (new locale) calls).locale = locale := reload_locale (new locale) calls
  intro before alone
  rw [reload_concat, LoadCall.apply_eq, hlocale]

/-- A list that loads of one kind set, and not to nothing, and other loads keep. -/
theorem kept_eq_nil_iff {α : Type} {field : Catalog → List α} {isSet : LoadCall → Bool}
    (hnew : field (new locale) = [])
    (hconcat : ∀ calls call, field (reload (new locale) (calls ++ [call])) =
      if isSet call then field (call.alone locale).1 else field (reload (new locale) calls))
    (hne : ∀ call, field (call.alone locale).1 ≠ [] ↔ isSet call = true) :
    field (reload (new locale) calls) = [] ↔ ∀ call ∈ calls, isSet call = false := by
  induction calls using List.reverseRecOn with
  | nil => simp [reload, hnew]
  | append_singleton calls call ih =>
      rw [hconcat, List.forall_mem_append, List.forall_mem_singleton]
      cases hset : isSet call with
      | false => simp [ih]
      | true => simp [(hne call).2 hset]

/-- There are files as soon as one load has returned. -/
theorem reload_files_eq_nil_iff :
    (reload (new locale) calls).files = [] ↔ ∀ call ∈ calls, call.returns locale = false :=
  kept_eq_nil_iff rfl (fun calls call => by rw [reload_new_concat])
    fun _ => LoadCall.alone_files_ne_nil_iff

/-- There are results as soon as one load has reported its files. -/
theorem reload_results_eq_nil_iff :
    (reload (new locale) calls).results = [] ↔ ∀ call ∈ calls, call.reports locale = false :=
  kept_eq_nil_iff rfl (fun calls call => by rw [reload_new_concat])
    fun _ => LoadCall.alone_results_ne_nil_iff

/-- A catalog without files has no text for any key. -/
theorem silent_of_files_eq_nil {c : Catalog} (h : c.files = []) (key : Text) :
    (∀ args, c.single key args = .ok .missingKey) ∧
      (∀ quantity args, c.plural key quantity args = .ok .missingKey) ∧
      c.hasSingle key = false ∧ c.hasPlural key = false := by
  simp [single, plural, hasSingle, hasPlural, h]

/-- One more load leaves what it gives a new catalog exactly if neither files nor results of
earlier loads stay. -/
theorem reload_concat_eq_alone_iff :
    reload (new locale) (calls ++ [call]) = (call.alone locale).1 ↔
      call.returns locale = true ∨
        (∀ other ∈ calls, other.returns locale = false) ∧
          (call.reports locale = true ∨ ∀ other ∈ calls, other.reports locale = false) := by
  have hlocale : (call.alone locale).1.locale = locale := by
    rw [LoadCall.alone, LoadCall.apply_eq]
    rfl
  have hfiles : (call.alone locale).1.files ≠ [] ↔ call.returns locale = true :=
    LoadCall.alone_files_ne_nil_iff
  have hresults : (call.alone locale).1.results ≠ [] ↔ call.reports locale = true :=
    LoadCall.alone_results_ne_nil_iff
  have hreports : call.returns locale = true → call.reports locale = true :=
    LoadCall.reports_of_returns
  rw [reload_new_concat, ← reload_files_eq_nil_iff, ← reload_results_eq_nil_iff]
  generalize (call.alone locale).1 = alone at hlocale hfiles hresults
  obtain ⟨tag, phase, files, results⟩ := alone
  dsimp only at hlocale hfiles hresults
  subst hlocale
  cases hreturned : call.returns tag with
  | true => simp [hreports hreturned]
  | false =>
      have hnone : files = [] := by simpa [hreturned] using hfiles
      cases hreported : call.reports tag with
      | true => simp [hnone]
      | false =>
          have hnothing : results = [] := by simpa [hreported] using hresults
          simp [hnone, hnothing]

end Sequences

/-- A load has the outcome and the phase that it has for a new catalog, but one that fails keeps
the files of earlier loads, and one that does not report keeps their results.  So it leaves what it
gives a new catalog only if it returns or nothing stays, and files are there for a catalog that is
not loaded as soon as one load has returned. -/
theorem reload_eq_alone_iff [Machine] (locale : LocaleTag) (calls : List LoadCall)
    (call : LoadCall) :
    let before := reload (new locale) calls
    let after := reload (new locale) (calls ++ [call])
    let alone := call.alone locale
    (call.apply before).2 = alone.2 ∧
      after.phase = alone.1.phase ∧
      after.files = (if call.returns locale then alone.1.files else before.files) ∧
      after.results = (if call.reports locale then alone.1.results else before.results) ∧
      (after = alone.1 ↔
        call.returns locale = true ∨
          (∀ other ∈ calls, other.returns locale = false) ∧
            (call.reports locale = true ∨ ∀ other ∈ calls, other.reports locale = false)) ∧
      (after.isLoaded = true ↔ call.returns locale = true) ∧
      (after.files ≠ [] ↔ ∃ other ∈ calls ++ [call], other.returns locale = true) ∧
      ((∃ other ∈ calls ++ [call], other.returns locale = true) ∨
        ∀ key, (∀ args, after.single key args = .ok .missingKey) ∧
          (∀ quantity args, after.plural key quantity args = .ok .missingKey) ∧
          after.hasSingle key = false ∧ after.hasPlural key = false) := by
  intro before after alone
  have hafter : after = _ := reload_new_concat locale calls call
  have hfiles : after.files ≠ [] ↔ ∃ other ∈ calls ++ [call], other.returns locale = true := by
    rw [ne_eq, reload_files_eq_nil_iff]
    simp only [not_forall, Bool.not_eq_false, exists_prop]
  refine ⟨?_, by rw [hafter], by rw [hafter], by rw [hafter], reload_concat_eq_alone_iff, ?_,
    hfiles, ?_⟩
  · rw [LoadCall.apply_eq, reload_locale]
    rfl
  · rw [isLoaded, beq_iff_eq, ← LoadCall.alone_phase_eq_ready_iff, hafter]
  · by_cases hnone : after.files = []
    · exact .inr (silent_of_files_eq_nil hnone)
    · exact .inl (hfiles.1 hnone)

/-- A catalog that was loaded and then finds no file any more: it has failed, and a new one would
have nothing, but it keeps the old file and its text. -/
theorem reload_keeps_files :
    let tag : LocaleTag := ⟨"en".toList, none, by decide⟩
    let p : Provider :=
      { description := "one file"
        list := fun _ => .ok []
        read := fun _ => .complete ["msgid \"a\"".toList, "msgstr \"x\"".toList]
        reach := 0 }
    let found : LoadCall := ⟨p, Table.ofList [("en".toList, ["a.po".toList])], false⟩
    let lost : LoadCall := ⟨p, Table.empty, false⟩
    let c := reload (new tag) [found, lost]
    c.isLoaded = false ∧ c.single ['a'] [] = .ok (.found ['x'] none) ∧
      (lost.alone tag).1.files = [] ∧ (lost.alone tag).1.single ['a'] [] = .ok .missingKey := by
  intro tag p found lost c
  have htemplate : (c.files.findSome? fun f => f.singles.values.get? ['a']) = some ['x'] := by
    decide
  have hfill : fill ['x'] [] = .ok ['x'] := by cbv
  have hnone : (lost.alone tag).1.files = [] := rfl
  refine ⟨rfl, ?_, hnone, (silent_of_files_eq_nil hnone ['a']).1 []⟩
  simp only [single_eq, htemplate, hfill]
  rfl

end Catalog
end Phrasebook
