import Phrasebook.Proofs.Resolver.Atomicity

/-!
# Operations on a resolver

What is done to a resolver, in whatever order, and what holds of every state that it comes to.

**Operations.**  An `Operation` is a selection in its circumstances, a reset or an `Inquiry`; only
the first two change the resolver.
**Invariant.**  `Selection.IsUsable` says that one of the two catalogs is loaded, and that the
summary tells the results of both.  `Catalog.IsSettled` says what a catalog is behind its first
load: loaded exactly if it has files, and named in each of its results.
**Result.**  `Reachable.usable`: what a resolver has installed can answer, whatever its provider
did.
-/

namespace Phrasebook

/-- What a resolver is asked. -/
inductive Inquiry
  | text (key : Text) (args : List Argument)
  | quantityText (key : Text) (quantity : Int) (args : List Argument)
  | hasText (key : Text)
  | currentLocale
  | summary

/-- What is done to a resolver. -/
inductive Operation
  | select (w : Circumstances) (env : Environment Fault) (q : Request)
  | reset
  | inquire (i : Inquiry)

/-- What comes of an operation. -/
inductive Reply
  | text (outcome : Except ResolveError Resolved)
  | hasText (answer : Bool)
  | currentLocale (outcome : Except NotInitialized LocaleTag)
  | summary (s : Summary)
  | selected (outcome : Except SelectError Summary)
  | reset

namespace Resolver

section Operating

variable [Machine]

/-- The answer to an inquiry. -/
def reply (r : Resolver) : Inquiry → Reply
  | .text key args => .text (r.text key args)
  | .quantityText key quantity args => .text (r.quantityText key quantity args)
  | .hasText key => .hasText (r.hasText key)
  | .currentLocale => .currentLocale r.currentLocale
  | .summary => .summary r.summary

/-- The resolver behind an operation, and what comes of it. -/
def operate (r : Resolver) : Operation → Resolver × Reply
  | .select w env q => ((r.selectAmid w env q).1, .selected (r.selectAmid w env q).2)
  | .reset => (r.reset, .reset)
  | .inquire i => (r, r.reply i)

/-- The resolvers that operations lead to from a new one. -/
inductive Reachable (config : Config) : Resolver → Prop
  | new : Reachable config (new config)
  | step {r : Resolver} (op : Operation) :
      Reachable config r → Reachable config (r.operate op).1

theorem reply_eq_of_selection {r r' : Resolver} (h : r.selection = r'.selection) (i : Inquiry) :
    r.reply i = r'.reply i := by
  obtain ⟨htext, hquantity, hhas, hlocale, hsummary⟩ := answersAlike_of_selection h
  cases i <;> simp [reply, htext, hquantity, hhas, hlocale, hsummary]

end Operating

end Resolver

namespace Catalog

section Settled

variable {locale path : Text} {strict : Bool} {p : Provider} {index : Index} {tag : LocaleTag}

/-- What holds of a catalog behind its first load. -/
structure IsSettled (c : Catalog) : Prop where
  isLoaded_iff : c.isLoaded = true ↔ c.files ≠ []
  locale_of_mem : ∀ result ∈ c.results, result.locale = c.locale.toText

variable [Machine]

theorem loadFile_locale {loaded : LoadResult × Option Po.File}
    (h : loadFile locale strict p path = .ok loaded) : loaded.1.locale = locale := by
  unfold loadFile at h
  split at h
  · cases h
    rfl
  · split at h
    · cases h
      rfl
    · cases h
  · cases h
    rfl

/-- A first load settles a catalog, and the catalog is loaded if the load gives a summary. -/
theorem load_new_settled (tag : LocaleTag) (p : Provider) (index : Index) (strict : Bool) :
    let done := (new tag).load p index strict
    done.1.locale = tag ∧ done.1.IsSettled ∧ (done.1.isLoaded = true ↔ done.2.isOk = true) := by
  rcases load_cases tag p index strict with
    ⟨-, hload⟩ | ⟨f, -, hload⟩ | ⟨loaded, -, hloaded, hdone⟩
  · rw [hload (new tag) rfl]
    exact ⟨rfl, ⟨by simp [isLoaded, new], List.forall_mem_nil _⟩,
      by simp [isLoaded, Except.isOk, Except.toBool]⟩
  · rw [hload (new tag) rfl]
    exact ⟨rfl, ⟨by simp [isLoaded, new], List.forall_mem_nil _⟩,
      by simp [isLoaded, Except.isOk, Except.toBool]⟩
  · have hresults : ∀ result ∈ loaded.map Prod.fst, result.locale = tag.toText := by
      intro result hresult
      obtain ⟨l, hl, rfl⟩ := List.mem_map.1 hresult
      obtain ⟨path, -, hpath⟩ := exists_of_mem_mapM hloaded hl
      exact loadFile_locale hpath
    rcases hdone with ⟨-, hload⟩ | ⟨hfiles, hload⟩
    · rw [hload (new tag) rfl]
      exact ⟨rfl, ⟨by simp [isLoaded, new], hresults⟩,
        by simp [isLoaded, Except.isOk, Except.toBool]⟩
    · rw [hload (new tag) rfl]
      exact ⟨rfl, ⟨by simp [isLoaded, hfiles], hresults⟩,
        by simp [isLoaded, Except.isOk, Except.toBool]⟩

end Settled

end Catalog

/-- What holds of an installed selection. -/
structure Selection.IsUsable (s : Selection) : Prop where
  isLoaded : s.active.isLoaded = true ∨ s.fallback.isLoaded = true
  summary_eq : s.summary.results = s.active.results ++ s.fallback.results
  active_settled : s.active.IsSettled
  fallback_settled : s.fallback.IsSettled

namespace Resolver

section Usable

variable [Machine] {config : Config} {w : Circumstances} {index : Index} {tag fallback : LocaleTag}
  {sendsKey : Bool}

/-- A catalog that is loaded along a course is settled, and loaded unless there is an error. -/
theorem loadCatalogAlong_settled {c : Course} {loaded : Catalog × Option CatalogError}
    (h : loadCatalogAlong config c index tag = .ok loaded) :
    loaded.1.IsSettled ∧ (loaded.1.isLoaded = true ↔ loaded.2 = none) := by
  obtain ⟨-, hsettled, hloaded⟩ := Catalog.load_new_settled tag
    (c.gathered (Catalog.candidatePaths tag index)) index config.strict
  rw [loadCatalogAlong, loadCatalog] at h
  split at h
  next summary hok =>
    cases h
    exact ⟨hsettled, by simp [hloaded, hok, Except.isOk, Except.toBool]⟩
  next e herror =>
    cases h
    exact ⟨hsettled, by simp [hloaded, herror, Except.isOk, Except.toBool]⟩
  next => cases h

theorem selectionAmid_usable {s : Selection}
    (h : selectionAmid config w index tag fallback sendsKey = .ok s) : s.IsUsable := by
  obtain ⟨active, hactive, h⟩ := bind_eq_ok_iff.1 h
  obtain ⟨other, hother, h⟩ := bind_eq_ok_iff.1 h
  obtain ⟨hactive, hactive_loaded⟩ := loadCatalogAlong_settled (mapError_eq_ok_iff.1 hactive)
  obtain ⟨hother, hother_loaded⟩ := loadCatalogAlong_settled (mapError_eq_ok_iff.1 hother)
  split at h
  next => cases h
  next hone =>
    cases h
    refine ⟨?_, rfl, hactive, hother⟩
    by_contra hneither
    rw [hactive_loaded, hother_loaded, not_or] at hneither
    obtain ⟨e, he⟩ := Option.ne_none_iff_exists'.1 hneither.1
    obtain ⟨f, hf⟩ := Option.ne_none_iff_exists'.1 hneither.2
    exact hone e f he hf

/-- A selection keeps what is installed or installs something usable. -/
theorem selectAmid_installs (r : Resolver) (w : Circumstances) (env : Environment Fault)
    (q : Request) :
    (r.selectAmid w env q).1.selection = r.selection ∨
      ∃ s, s.IsUsable ∧ (r.selectAmid w env q).1.selection = some s := by
  unfold selectAmid
  cases requestedTag env q with
  | error e => exact .inl rfl
  | ok tag =>
      dsimp only
      cases fallbackTag r.config q with
      | error e => exact .inl rfl
      | ok fallback =>
          dsimp only
          cases r.summaryIfActive tag with
          | some summary => exact .inl rfl
          | none =>
              dsimp only
              unfold installAmid
              cases r.indexAmid w q.rescan with
              | error f => exact .inl rfl
              | ok index =>
                  dsimp only
                  split
                  next => exact .inl rfl
                  next s hs => exact .inr ⟨s, selectionAmid_usable hs, rfl⟩

/-- What an operation keeps: the installed selection is usable. -/
theorem operate_usable {r : Resolver} (h : ∀ s ∈ r.selection, s.IsUsable) (op : Operation) :
    ∀ s ∈ (r.operate op).1.selection, s.IsUsable := by
  cases op with
  | select w env q =>
      rcases selectAmid_installs r w env q with hkept | ⟨s, hs, hinstalled⟩
      · rw [operate, hkept]
        exact h
      · rw [operate, hinstalled]
        rintro _ ⟨⟩
        exact hs
  | reset => rintro s ⟨⟩
  | inquire i => exact h

theorem Reachable.isUsable {r : Resolver} (h : Reachable config r) :
    ∀ s ∈ r.selection, s.IsUsable := by
  induction h with
  | new => rintro s ⟨⟩
  | step op _ ih => exact operate_usable ih op

end Usable

/-- A resolver has nothing installed, or two catalogs of which one is loaded.  The current locale is
that of a loaded catalog, of the active one if this is loaded; the summary tells the results of the
active catalog and then those of the fallback, each under the tag of its catalog; and a catalog that
is not loaded has no files. -/
theorem Reachable.usable [Machine] {config : Config} {r : Resolver} (h : Reachable config r) :
    (r.selection = none ∧ r.currentLocale = .error .nothingSelected ∧ r.summary = .empty) ∨
      ∃ s, r.selection = some s ∧
        (∃ c, (c = s.active ∨ c = s.fallback) ∧ c.isLoaded = true ∧
          r.currentLocale = .ok c.locale ∧ (s.active.isLoaded = true → c = s.active)) ∧
        r.summary.results = s.active.results ++ s.fallback.results ∧
        ∀ c, c = s.active ∨ c = s.fallback →
          (∀ result ∈ c.results, result.locale = c.locale.toText) ∧
            (c.isLoaded = true ↔ c.files ≠ []) := by
  cases hselection : r.selection with
  | none =>
      refine .inl ⟨rfl, ?_, ?_⟩
      · simp [currentLocale, required, hselection, Except.map]
      · simp [summary, hselection]
  | some s =>
      obtain ⟨hloaded, hsummary, hactive, hfallback⟩ := h.isUsable s hselection
      have hlocale : r.currentLocale = .ok s.currentLocale := by
        simp [currentLocale, required, hselection, Except.map]
      refine .inr ⟨s, rfl, ?_, by simp [summary, hselection, hsummary], ?_⟩
      · rw [hlocale, Selection.currentLocale]
        cases hfirst : s.active.isLoaded with
        | true => exact ⟨s.active, .inl rfl, hfirst, rfl, fun _ => rfl⟩
        | false =>
            have hsecond : s.fallback.isLoaded = true := by simpa [hfirst] using hloaded
            exact ⟨s.fallback, .inr rfl, hsecond, rfl, fun h => Bool.noConfusion h⟩
      · rintro c (rfl | rfl)
        · exact ⟨hactive.locale_of_mem, hactive.isLoaded_iff⟩
        · exact ⟨hfallback.locale_of_mem, hfallback.isLoaded_iff⟩

/-- The file of the selected locale is found by the discovery and gone before the load; then a
selection fails in the middle of its discovery. -/
theorem Reachable.usable_fallback :
    let p : Provider :=
      { description := "two files"
        list := fun path =>
          .ok (if path = "po".toList then ["de.po".toList, "fr.po".toList] else [])
        read := fun path =>
          .complete [if path = "po/de.po".toList then "\"Language: de\"".toList
            else "\"Language: fr\"".toList]
        reach := 1 }
    let lost : Course := fun _ => { p with read := fun _ => .failed .missing }
    let broken : Course := fun calls =>
      if calls = 2 then { p with list := fun _ => .error .foldersTooDeep } else p
    let env : Environment Fault := ⟨.answered none, none, none, none⟩
    let q : Request := ⟨some (.identifier "fr".toList), some (.identifier "de".toList), none, true⟩
    let first := (Resolver.new .default).operate
      (.select { Circumstances.steady p with active := lost } env q)
    let r := first.1.operate (.select { Circumstances.steady p with discovery := broken } env q)
    Reachable .default r.1 ∧ r.2 = .selected (.error (.fault .foldersTooDeep)) ∧
      ∃ s, r.1.selection = some s ∧ s.active.isLoaded = false ∧ s.active.files = [] ∧
        r.1.currentLocale = .ok s.fallback.locale ∧
        r.1.summary.results.map (fun result => (result.locale, result.status)) =
          [("fr".toList, .notFound), ("de".toList, .success)] := by
  intro p lost broken env q first r
  have h : Reachable .default r.1 := .step _ (.step _ .new)
  refine ⟨h, rfl, ?_⟩
  have hunloaded : r.1.selection.map (fun s => s.active.isLoaded) = some false := rfl
  rcases h.usable with ⟨hnone, -⟩ | ⟨s, hs, ⟨c, hc, hloaded, hlocale, -⟩, -, hsettled⟩
  · rw [hnone] at hunloaded
    cases hunloaded
  · have hactive : s.active.isLoaded = false := by simpa [hs] using hunloaded
    have hfallback : c = s.fallback := by
      rcases hc with rfl | hc
      · simp [hactive] at hloaded
      · exact hc
    refine ⟨s, hs, hactive, ?_, hfallback ▸ hlocale, rfl⟩
    have hfiles := (hsettled s.active (.inl rfl)).2
    simpa [hactive] using hfiles

end Resolver
end Phrasebook
