import Phrasebook.Proofs.Resolver.History

/-!
# Looking for the files anew

What a selection does that does not trust the index at hand.

**Indexing anew.**  Such a selection takes the index that a new resolver would make, so it loads
what a new resolver would load (`install_rescan`).
**The active locale.**  A selection of the locale that is active and loaded does nothing at all, and
so looks for no files either (`select_active`).
**Results.**  `select_rescan`: behind a selection of any other locale a resolver is what a new one
would be.  `select_active_stale` is the active locale with a file that has changed.
-/

namespace Phrasebook
namespace Resolver

section Rescanning

variable [Machine] {r : Resolver} {p : Provider} {env : Environment Fault} {q : Request}
  {tag : LocaleTag}

theorem select_of_tag_error {e : SelectError} (htag : requestedTag env q = .error e) :
    r.select p env q = (r, .error e) := by
  simp only [select, htag]

theorem select_of_fallback_error {e : SelectError} (htag : requestedTag env q = .ok tag)
    (hfallback : fallbackTag r.config q = .error e) : r.select p env q = (r, .error e) := by
  simp only [select, htag, hfallback]

theorem select_other {fallback : LocaleTag} (htag : requestedTag env q = .ok tag)
    (hfallback : fallbackTag r.config q = .ok fallback) (hother : r.summaryIfActive tag = none) :
    r.select p env q =
      r.install p tag fallback (q.sendsKey.getD r.config.sendsKey) q.rescan := by
  simp only [select, htag, hfallback, hother]

/-- The selection of the active loaded locale changes nothing, and if it returns it tells what came
of the installed selection. -/
theorem select_active {summary : Summary} (htag : requestedTag env q = .ok tag)
    (hactive : r.summaryIfActive tag = some summary) :
    (r.select p env q).1 = r ∧ ∀ given, (r.select p env q).2 = .ok given → given = summary := by
  simp only [select, htag, hactive]
  cases fallbackTag r.config q with
  | error e => exact ⟨rfl, nofun⟩
  | ok fallback =>
      refine ⟨rfl, ?_⟩
      rintro given ⟨⟩
      rfl

/-- With an index made anew two tags are loaded as by a new resolver. -/
theorem install_rescan (r : Resolver) (p : Provider) (tag fallback : LocaleTag) (sendsKey : Bool) :
    let done := r.install p tag fallback sendsKey true
    let fresh := (new r.config).install p tag fallback sendsKey false
    done.2 = fresh.2 ∧ ∀ summary, done.2 = .ok summary →
      (∃ index, Discovery.discover p r.config.root r.config.suffix = .ok index ∧
        done.1.index = some index) ∧ done.1 = fresh.1 := by
  have hindex : r.currentIndex p true = Discovery.discover p r.config.root r.config.suffix := by
    unfold currentIndex
    cases r.index <;> rfl
  have hfresh : (new r.config).currentIndex p false =
      Discovery.discover p r.config.root r.config.suffix := rfl
  unfold install
  rw [hindex, hfresh]
  cases hdiscover : Discovery.discover p r.config.root r.config.suffix with
  | error f => exact ⟨rfl, nofun⟩
  | ok index =>
      have hconfig : (new r.config).config = r.config := rfl
      simp only [hconfig]
      cases selectionOf r.config p index tag fallback sendsKey with
      | error e => exact ⟨rfl, nofun⟩
      | ok s => exact ⟨rfl, fun _ _ => ⟨⟨index, rfl, rfl⟩, rfl⟩⟩

end Rescanning

/-- A selection that looks for the files anew has the outcome that it has for a new resolver on the
same files, and if it returns it leaves the resolver that it leaves of a new one, with the index of
the files that are there; unless it selects the locale that is active and loaded, which does
nothing. -/
theorem select_rescan [Machine] (r : Resolver) (p : Provider) (env : Environment Fault)
    (q : Request) (hrescan : q.rescan = true) :
    let done := r.select p env q
    let fresh := (new r.config).select p env { q with rescan := false }
    ((∀ tag, requestedTag env q = .ok tag → r.summaryIfActive tag = none) →
      done.2 = fresh.2 ∧
        ∀ summary, done.2 = .ok summary →
          (∃ index, Discovery.discover p r.config.root r.config.suffix = .ok index ∧
            done.1.index = some index) ∧
          done.1 = fresh.1 ∧ AnswersAlike done.1 fresh.1) ∧
    ∀ tag summary, requestedTag env q = .ok tag → r.summaryIfActive tag = some summary →
      done.1 = r ∧ ∀ given, done.2 = .ok given → given = summary := by
  intro done fresh
  refine ⟨fun hother => ?_, fun tag summary htag hactive => select_active htag hactive⟩
  cases htag : requestedTag env q with
  | error e =>
      have hdone : done = (r, .error e) := select_of_tag_error htag
      have hfresh : fresh = (new r.config, .error e) := select_of_tag_error htag
      rw [hdone, hfresh]
      exact ⟨rfl, nofun⟩
  | ok tag =>
      have htag' : requestedTag env { q with rescan := false } = .ok tag := htag
      cases hfallback : fallbackTag r.config q with
      | error e =>
          have hdone : done = (r, .error e) := select_of_fallback_error htag hfallback
          have hfresh : fresh = (new r.config, .error e) :=
            select_of_fallback_error htag' hfallback
          rw [hdone, hfresh]
          exact ⟨rfl, nofun⟩
      | ok fallback =>
          have hdone :
              done = r.install p tag fallback (q.sendsKey.getD r.config.sendsKey) true := by
            rw [← hrescan]
            exact select_other htag hfallback (hother tag htag)
          have hfresh : fresh = (new r.config).install p tag fallback
              (q.sendsKey.getD r.config.sendsKey) false :=
            select_new htag' hfallback
          obtain ⟨houtcome, hstate⟩ :=
            install_rescan r p tag fallback (q.sendsKey.getD r.config.sendsKey)
          rw [← hdone, ← hfresh] at houtcome hstate
          refine ⟨houtcome, fun summary hsummary => ?_⟩
          obtain ⟨hindex, hsame⟩ := hstate summary hsummary
          exact ⟨hindex, hsame, answersAlike_of_selection (congrArg selection hsame)⟩

/-- A folder with one file, which declares a language and has a text for one key. -/
def leaflet (language key : String) : Provider where
  description := "one file"
  list path := .ok (if path = "po".toList then ["a.po".toList] else [])
  read _ := .complete
    [("\"Language: " ++ language ++ "\\n\"").toList, ("msgid \"" ++ key ++ "\"").toList,
      "msgstr \"x\"".toList]
  reach := 1

/-- The request for French files with German ones to fall back to. -/
def frenchRequest (rescan : Bool) : Request :=
  ⟨some (.identifier "fr".toList), some (.identifier "de".toList), none, rescan⟩

/-- A system without settings. -/
def plainSystem : Environment Fault :=
  ⟨.answered none, none, none, none⟩

/-- There were German files only; now there are French ones. -/
theorem select_rescan_new_file :
    let r := ((new .default).select (leaflet "de" "old") plainSystem (frenchRequest false)).1
    let done := r.select (leaflet "fr" "new") plainSystem (frenchRequest true)
    let fresh := (new .default).select (leaflet "fr" "new") plainSystem (frenchRequest false)
    r.index.isSome = true ∧ r.hasText "new".toList = false ∧
      done.2 = fresh.2 ∧ done.1 = fresh.1 ∧ done.1.hasText "new".toList = true := by
  intro r done fresh
  have hother : ∀ tag, requestedTag plainSystem (frenchRequest true) = .ok tag →
      r.summaryIfActive tag = none := by
    rintro tag ⟨⟩
    rfl
  obtain ⟨houtcome, hstate⟩ :=
    (select_rescan r (leaflet "fr" "new") plainSystem (frenchRequest true) rfl).1 hother
  obtain ⟨-, hsame, -⟩ := hstate _ rfl
  exact ⟨rfl, rfl, houtcome, hsame, rfl⟩

/-- The French file is active and then changes: looking for the files anew returns, but neither
finds the new key nor forgets the old one, as a new resolver does. -/
theorem select_active_stale :
    let r := ((new .default).select (leaflet "fr" "old") plainSystem (frenchRequest false)).1
    let done := r.select (leaflet "fr" "new") plainSystem (frenchRequest true)
    let fresh := (new .default).select (leaflet "fr" "new") plainSystem (frenchRequest false)
    done.2.isOk = true ∧ fresh.2.isOk = true ∧
      done.1.hasText "new".toList = false ∧ fresh.1.hasText "new".toList = true ∧
      done.1.hasText "old".toList = true ∧ fresh.1.hasText "old".toList = false := by
  decide

end Resolver
end Phrasebook
