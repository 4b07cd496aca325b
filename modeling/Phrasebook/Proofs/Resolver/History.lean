import Phrasebook.Resolver.Lookup

/-!
# History of a resolver

What a resolver answers depends on its last effective selection alone.

**Calls.**  A history is a list of selections and resets; a selection comes with the state of
the system at its time.  It is *effective* if it returns and its locale is not the active
loaded one.
**Invariant.**  `Consistent` says that an index at hand is what a new discovery would give, and
that the installed selection is the one that a new resolver gets from the last effective call.
**Results.**
* `Consistent.perform`, `Consistent.run`: every call keeps the invariant, and so every history.
* `select_agree`: the index at hand shows in no answer of a selection.
* `run_eq_replay`: a history and its last effective call give the same answers.
-/

namespace Phrasebook

/-- What is done to a resolver between two lookups. -/
inductive Call
  | select (env : Environment Fault) (q : Request)
  | reset

namespace Resolver

/-- Do two resolvers give the same answers? -/
def AnswersAlike [Machine] (r r' : Resolver) : Prop :=
  (∀ key args, r.text key args = r'.text key args) ∧
    (∀ key quantity args, r.quantityText key quantity args = r'.quantityText key quantity args) ∧
    (∀ key, r.hasText key = r'.hasText key) ∧
    r.currentLocale = r'.currentLocale ∧
    r.summary = r'.summary

theorem answersAlike_of_selection [Machine] {r r' : Resolver} (h : r.selection = r'.selection) :
    AnswersAlike r r' := by
  have hrequired : r.required = r'.required := by rw [required, required, h]
  refine ⟨fun key args => ?_, fun key quantity args => ?_, fun key => ?_, ?_, ?_⟩
  · rw [text, text, hrequired]
  · rw [quantityText, quantityText, hrequired]
  · rw [hasText, hasText, h]
  · rw [currentLocale, currentLocale, hrequired]
  · rw [summary, summary, h]

section Histories

variable [Machine] (p : Provider)

/-- The resolver behind a call. -/
def perform (r : Resolver) : Call → Resolver
  | .select env q => (r.select p env q).1
  | .reset => r.reset

/-- The resolver behind a history. -/
def run (r : Resolver) (calls : List Call) : Resolver :=
  calls.foldl (perform p) r

/-- Does a selection return for a locale that is not the active loaded one? -/
def isEffective (r : Resolver) (env : Environment Fault) (q : Request) : Bool :=
  match requestedTag env q, (r.select p env q).2 with
  | .ok tag, .ok _ => (r.summaryIfActive tag).isNone
  | _, _ => false

/-- The last effective selection behind a call, given the one before it. -/
def remember (r : Resolver) (last : Option (Environment Fault × Request)) :
    Call → Option (Environment Fault × Request)
  | .select env q => if r.isEffective p env q then some (env, q) else last
  | .reset => none

/-- The last effective selection of a history since its last reset. -/
def lastEffective (r : Resolver) (last : Option (Environment Fault × Request)) :
    List Call → Option (Environment Fault × Request)
  | [] => last
  | call :: calls => lastEffective (r.perform p call) (r.remember p last call) calls

/-- A new resolver behind a single selection, if there is one. -/
def replay (config : Config) : Option (Environment Fault × Request) → Resolver
  | none => new config
  | some (env, q) => ((new config).select p env q).1

end Histories

section Selecting

variable {p : Provider} {r : Resolver} {env : Environment Fault} {q : Request}

/-- What a selection can do. -/
theorem select_cases [Machine] :
    (∃ e, requestedTag env q = .error e ∧ r.select p env q = (r, .error e)) ∨
      ∃ tag, requestedTag env q = .ok tag ∧
        ((∃ e, fallbackTag r.config q = .error e ∧ r.select p env q = (r, .error e)) ∨
          ∃ fallback, fallbackTag r.config q = .ok fallback ∧
            ((∃ summary, r.summaryIfActive tag = some summary ∧
                r.select p env q = (r, .ok summary)) ∨
              r.summaryIfActive tag = none ∧
                r.select p env q =
                  r.install p tag fallback (q.sendsKey.getD r.config.sendsKey) q.rescan)) := by
  unfold select
  cases requestedTag env q with
  | error e => exact .inl ⟨e, rfl, rfl⟩
  | ok tag =>
      refine .inr ⟨tag, rfl, ?_⟩
      cases fallbackTag r.config q with
      | error e => exact .inl ⟨e, rfl, rfl⟩
      | ok fallback =>
          refine .inr ⟨fallback, rfl, ?_⟩
          cases hactive : r.summaryIfActive tag with
          | some summary => exact .inl ⟨summary, rfl, by simp only [hactive]⟩
          | none => exact .inr ⟨rfl, by simp only [hactive]⟩

/-- Is an index at hand what a new discovery would give? -/
def IndexCurrent (p : Provider) (r : Resolver) : Prop :=
  ∀ index ∈ r.index, Discovery.discover p r.config.root r.config.suffix = .ok index

theorem currentIndex_eq (h : IndexCurrent p r) (rescan : Bool) :
    r.currentIndex p rescan = Discovery.discover p r.config.root r.config.suffix := by
  unfold currentIndex
  cases hindex : r.index with
  | none => rfl
  | some index =>
      rw [h index hindex]
      cases rescan <;> rfl

/-- What loading two tags can do to a resolver whose index is current. -/
theorem install_cases [Machine] (h : IndexCurrent p r) (tag fallback : LocaleTag)
    (sendsKey rescan : Bool) :
    (∃ f, Discovery.discover p r.config.root r.config.suffix = .error f ∧
        r.install p tag fallback sendsKey rescan = (r, .error (.fault f))) ∨
      ∃ index, Discovery.discover p r.config.root r.config.suffix = .ok index ∧
        ((∃ e, selectionOf r.config p index tag fallback sendsKey = .error e ∧
            r.install p tag fallback sendsKey rescan =
              ({ r with index := some index }, .error e)) ∨
          ∃ s, selectionOf r.config p index tag fallback sendsKey = .ok s ∧
            r.install p tag fallback sendsKey rescan =
              ({ r with index := some index, selection := some s }, .ok s.summary)) := by
  unfold install
  rw [currentIndex_eq h rescan]
  cases Discovery.discover p r.config.root r.config.suffix with
  | error f => exact .inl ⟨f, rfl, rfl⟩
  | ok index =>
      refine .inr ⟨index, rfl, ?_⟩
      cases hs : selectionOf r.config p index tag fallback sendsKey with
      | error e => exact .inl ⟨e, rfl, by simp only [hs]⟩
      | ok s => exact .inr ⟨s, rfl, by simp only [hs]⟩

end Selecting

section Invariant

variable {p : Provider} {config : Config} {r r' : Resolver}
  {last : Option (Environment Fault × Request)}

/-- What every call keeps: the index is current, and the selection is that of the last effective
call on a new resolver. -/
structure Consistent [Machine] (p : Provider) (config : Config)
    (last : Option (Environment Fault × Request)) (r : Resolver) : Prop where
  config_eq : r.config = config
  indexCurrent : IndexCurrent p r
  selection_eq : r.selection = (replay p config last).selection

theorem consistent_new [Machine] (p : Provider) (config : Config) :
    Consistent p config none (new config) :=
  ⟨rfl, (fun _ h => nomatch h), rfl⟩

theorem summaryIfActive_new (config : Config) (tag : LocaleTag) :
    (new config).summaryIfActive tag = none := rfl

theorem select_new [Machine] {p : Provider} {env : Environment Fault} {q : Request}
    {tag fallback : LocaleTag}
    (htag : requestedTag env q = .ok tag) (hfallback : fallbackTag config q = .ok fallback) :
    (new config).select p env q =
      (new config).install p tag fallback (q.sendsKey.getD config.sendsKey) q.rescan := by
  unfold select
  rw [htag]
  simp only [show (new config).config = config from rfl, hfallback, summaryIfActive_new]

/-- What a call keeps. -/
theorem Consistent.perform [Machine] (h : Consistent p config last r) (call : Call) :
    Consistent p config (r.remember p last call) (r.perform p call) := by
  obtain ⟨rfl, hindex, hselection⟩ := h
  cases call with
  | reset => exact consistent_new p r.config
  | select env q =>
      -- a call that is not effective may renew the index, and that index is current
      have hkept : ∀ r₁ : Resolver, (r.select p env q).1 = r₁ → r₁.config = r.config →
          IndexCurrent p r₁ → r₁.selection = r.selection → r.isEffective p env q = false →
          Consistent p r.config (r.remember p last (.select env q))
            (r.perform p (.select env q)) := by
        rintro r₁ rfl hconfig hcurrent hsame heffective
        have hremember : r.remember p last (.select env q) = last := by
          rw [remember, heffective, if_neg Bool.false_ne_true]
        rw [hremember]
        exact ⟨hconfig, hcurrent, hsame.trans hselection⟩
      rcases @select_cases p r env q _ with
        ⟨e, htag, hselect⟩ | ⟨tag, htag, ⟨e, hfallback, hselect⟩ | ⟨fallback, hfallback, h⟩⟩
      · exact hkept r (by rw [hselect]) rfl hindex rfl (by rw [isEffective, htag])
      · exact hkept r (by rw [hselect]) rfl hindex rfl (by rw [isEffective, htag, hselect])
      rcases h with ⟨summary, hactive, hselect⟩ | ⟨hinactive, hselect⟩
      · refine hkept r (by rw [hselect]) rfl hindex rfl ?_
        rw [isEffective, htag, hselect]
        simp only [hactive, Option.isNone_some]
      rcases install_cases hindex tag fallback (q.sendsKey.getD r.config.sendsKey) q.rescan with
        ⟨f, hdiscover, hinstall⟩ | ⟨index, hdiscover, h⟩
      · refine hkept r (by rw [hselect, hinstall]) rfl hindex rfl ?_
        rw [isEffective, htag, hselect, hinstall]
      have hcurrent : ∀ i ∈ some index,
          Discovery.discover p r.config.root r.config.suffix = .ok i := by
        rintro i ⟨⟩
        exact hdiscover
      rcases h with ⟨e, hfailed, hinstall⟩ | ⟨s, hs, hinstall⟩
      · refine hkept { r with index := some index } (by rw [hselect, hinstall]) rfl hcurrent rfl ?_
        rw [isEffective, htag, hselect, hinstall]
      · have heffective : r.isEffective p env q = true := by
          rw [isEffective, htag, hselect, hinstall]
          simp only [hinactive, Option.isNone_none]
        have hremember : r.remember p last (.select env q) = some (env, q) := by
          rw [remember, heffective, if_pos rfl]
        have hperform : r.perform p (.select env q) =
            { r with index := some index, selection := some s } := by
          rw [Resolver.perform, hselect, hinstall]
        have hreplay : (replay p r.config (some (env, q))).selection = some s := by
          rw [replay, select_new htag hfallback, install,
            currentIndex_eq (consistent_new p r.config).indexCurrent]
          simp only [show (new r.config).config = r.config from rfl, hdiscover, hs]
        rw [hremember, hperform]
        exact ⟨rfl, hcurrent, hreplay.symm⟩

theorem Consistent.run [Machine] (h : Consistent p config last r) (calls : List Call) :
    Consistent p config (r.lastEffective p last calls) (r.run p calls) := by
  induction calls generalizing r last with
  | nil => exact h
  | cons call calls ih => exact ih (h.perform call)

/-- A new resolver behind at most one selection is consistent with whatever that selects. -/
theorem indexCurrent_replay [Machine] (p : Provider) (config : Config)
    (last : Option (Environment Fault × Request)) :
    (replay p config last).config = config ∧ IndexCurrent p (replay p config last) := by
  cases last with
  | none => exact ⟨rfl, (consistent_new p config).indexCurrent⟩
  | some call =>
      have h := (consistent_new p config).perform (.select call.1 call.2)
      exact ⟨h.config_eq, h.indexCurrent⟩

/-- The index at hand shows in no selection. -/
theorem select_agree [Machine] (hconfig : r.config = r'.config)
    (hselection : r.selection = r'.selection)
    (hindex : IndexCurrent p r) (hindex' : IndexCurrent p r') (env : Environment Fault)
    (q : Request) :
    (r.select p env q).2 = (r'.select p env q).2 ∧
      (r.select p env q).1.selection = (r'.select p env q).1.selection := by
  have hactive : ∀ tag, r.summaryIfActive tag = r'.summaryIfActive tag := by
    intro tag
    rw [summaryIfActive, summaryIfActive, hselection]
  unfold select
  cases requestedTag env q with
  | error e => exact ⟨rfl, hselection⟩
  | ok tag =>
      rw [hconfig]
      simp only
      cases fallbackTag r'.config q with
      | error e => exact ⟨rfl, hselection⟩
      | ok fallback =>
          simp only [hactive tag]
          cases r'.summaryIfActive tag with
          | some summary => exact ⟨rfl, hselection⟩
          | none =>
              simp only [install, currentIndex_eq hindex, currentIndex_eq hindex', hconfig]
              cases Discovery.discover p r'.config.root r'.config.suffix with
              | error f => exact ⟨rfl, hselection⟩
              | ok index =>
                  simp only
                  cases selectionOf r'.config p index tag fallback
                    (q.sendsKey.getD r'.config.sendsKey) with
                  | error e => exact ⟨rfl, hselection⟩
                  | ok s => exact ⟨rfl, rfl⟩

end Invariant

/-- A history leaves the selection that its last effective call gives on a new resolver, and so
all answers of that; not even a further selection tells the two apart. -/
theorem run_eq_replay [Machine] (p : Provider) (config : Config) (calls : List Call) :
    let r := (new config).run p calls
    let r' := replay p config ((new config).lastEffective p none calls)
    r.selection = r'.selection ∧ AnswersAlike r r' ∧
      ∀ env q, (r.select p env q).2 = (r'.select p env q).2 ∧
        (r.select p env q).1.selection = (r'.select p env q).1.selection := by
  intro r r'
  have h : Consistent p config ((new config).lastEffective p none calls) r :=
    (consistent_new p config).run calls
  obtain ⟨hconfig', hindex'⟩ :=
    indexCurrent_replay p config ((new config).lastEffective p none calls)
  refine ⟨h.selection_eq, answersAlike_of_selection h.selection_eq, ?_⟩
  exact select_agree (h.config_eq.trans hconfig'.symm) h.selection_eq h.indexCurrent hindex'

end Resolver
end Phrasebook
