import Mathlib.Data.List.Basic
import Phrasebook.Locale.System
import Phrasebook.Proofs.Text.Cutting

/-!
# The locale that the system names

A source names a locale if something is left of its value without the blanks and the encoding, and
if that is not the name of a pseudo-locale.  The locale of the system is that of the first such
source.

**Sieve.**  The values are sieved as they stand, before their encoding is cut off
(`locale_of_first`).  A value is masked if it passes for a locale as it stands and names none.
**Result.**  `detects_locale_iff`: the first value that passes decides.  If it is masked, the answer
is empty or a pseudo-locale, and otherwise it is the locale that the sources name.
-/

namespace Phrasebook
namespace Environment

universe u

variable {φ : Type u} {env : Environment φ} {required : Bool} {name value : Text}
  {source : Option Text} {front behind : List (Option Text)}
  {result result' : Except (SystemLocaleError φ) Text}

/-- A text that is the name of no locale. -/
def IsVoid (name : Text) : Prop :=
  name = [] ∨ isPseudoLocale name = true

instance : DecidablePred IsVoid :=
  fun _ => inferInstanceAs (Decidable (_ ∨ _))

/-- The locale that a value names, which stands before its encoding. -/
def named (value : Text) : Text :=
  normalizeLocale (Text.before '.' value)

/-- A source without a value, or with one that names no locale. -/
def IsSilent (source : Option Text) : Prop :=
  ∀ value ∈ source, IsVoid (named value)

instance : DecidablePred IsSilent :=
  fun _ => inferInstanceAs (Decidable (∀ value ∈ _, IsVoid (named value)))

/-- The values that the locale is read from, in the order in which they count.  A query that is
refused gives none. -/
def sources (env : Environment φ) : List (Option Text) :=
  match env.system with
  | .answered value => value :: env.variableValues
  | _ => env.variableValues

/-- The answers that an environment may give: the locale of the first source that names one, and
without such a source the default or an error. -/
inductive Detects (env : Environment φ) : Bool → Except (SystemLocaleError φ) Text → Prop
  | found {required : Bool} {front : List (Option Text)} {value : Text}
      {behind : List (Option Text)}
      (hsources : env.sources = front ++ some value :: behind)
      (hfront : ∀ source ∈ front, IsSilent source) (hvalue : ¬ IsVoid (named value)) :
      Detects env required (.ok (named value))
  | assumed (hsources : ∀ source ∈ env.sources, IsSilent source) :
      Detects env false (.ok defaultLocale)
  | undetermined (hsources : ∀ source ∈ env.sources, IsSilent source) :
      Detects env true (.error .undetermined)

/-- A value that passes for a locale as it stands and names none. -/
def IsMasked (value : Text) : Prop :=
  ¬ IsVoid value ∧ IsVoid (named value)

/-- The first value that passes for a locale names none. -/
def TakesMasked (env : Environment φ) : Prop :=
  ∃ front value behind, env.sources = front ++ some value :: behind ∧
    (∀ source ∈ front, usable source = none) ∧ IsMasked value

section First

variable {α : Type u} {P : α → Prop} {x y : α} {l l' r r' : List α}

theorem forall_or_first [DecidablePred P] (l : List α) :
    (∀ x ∈ l, P x) ∨ ∃ front x behind, l = front ++ x :: behind ∧ (∀ y ∈ front, P y) ∧ ¬ P x := by
  cases hfind : l.find? fun x => !decide (P x) with
  | none => exact .inl (by simpa using hfind)
  | some x =>
      obtain ⟨hx, front, behind, heq, hfront⟩ := List.find?_eq_some_iff_append.1 hfind
      exact .inr ⟨front, x, behind, heq, by simpa using hfront, by simpa using hx⟩

/-- The first element without a property is the only one with the property before it. -/
theorem first_unique (h : l ++ x :: r = l' ++ y :: r') (hl : ∀ z ∈ l, P z) (hx : ¬ P x)
    (hl' : ∀ z ∈ l', P z) (hy : ¬ P y) : x = y := by
  induction l generalizing l' with
  | nil =>
      cases l' with
      | nil => exact (List.cons.inj h).1
      | cons z l' =>
          obtain ⟨rfl, -⟩ := List.cons.inj h
          exact absurd (hl' x List.mem_cons_self) hx
  | cons w l ih =>
      cases l' with
      | nil =>
          obtain ⟨rfl, -⟩ := List.cons.inj h
          exact absurd (hl w List.mem_cons_self) hy
      | cons z l' =>
          exact ih (List.cons.inj h).2 (fun z hz => hl z (List.mem_cons_of_mem w hz))
            fun v hv => hl' v (List.mem_cons_of_mem z hv)

end First

section Values

theorem dot_not_mem_of_isVoid (h : IsVoid name) : '.' ∉ name := by
  rw [IsVoid, isPseudoLocale, Bool.or_eq_true, beq_iff_eq, beq_iff_eq] at h
  rcases h with rfl | rfl | rfl <;> decide

theorem normalizeLocale_of_isVoid (h : IsVoid name) : normalizeLocale name = name := by
  rw [IsVoid, isPseudoLocale, Bool.or_eq_true, beq_iff_eq, beq_iff_eq] at h
  rcases h with rfl | rfl | rfl <;> decide

theorem named_of_isVoid (h : IsVoid name) : named name = name := by
  rw [named, Text.before_of_not_mem (dot_not_mem_of_isVoid h), normalizeLocale_of_isVoid h]

theorem isVoid_iff : IsVoid name ↔ (name.isEmpty || isPseudoLocale name) = true := by
  rw [IsVoid, Bool.or_eq_true, List.isEmpty_iff]

theorem usable_of_isVoid (h : IsVoid value) : usable (some value) = none :=
  if_pos (isVoid_iff.1 h)

theorem usable_of_not_isVoid (h : ¬ IsVoid value) : usable (some value) = some (named value) :=
  if_neg (mt isVoid_iff.2 h)

/-- A source that does not pass names no locale. -/
theorem isSilent_of_usable (h : usable source = none) : IsSilent source := by
  rintro value rfl
  by_cases hvoid : IsVoid value
  · rwa [named_of_isVoid hvoid]
  · rw [usable_of_not_isVoid hvoid] at h
    cases h

/-- With an encoding behind it the name of a pseudo-locale passes. -/
theorem isMasked_append (h : isPseudoLocale name = true) (encoding : Text) :
    named (name ++ '.' :: encoding) = name ∧ IsMasked (name ++ '.' :: encoding) := by
  have hvoid : IsVoid name := .inr h
  have hnamed : named (name ++ '.' :: encoding) = name := by
    rw [named, Text.before_append (dot_not_mem_of_isVoid hvoid), normalizeLocale_of_isVoid hvoid]
  refine ⟨hnamed, fun hwhole => ?_, hnamed.symm ▸ hvoid⟩
  exact dot_not_mem_of_isVoid hwhole (List.mem_append_right name List.mem_cons_self)

end Values

section Sieve

variable (hanswer : ∀ fault, env.system ≠ .faulted fault)
include hanswer

theorem locale_eq_choose :
    env.locale required = locale.choose required (env.sources.map usable) := by
  rw [locale, sources]
  cases hsystem : env.system with
  | answered value => rfl
  | refused => rfl
  | faulted fault => exact absurd hsystem (hanswer fault)

/-- The first value that passes is the one that counts. -/
theorem locale_of_first (hsources : env.sources = front ++ some value :: behind)
    (hfront : ∀ source ∈ front, usable source = none) (hvalue : ¬ IsVoid value) :
    env.locale required = .ok (named value) := by
  have hnone : (front.map usable).findSome? (fun x => x) = none := by
    rw [List.findSome?_eq_none_iff]
    exact List.forall_mem_map.2 hfront
  rw [locale_eq_choose hanswer, hsources, List.map_append, List.map_cons,
    usable_of_not_isVoid hvalue, locale.choose, List.findSome?_append, hnone]
  rfl

theorem locale_of_none (hsources : ∀ source ∈ env.sources, usable source = none) :
    env.locale required = if required then .error .undetermined else .ok defaultLocale := by
  have hnone : (env.sources.map usable).findSome? (fun x => x) = none := by
    rw [List.findSome?_eq_none_iff]
    exact List.forall_mem_map.2 hsources
  rw [locale_eq_choose hanswer, locale.choose, hnone]

end Sieve

section Answers

theorem exists_detects (env : Environment φ) (required : Bool) :
    ∃ result, env.Detects required result := by
  rcases forall_or_first (P := IsSilent) env.sources with
    hsilent | ⟨front, source, behind, hsources, hfront, hsource⟩
  · cases required with
    | false => exact ⟨_, .assumed hsilent⟩
    | true => exact ⟨_, .undetermined hsilent⟩
  · cases source with
    | none => exact absurd (by simp [IsSilent]) hsource
    | some value => exact ⟨_, .found hsources hfront (by simpa [IsSilent] using hsource)⟩

/-- A source that names a locale is not among silent ones. -/
theorem not_forall_isSilent (hsources : env.sources = front ++ some value :: behind)
    (hvalue : ¬ IsVoid (named value)) : ¬ ∀ source ∈ env.sources, IsSilent source := by
  intro hsilent
  refine hvalue (hsilent (some value) ?_ value rfl)
  rw [hsources]
  exact List.mem_append_right front List.mem_cons_self

theorem Detects.unique (h : env.Detects required result) (h' : env.Detects required result') :
    result = result' := by
  cases h with
  | found hsources hfront hvalue =>
      cases h' with
      | found hsources' hfront' hvalue' =>
          have hsource := first_unique (hsources.symm.trans hsources') hfront
            (fun h => hvalue (h _ rfl)) hfront' fun h => hvalue' (h _ rfl)
          rw [Option.some.inj hsource]
      | assumed hsilent => exact absurd hsilent (not_forall_isSilent hsources hvalue)
      | undetermined hsilent => exact absurd hsilent (not_forall_isSilent hsources hvalue)
  | assumed hsilent =>
      cases h' with
      | found hsources' _ hvalue' => exact absurd hsilent (not_forall_isSilent hsources' hvalue')
      | assumed _ => rfl
  | undetermined hsilent =>
      cases h' with
      | found hsources' _ hvalue' => exact absurd hsilent (not_forall_isSilent hsources' hvalue')
      | undetermined _ => rfl

theorem Detects.not_isVoid (h : env.Detects required (.ok name)) : ¬ IsVoid name := by
  cases h with
  | found _ _ hvalue => exact hvalue
  | assumed _ => decide

end Answers

section Results

/-- The sources name one answer, and the system gives it unless the first value that passes is
masked.  Then the system answers with nothing or with a pseudo-locale, as it does for any
pseudo-locale that has an encoding. -/
theorem detects_locale_iff (hanswer : ∀ fault, env.system ≠ .faulted fault) :
    (∃! result, env.Detects required result) ∧
      (env.Detects required (env.locale required) ↔ ¬ env.TakesMasked) ∧
      ((∃ name, env.locale required = .ok name ∧ IsVoid name) ↔ env.TakesMasked) ∧
      ∀ front name encoding behind,
        env.sources = front ++ some (name ++ '.' :: encoding) :: behind →
        (∀ source ∈ front, usable source = none) → isPseudoLocale name = true →
          env.TakesMasked ∧ env.locale required = .ok name := by
  have hmasked : env.TakesMasked → ∃ name, env.locale required = .ok name ∧ IsVoid name := by
    rintro ⟨front, value, behind, hsources, hfront, hpasses, hvoid⟩
    exact ⟨named value, locale_of_first hanswer hsources hfront hpasses, hvoid⟩
  have hdetects : ¬ env.TakesMasked → env.Detects required (env.locale required) := by
    intro hnot
    -- what does not pass is silent, and the first value that passes is not masked
    rcases forall_or_first (P := fun source => usable source = none) env.sources with
      hnone | ⟨front, source, behind, hsources, hfront, hsource⟩
    · have hsilent : ∀ source ∈ env.sources, IsSilent source :=
        fun source hsource => isSilent_of_usable (hnone source hsource)
      rw [locale_of_none hanswer hnone]
      cases required with
      | false => exact .assumed hsilent
      | true => exact .undetermined hsilent
    · cases source with
      | none => exact absurd rfl hsource
      | some value =>
          have hpasses : ¬ IsVoid value := mt usable_of_isVoid hsource
          rw [locale_of_first hanswer hsources hfront hpasses]
          exact .found hsources (fun source hsource => isSilent_of_usable (hfront source hsource))
            fun hvoid => hnot ⟨front, value, behind, hsources, hfront, hpasses, hvoid⟩
  have hvoid : env.Detects required (env.locale required) →
      ¬ ∃ name, env.locale required = .ok name ∧ IsVoid name := by
    rintro h ⟨name, hname, hvoid⟩
    exact (hname ▸ h).not_isVoid hvoid
  obtain ⟨answer, hanswers⟩ := exists_detects env required
  refine ⟨⟨answer, hanswers, fun result h => h.unique hanswers⟩, ⟨fun h htakes => ?_, hdetects⟩,
    ⟨fun hname => ?_, hmasked⟩, fun front name encoding behind hsources hfront hname => ?_⟩
  · exact hvoid h (hmasked htakes)
  · by_contra hnot
    exact hvoid (hdetects hnot) hname
  · obtain ⟨hnamed, hmask⟩ := isMasked_append hname encoding
    refine ⟨⟨front, _, behind, hsources, hfront, hmask⟩, ?_⟩
    rw [locale_of_first hanswer hsources hfront hmask.1, hnamed]

/-- A query that is refused, and `POSIX` with an encoding and a modifier before a locale. -/
theorem detects_locale_iff_posix :
    let env : Environment Empty :=
      ⟨.refused, some "C".toList, some "POSIX.UTF-8@euro".toList, some "fr-FR".toList⟩
    env.TakesMasked ∧ env.locale true = .ok "POSIX".toList ∧
      ¬ env.Detects true (env.locale true) := by
  intro env
  have hresults := @detects_locale_iff _ env true (by simp [env])
  have hposix := hresults.2.2.2 [some "C".toList] "POSIX".toList "UTF-8@euro".toList
    [some "fr-FR".toList] rfl (by decide) (by decide)
  exact ⟨hposix.1, hposix.2, fun h => hresults.2.1.1 h hposix.1⟩

/-- The locale is that of the last source, and the answer is the pseudo-locale before it. -/
theorem locale_pseudo_before_locale :
    let env : Environment Empty :=
      ⟨.answered none, some "C.UTF-8".toList, none, some "de_DE.UTF-8".toList⟩
    env.Detects false (.ok "de_DE".toList) ∧ env.locale false = .ok "C".toList := by
  intro env
  have hsources : env.sources =
      [none, some "C.UTF-8".toList, none] ++ some "de_DE.UTF-8".toList :: [] := rfl
  exact ⟨.found hsources (by decide) (by decide), rfl⟩

end Results

end Environment
end Phrasebook
