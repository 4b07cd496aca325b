import Phrasebook.Proofs.Po.Stepping

/-!
# Behind a malformed key

What becomes of the templates of a file when a key of it is malformed.

**Places.**  A template stands at a place: a key, or a category of a key.  A line reaches no place
but the one that a pending value continues and those that it names for the current entry
(`State.step_template?`).
**Values behind a malformed key** belong to the entry in front of it, whose key and mode stay
(`Spares.run`).
**Result.**  `parse_spares`: every template stays but those of the entry in front for which a
value follows.  Such a value takes their place (`parse_malformedKey`).
-/

namespace Phrasebook
namespace Po

open Plural (Formula)

/-- Where a template stands. -/
inductive Place
  | single (key : Text)
  | plural (key : Text) (category : Int)
deriving DecidableEq

section Places

variable {singles : SingleStore} {plurals : PluralStore} {key : Text} {category : Int}
  {place : Place}

/-- The template at a place. -/
def templateAt (singles : SingleStore) (plurals : PluralStore) : Place → Option Text
  | .single key => singles.values.get? key
  | .plural key category => (plurals.plurals.get? key).bind fun templates => templates.get? category

/-- The template that a file has at a place. -/
def File.template? (f : File) : Place → Option Text :=
  templateAt f.singles f.plurals

/-- The template that a state has at a place. -/
def State.template? (s : State) : Place → Option Text :=
  templateAt s.singles s.plurals

theorem templateAt_set (h : place ≠ .single key) (value : Text) :
    templateAt (singles.set key value) plurals place = templateAt singles plurals place := by
  cases place with
  | single other =>
      have hne : key ≠ other := fun he => h (congrArg Place.single he.symm)
      exact (Table.get?_set singles.values key other value).trans (if_neg hne)
  | plural => rfl

theorem templateAt_append (h : place ≠ .single key) (chunk : Text) :
    templateAt (singles.append key chunk) plurals place = templateAt singles plurals place :=
  templateAt_set h _

/-- A change of one category of a key does not reach the other places. -/
theorem templateAt_update (h : place ≠ .plural key category)
    {f : Table Int Text → Table Int Text}
    (hf : ∀ templates other, category ≠ other → (f templates).get? other = templates.get? other) :
    templateAt singles (plurals.update key f) place = templateAt singles plurals place := by
  cases place with
  | single => rfl
  | plural otherKey other =>
      have hget : (plurals.update key f).plurals.get? otherKey =
          if key = otherKey then some (f ((plurals.plurals.get? key).getD Table.empty))
          else plurals.plurals.get? otherKey :=
        Table.get?_modify plurals.plurals key otherKey _
      rw [templateAt, templateAt, hget]
      split
      · rename_i hkey
        subst hkey
        have hne : category ≠ other := by
          rintro rfl
          exact h rfl
        rw [Option.bind_some, hf _ other hne]
        cases plurals.plurals.get? key <;> rfl
      · rfl

theorem templateAt_add (h : place ≠ .plural key category) (value : Text) :
    templateAt singles (plurals.add key category value) place =
      templateAt singles plurals place := by
  refine templateAt_update h fun templates other hne => ?_
  rw [Table.get?_set, if_neg hne]

theorem templateAt_appendPlural (h : place ≠ .plural key category) (chunk : Text) :
    templateAt singles (plurals.append key category chunk) place =
      templateAt singles plurals place := by
  refine templateAt_update h fun templates other hne => ?_
  rw [Table.get?_modify, if_neg hne]

end Places

section Steps

variable {s t : State} {line : Text} {place : Place}

/-- The place that a pending value continues. -/
def State.target? (s : State) : Option Place :=
  match s.pending with
  | .value _ => some (.single s.key)
  | .pluralValue category => some (.plural s.key category)
  | .nothing | .key | .header => none

/-- Does the line, as a value of the current entry, stand for the place? -/
def State.Names (s : State) (line : Text) : Place → Prop
  | .single key => line.startsWith valueWord = true ∧ s.isPlural = false ∧ key = s.key
  | .plural key category =>
      line.startsWith valueWord = true ∧ s.isPlural = true ∧ key = s.key ∧
        ∃ n : Nat, Po.category line = .ok n ∧ category = n

theorem State.addField_template? (place : Place) :
    Leads (fun t => t.template? place = s.template? place) (s.addField line) := by
  refine (s.addField_leads line).mono ?_
  rintro t ⟨headers, rfl⟩
  rfl

theorem State.setFormula_template? [Machine] (place : Place) :
    Leads (fun t => t.template? place = s.template? place) (s.setFormula line) := by
  refine (s.setFormula_leads line).mono ?_
  rintro t ⟨formula, headers, rfl⟩
  cases place <;> rfl

theorem State.continueWith_template? (htarget : place ∉ s.target?) :
    Leads (fun t => t.template? place = s.template? place) (s.continueWith line) := by
  rw [target?, Option.mem_def] at htarget
  unfold continueWith
  split
  · exact .accept rfl
  · exact .withFound rfl fun _ _ => .accept rfl
  · rename_i hpending
    rw [hpending] at htarget
    exact .withFound rfl fun chunk _ =>
      .accept (templateAt_append (fun he => htarget (congrArg some he.symm)) chunk)
  · rename_i hpending
    rw [hpending] at htarget
    exact .withFound rfl fun chunk _ =>
      .accept (templateAt_set (fun he => htarget (congrArg some he.symm)) chunk)
  · rename_i category hpending
    rw [hpending] at htarget
    exact .withFound rfl fun chunk _ =>
      .accept (templateAt_appendPlural (fun he => htarget (congrArg some he.symm)) chunk)
  · exact addField_template? place

theorem State.startValue_template? (hvalue : line.startsWith valueWord = true)
    (hnames : ¬ s.Names line place) :
    Leads (fun t => t.template? place = s.template? place) (s.startValue line) := by
  unfold startValue
  split
  · rename_i hplural
    refine .withFound rfl fun category hcategory => .withFound rfl fun value _ => ?_
    refine .accept (templateAt_add ?_ value)
    rintro rfl
    exact hnames ⟨hvalue, hplural, rfl, category, hcategory, rfl⟩
  · rename_i hplural
    refine .withFound rfl fun value _ => ?_
    split
    · exact .accept rfl
    · refine .accept (templateAt_set ?_ value)
      rintro rfl
      exact hnames ⟨hvalue, Bool.eq_false_iff.2 hplural, rfl⟩

theorem State.startEmptyValue_template? (s : State) (place : Place) :
    s.startEmptyValue.template? place = s.template? place := by
  unfold startEmptyValue
  split
  · rfl
  · split <;> rfl

/-- A line changes no template but the one that it continues and those that it names. -/
theorem State.step_template? [Machine] (htarget : place ∉ s.target?)
    (hnames : ¬ s.Names line place) :
    Leads (fun t => t.template? place = s.template? place) (s.step line) := by
  rw [step_eq_stepAs]
  cases hkind : LineKind.of line with
  | blank | comment | emptyKey | context => exact .accept rfl
  | unknown =>
      intro t problem ht
      cases ht
      rfl
  | emptyValue => exact .accept (s.startEmptyValue_template? place)
  | formula => exact setFormula_template? place
  | continuation => exact continueWith_template? htarget
  | key => exact .withFound rfl fun _ _ => .accept rfl
  | value => exact startValue_template? (LineKind.startsWith_valueWord hkind) hnames

end Steps

section Entries

variable {s t u : State} {line : Text} {place : Place} {behind : List Text}

/-- Is the line the beginning or the continuation of a value? -/
def IsValueLine (line : Text) : Prop :=
  line.startsWith valueWord = true ∨ line.head? = some '"'

/-- Does the second state stand in the entry of the first one, and continue no value but one that
the first state continues or the line names? -/
structure KeepsEntry (s : State) (line : Text) (t : State) : Prop where
  key_eq : t.key = s.key
  isPlural_eq : t.isPlural = s.isPlural
  pending_ne_key : t.pending ≠ .key
  target : ∀ place ∈ t.target?, place ∈ s.target? ∨ s.Names line place

theorem KeepsEntry.refl (hpending : s.pending ≠ .key) : KeepsEntry s line s :=
  ⟨rfl, rfl, hpending, fun _ hplace => .inl hplace⟩

theorem KeepsEntry.addField (h : KeepsEntry s line t) :
    Leads (KeepsEntry s line) (t.addField line) := by
  refine (t.addField_leads line).mono ?_
  rintro u ⟨headers, rfl⟩
  exact ⟨h.1, h.2, h.3, h.4⟩

theorem KeepsEntry.setFormula [Machine] (hpending : s.pending ≠ .key) :
    Leads (KeepsEntry s line) (s.setFormula line) := by
  refine (s.setFormula_leads line).mono ?_
  rintro t ⟨formula, headers, rfl⟩
  exact ⟨rfl, rfl, hpending, fun _ hplace => .inl hplace⟩

theorem KeepsEntry.continueWith (hpending : s.pending ≠ .key) :
    Leads (KeepsEntry s line) (s.continueWith line) := by
  have hrefl : KeepsEntry s line s := .refl hpending
  unfold State.continueWith
  split
  · exact .accept hrefl
  · rename_i hkey
    exact absurd hkey hpending
  · exact .withFound hrefl fun _ _ => .accept ⟨rfl, rfl, hpending, fun _ hplace => .inl hplace⟩
  · rename_i hvalue
    refine .withFound hrefl fun _ _ => .accept ⟨rfl, rfl, nofun, fun place hplace => .inl ?_⟩
    rwa [State.target?, hvalue]
  · exact .withFound hrefl fun _ _ => .accept ⟨rfl, rfl, hpending, fun _ hplace => .inl hplace⟩
  · exact hrefl.addField

theorem KeepsEntry.startEmptyValue (hvalue : line.startsWith valueWord = true) :
    KeepsEntry s line s.startEmptyValue := by
  unfold State.startEmptyValue
  split
  · exact ⟨rfl, rfl, nofun, nofun⟩
  · split
    · exact ⟨rfl, rfl, nofun, nofun⟩
    · rename_i hplural
      refine ⟨rfl, rfl, nofun, fun place hplace => .inr ?_⟩
      cases hplace
      exact ⟨hvalue, Bool.eq_false_iff.2 hplural, rfl⟩

theorem KeepsEntry.startValue (hpending : s.pending ≠ .key)
    (hvalue : line.startsWith valueWord = true) :
    Leads (KeepsEntry s line) (s.startValue line) := by
  have hrefl : KeepsEntry s line s := .refl hpending
  unfold State.startValue
  split
  · rename_i hplural
    refine .withFound hrefl fun category hcategory => .withFound hrefl fun _ _ => ?_
    refine .accept ⟨rfl, rfl, nofun, fun place hplace => .inr ?_⟩
    cases hplace
    exact ⟨hvalue, hplural, rfl, category, hcategory, rfl⟩
  · rename_i hplural
    refine .withFound hrefl fun _ _ => ?_
    split
    · exact .accept ⟨rfl, rfl, nofun, nofun⟩
    · refine .accept ⟨rfl, rfl, nofun, fun place hplace => .inr ?_⟩
      cases hplace
      exact ⟨hvalue, Bool.eq_false_iff.2 hplural, rfl⟩

/-- A line of a value stays in the entry, unless it continues a key. -/
theorem KeepsEntry.step [Machine] (hpending : s.pending ≠ .key) (hline : IsValueLine line) :
    Leads (KeepsEntry s line) (s.step line) := by
  rw [State.step_eq_stepAs]
  rcases hline with hvalue | hquote
  · rcases LineKind.of_value hvalue with hkind | hkind
    · rw [hkind]
      exact .accept (.startEmptyValue hvalue)
    · rw [hkind]
      exact .startValue hpending hvalue
  · rcases LineKind.of_quote hquote with hkind | hkind
    · rw [hkind]
      exact .setFormula hpending
    · rw [hkind]
      exact .continueWith hpending

/-- What lines of values spare: the key and the mode of the entry, and all templates at places
that none of the lines names. -/
structure Spares (behind : List Text) (s t : State) : Prop where
  key_eq : t.key = s.key
  isPlural_eq : t.isPlural = s.isPlural
  pending_ne_key : t.pending ≠ .key
  target : ∀ place ∈ t.target?, ∃ content ∈ behind, s.Names (Text.trim content) place
  template : ∀ place, (∀ content ∈ behind, ¬ s.Names (Text.trim content) place) →
    t.template? place = s.template? place

theorem Spares.refl_interrupted (behind : List Text) (s : State) :
    Spares behind s s.interrupted :=
  ⟨rfl, rfl, nofun, nofun, fun _ _ => rfl⟩

theorem Spares.beyond (h : Spares behind s t) (problem : Option Problem) :
    Spares behind s (t.beyond problem) := by
  cases problem with
  | none => exact h
  | some _ => exact ⟨h.1, h.2, nofun, nofun, h.5⟩

theorem Spares.names_iff (h : Spares behind s t) : t.Names line place ↔ s.Names line place := by
  cases place <;> simp only [State.Names, h.key_eq, h.isPlural_eq]

theorem Spares.step [Machine] (h : Spares behind s t) {content : Text} (hmem : content ∈ behind)
    (hline : IsValueLine (Text.trim content)) :
    Leads (Spares behind s) (t.step (Text.trim content)) := by
  intro u problem hstep
  have hkeeps := KeepsEntry.step h.pending_ne_key hline u problem hstep
  refine ⟨hkeeps.key_eq.trans h.key_eq, hkeeps.isPlural_eq.trans h.isPlural_eq,
    hkeeps.pending_ne_key, fun place hplace => ?_, fun place hunnamed => ?_⟩
  · rcases hkeeps.target place hplace with htarget | hnames
    · exact h.target place htarget
    · exact ⟨content, hmem, h.names_iff.1 hnames⟩
  · have htarget : place ∉ t.target? := by
      intro hplace
      obtain ⟨other, hother, hnames⟩ := h.target place hplace
      exact hunnamed other hother hnames
    have hnames : ¬ t.Names (Text.trim content) place :=
      fun hnames => hunnamed content hmem (h.names_iff.1 hnames)
    exact (State.step_template? htarget hnames u problem hstep).trans (h.template place hunnamed)

theorem Spares.run [Machine] {r : Reading} (hr : r.strict = false) {number : Nat}
    {lines : List Text} {junk : List JunkLine} (h : Spares behind s t)
    (hlines : ∀ content ∈ lines, content ∈ behind ∧ IsValueLine (Text.trim content))
    (hrun : r.run number t lines = .ok (u, junk)) : Spares behind s u := by
  induction lines generalizing number t junk with
  | nil =>
      cases hrun
      exact h
  | cons content lines ih =>
      obtain ⟨⟨hmem, hline⟩, hrest⟩ := List.forall_mem_cons.1 hlines
      obtain ⟨next, problem, rest, hstep, hbehind, rfl⟩ := (Reading.run_cons_eq_ok_iff hr).1 hrun
      exact ih ((h.step hmem hline next problem hstep).beyond problem) hrest hbehind

end Entries

section Recovery

variable {r : Reading} {formula : Formula} {front behind : List Text} {line : Text}
  {before after : File}

/-- A key line without quotes is malformed in every state. -/
theorem State.step_malformedKey [Machine] (s : State) (hkey : line.startsWith keyWord = true)
    (hmalformed : payload line = .error (.malformed .noQuotedString)) :
    s.step line = .ok (s, some .noQuotedString) := by
  have hne : line ≠ emptyKeyLine := by
    rintro rfl
    exact nomatch hmalformed
  obtain ⟨isPlural, hkind⟩ := LineKind.of_key hkey hne
  rw [step_eq_stepAs, hkind, stepAs, startKey, hmalformed]
  rfl

/-- Behind a malformed key, values change no template of the entries in front but those that they
name as values of the last one of these entries. -/
theorem parse_spares [Machine] (hr : r.strict = false)
    (hkey : (Text.trim line).startsWith keyWord = true)
    (hmalformed : payload (Text.trim line) = .error (.malformed .noQuotedString))
    (hvalues : ∀ content ∈ behind, IsValueLine (Text.trim content))
    (hbefore : File.parse r formula front = .ok before)
    (hafter : File.parse r formula (front ++ line :: behind) = .ok after) :
    ∃ s : State, (∃ junk, r.run 1 (State.initial formula) front = .ok (s, junk)) ∧
      ∀ place, (∀ content ∈ behind, ¬ s.Names (Text.trim content) place) →
        after.template? place = before.template? place := by
  unfold File.parse at hbefore hafter
  rw [Reading.run_append hr] at hafter
  cases hfront : r.run 1 (State.initial formula) front with
  | error e =>
      rw [hfront] at hbefore
      cases hbefore
  | ok first =>
      obtain ⟨s, junk⟩ := first
      rw [hfront] at hbefore hafter
      cases hbefore
      refine ⟨s, ⟨junk, rfl⟩, fun place hunnamed => ?_⟩
      have hstep := s.step_malformedKey hkey hmalformed
      simp only [Except.bind, Reading.run_cons_of_ok hr hstep] at hafter
      cases hbehind : r.run (1 + front.length + 1) s.interrupted behind with
      | error e =>
          rw [State.beyond, hbehind] at hafter
          cases hafter
      | ok second =>
          rw [State.beyond, hbehind] at hafter
          cases hafter
          have hspares : Spares behind s second.1 :=
            (Spares.refl_interrupted behind s).run hr
              (fun content hmem => ⟨hmem, hvalues content hmem⟩) hbehind
          exact hspares.template place hunnamed

/-- A value of a category that is not there yet changes neither the other category of the key nor
the entry in front. -/
theorem parse_spares_category :
    let front := ["msgid \"a\"", "msgstr \"x\"", "msgid_plural \"p\"", "msgstr[0] \"y\""].map
      String.toList
    let behind := ["msgstr[1] \"z\"", "\"zz\"", "msgstr none"].map String.toList
    ∃ before after, File.parse ⟨false, none⟩ .empty front = .ok before ∧
      File.parse ⟨false, none⟩ .empty (front ++ "msgid bad".toList :: behind) = .ok after ∧
      after.template? (.single ['a']) = before.template? (.single ['a']) ∧
      after.template? (.plural ['p'] 0) = before.template? (.plural ['p'] 0) := by
  intro front behind
  obtain ⟨before, hbefore⟩ : ∃ before, File.parse ⟨false, none⟩ .empty front = .ok before :=
    ⟨_, rfl⟩
  obtain ⟨after, hafter⟩ : ∃ after,
      File.parse ⟨false, none⟩ .empty (front ++ "msgid bad".toList :: behind) = .ok after :=
    ⟨_, rfl⟩
  have hvalues : ∀ content ∈ behind, IsValueLine (Text.trim content) := by
    unfold IsValueLine
    decide
  obtain ⟨s, ⟨junk, hrun⟩, h⟩ := parse_spares rfl rfl rfl hvalues hbefore hafter
  have hplural : s.isPlural = true := by
    cases hrun
    rfl
  have hcategory : ∀ content ∈ behind, (Po.category (Text.trim content)).toOption ≠ some 0 := by
    decide
  refine ⟨before, after, hbefore, hafter, h _ fun content _ hnames => ?_,
    h _ fun content hmem hnames => ?_⟩
  · exact absurd (hplural.symm.trans hnames.2.1) (by decide)
  · obtain ⟨-, -, -, n, hn, hzero⟩ := hnames
    obtain rfl : n = 0 := by omega
    exact hcategory content hmem (congrArg Except.toOption hn)

/-- A value behind a malformed key takes the place of the value in front of the key. -/
theorem parse_malformedKey :
    let front := ["msgid \"a\"", "msgstr \"x\""].map String.toList
    let behind := ["msgstr \"over\""].map String.toList
    ∃ before after, File.parse ⟨false, none⟩ .empty front = .ok before ∧
      File.parse ⟨false, none⟩ .empty (front ++ "msgid bad".toList :: behind) = .ok after ∧
      after.junk.map JunkLine.lineNumber = [3] ∧
      before.template? (.single ['a']) = some ['x'] ∧
      after.template? (.single ['a']) = some "over".toList := by
  exact ⟨_, _, rfl, rfl, rfl, rfl, rfl⟩

end Recovery

end Po
end Phrasebook
