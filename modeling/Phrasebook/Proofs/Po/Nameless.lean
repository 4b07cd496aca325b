import Phrasebook.Proofs.Po.Writing

/-!
# Entries without a key

Which keys the stores of a file have, and how the empty one comes among them.

**Keys.**  A line adds the key for which it registers a value (`State.IsSound.mem_keys_step`), so
that a file has the keys for which some line does (`File.mem_keys_iff`).  A value without a category
is registered for a key that is not empty, one of a category for whatever key there is
(`State.registers_plural_iff`).
**Entries.**  A line that begins no entry stays in that of the state (`StaysIn.step`), whose key can
only become longer.
**Result.**  `File.emptyKey_iff`: no single value has the empty key, and plural values have it
exactly if the value of a category stands in an entry of plural values without a key.
-/

namespace Phrasebook
namespace Po

open Plural (Formula)

/-- Does a place belong to an entry of plural values? -/
def Place.isPlural : Place → Bool
  | .single _ => false
  | .plural _ _ => true

/-- The keys of the plural values, or those of the others. -/
def State.keys (s : State) : Bool → List Text
  | true => s.plurals.plurals.keys
  | false => s.singles.values.keys

/-- Does a line register a value for the key? -/
def State.Registers (s : State) (line : Text) (isPlural : Bool) (key : Text) : Prop :=
  ∃ place value, s.write? line = some (.register place value) ∧
    place.isPlural = isPlural ∧ place.key = key

/-- Does one of the lines of a reading meet a state of which the property holds? -/
def Reading.Meets [Machine] (r : Reading) (number : Nat) (s : State) (lines : List Text)
    (p : State → Text → Prop) : Prop :=
  ∃ (front : List Text) (content : Text) (behind : List Text) (t : State) (junk : List JunkLine),
    lines = front ++ content :: behind ∧ r.run number s front = .ok (t, junk) ∧
      p t (Text.trim content)

section Keys

variable {s t : State} {line key value : Text} {place : Place} {isPlural : Bool}

theorem SameStores.keys (h : SameStores s t) (isPlural : Bool) :
    s.keys isPlural = t.keys isPlural := by
  cases isPlural with
  | true => exact congrArg Table.keys h.plurals
  | false => exact congrArg (fun store : SingleStore => store.values.keys) h.singles

theorem mem_keys_register (s : State) (place : Place) (value : Text) :
    key ∈ (Write.perform s (.register place value)).keys isPlural ↔
      (place.isPlural = isPlural ∧ place.key = key) ∨ key ∈ s.keys isPlural := by
  cases place with
  | single other =>
      cases isPlural with
      | true => simp [Place.isPlural, Write.perform, State.keys]
      | false =>
          refine (Table.mem_keys_set s.singles.values other key value).trans ?_
          simp [Place.isPlural, Place.key, State.keys, eq_comm]
  | plural other category =>
      cases isPlural with
      | true =>
          refine (Table.mem_keys_set s.plurals.plurals other key _).trans ?_
          simp [Place.isPlural, Place.key, State.keys, eq_comm]
      | false => simp [Place.isPlural, Write.perform, State.keys]

theorem keys_perform_extend (h : s.template? place = some value) (chunk : Text) (isPlural : Bool) :
    (Write.perform s (.extend place chunk)).keys isPlural = s.keys isPlural := by
  cases isPlural with
  | true => exact (keys_extend h chunk).2
  | false => exact (keys_extend h chunk).1

/-- The template that a continuation goes on with is there. -/
theorem State.IsSound.exists_template? (h : s.IsSound) (hplace : place ∈ s.begun?) :
    ∃ value, s.template? place = some value := by
  rw [State.begun?] at hplace
  split at hplace
  · rename_i hpending
    cases hplace
    exact Option.isSome_iff_exists.1 (h.started hpending)
  · rename_i category hpending
    cases hplace
    exact Option.isSome_iff_exists.1 (h.pluralValue category hpending).2
  all_goals cases hplace

/-- The keys behind a line are those in front of it and that for which it registers a value. -/
theorem State.IsSound.mem_keys_step [Machine] (h : s.IsSound) (line key : Text) (isPlural : Bool) :
    Leads (fun t => key ∈ t.keys isPlural ↔ s.Registers line isPlural key ∨ key ∈ s.keys isPlural)
      (s.step line) := by
  refine (ComesBy.step s line).mono fun t hcomes => ?_
  have hstores := hcomes.stores.keys isPlural
  rw [← hstores, State.Registers]
  cases hwrite : s.write? line with
  | none => simp
  | some w =>
      cases w with
      | register place value =>
          refine (mem_keys_register s place value).trans ?_
          simp
      | extend place chunk =>
          obtain ⟨value, hvalue⟩ := h.exists_template? (State.step_of_extend hwrite).1
          have hkeys := keys_perform_extend hvalue chunk isPlural
          simp [hkeys]

/-- A template is registered by a value line, or by the first chunk behind `msgstr ""`. -/
theorem State.write?_eq_register_iff :
    s.write? line = some (.register place value) ↔
      payload line = .ok value ∧
        ((LineKind.of line = .value ∧ s.named? line = some place) ∨
          (LineKind.of line = .continuation ∧ s.pending = .value false ∧
            place = .single s.key)) := by
  rw [State.write?]
  cases hkind : LineKind.of line with
  | value =>
      cases s.named? line <;> cases payload line <;> simp [Except.toOption, and_comm]
  | continuation =>
      obtain ⟨singles, plurals, headers, key, isPlural, pending⟩ := s
      rcases pending with _ | _ | (_ | _) | _ | _ <;> cases payload line <;>
        simp [State.chunkWrite?, State.begun?, Except.toOption, eq_comm, and_comm]
  | _ => simp

/-- A value of a category is registered for the key of its entry, whatever that is. -/
theorem State.registers_plural_iff :
    s.Registers line true key ↔
      s.isPlural = true ∧ s.key = key ∧ LineKind.of line = .value ∧
        (∃ number, category line = .ok number) ∧ ∃ value, payload line = .ok value := by
  constructor
  · rintro ⟨place, value, hwrite, hplural, hkey⟩
    obtain ⟨hpayload, ⟨hkind, hnamed⟩ | ⟨-, -, rfl⟩⟩ := State.write?_eq_register_iff.1 hwrite
    · rw [State.named?] at hnamed
      split at hnamed
      · rename_i hmode
        obtain ⟨number, hnumber, rfl⟩ := Option.map_eq_some_iff.1 hnamed
        exact ⟨hmode, hkey, hkind, ⟨number, toOption_eq_some_iff.1 hnumber⟩, value, hpayload⟩
      · split at hnamed <;> cases hnamed
        cases hplural
    · cases hplural
  · rintro ⟨hplural, rfl, hkind, ⟨number, hnumber⟩, value, hvalue⟩
    have hnamed : s.named? line = some (.plural s.key number) := by
      rw [State.named?, if_pos hplural, hnumber]
      rfl
    have hwrite := State.write?_eq_register_iff.2 ⟨hvalue, .inl ⟨hkind, hnamed⟩⟩
    exact ⟨.plural s.key number, value, hwrite, rfl, rfl⟩

/-- A value without a category is not registered for the empty key. -/
theorem State.IsSound.not_registers_nil (h : s.IsSound) (line : Text) :
    ¬ s.Registers line false [] := by
  rintro ⟨place, value, hwrite, hplural, hkey⟩
  obtain ⟨-, ⟨-, hnamed⟩ | ⟨-, hpending, rfl⟩⟩ := State.write?_eq_register_iff.1 hwrite
  · rw [State.named?] at hnamed
    split at hnamed
    · obtain ⟨number, -, rfl⟩ := Option.map_eq_some_iff.1 hnamed
      cases hplural
    · split at hnamed
      · cases hnamed
      · rename_i hfilled
        cases hnamed
        exact hfilled (List.isEmpty_iff.2 hkey)
  · exact (h.value false hpending).1 hkey

end Keys

section Entries

variable {s : State} {line : Text}

/-- Does the second state stand in the entry of the first one, whose key may have become longer? -/
structure StaysIn (s t : State) : Prop where
  isPlural_eq : t.isPlural = s.isPlural
  key_prefix : s.key <+: t.key

theorem StaysIn.refl (s : State) : StaysIn s s :=
  ⟨rfl, List.prefix_rfl⟩

theorem StaysIn.startEmptyValue (s : State) : StaysIn s s.startEmptyValue := by
  unfold State.startEmptyValue
  split
  · exact ⟨rfl, List.prefix_rfl⟩
  · split <;> exact ⟨rfl, List.prefix_rfl⟩

theorem StaysIn.startValue (s : State) (line : Text) : Leads (StaysIn s) (s.startValue line) := by
  unfold State.startValue
  split
  · exact .withFound (.refl s) fun _ _ =>
      .withFound (.refl s) fun _ _ => .accept ⟨rfl, List.prefix_rfl⟩
  · refine .withFound (.refl s) fun _ _ => ?_
    split <;> exact .accept ⟨rfl, List.prefix_rfl⟩

theorem StaysIn.extended (s : State) (chunk : Text) : StaysIn s (s.extended chunk) := by
  refine ⟨s.extended_isPlural chunk, ?_⟩
  by_cases hkey : s.pending = .key
  · rw [State.extended, hkey]
    exact List.prefix_append s.key chunk
  · exact ⟨[], (List.append_nil s.key).trans (State.extended_key hkey chunk).symm⟩

variable [Machine]

/-- A line that begins no entry stays in that of the state. -/
theorem StaysIn.step (hempty : LineKind.of line ≠ .emptyKey)
    (hkey : ∀ isPlural, LineKind.of line ≠ .key isPlural) : Leads (StaysIn s) (s.step line) := by
  rw [State.step_eq_stepAs]
  cases hkind : LineKind.of line with
  | blank | comment | context => exact .accept ⟨rfl, List.prefix_rfl⟩
  | emptyKey => exact absurd hkind hempty
  | emptyValue => exact .accept (.startEmptyValue s)
  | formula =>
      refine (s.setFormula_leads line).mono ?_
      rintro t ⟨formula, headers, rfl⟩
      exact ⟨rfl, List.prefix_rfl⟩
  | continuation =>
      rw [State.stepAs, State.continueWith_eq]
      split
      · exact .accept (.refl s)
      · refine (s.addField_leads line).mono ?_
        rintro t ⟨headers, rfl⟩
        exact ⟨rfl, List.prefix_rfl⟩
      · exact .withFound (.refl s) fun chunk _ => .accept (.extended s chunk)
  | key isPlural => exact absurd hkind (hkey isPlural)
  | value => exact .startValue s line
  | unknown =>
      intro t problem ht
      cases ht
      exact .refl s

/-- Has the entry of a state plural values, but no key? -/
def State.IsNameless (s : State) : Prop :=
  s.isPlural = true ∧ s.key = []

/-- Only a line that begins an entry of plural values makes a state nameless. -/
theorem State.isNameless_step (s : State) (line : Text) :
    Leads (fun t => t.IsNameless →
      s.IsNameless ∨ line.startsWith pluralKeyWord = true ∧ payload line = .ok [])
      (s.step line) := by
  cases hkind : LineKind.of line with
  | emptyKey =>
      rw [State.step_eq_stepAs, hkind]
      exact .accept fun h => nomatch h.1
  | key isPlural =>
      rw [State.step_eq_stepAs, hkind]
      refine .withFound .inl fun key hkey => .accept ?_
      rintro ⟨rfl, rfl⟩
      exact .inr ⟨LineKind.startsWith_pluralKeyWord hkind, hkey⟩
  | _ =>
      refine (StaysIn.step (by simp [hkind]) (by simp [hkind])).mono fun t hstays h => .inl ⟨?_, ?_⟩
      · exact hstays.isPlural_eq.symm.trans h.1
      · exact List.prefix_nil.1 (h.2 ▸ hstays.key_prefix)

end Entries

section Runs

variable {r : Reading} {number : Nat} {s t : State} {lines : List Text} {junk : List JunkLine}
  {key : Text} {isPlural : Bool} {p : State → Text → Prop}

theorem Reading.not_meets_nil [Machine] : ¬ r.Meets number s [] p := by
  rintro ⟨front, content, behind, t, junk, hlines, -⟩
  simp at hlines

/-- The first line meets the state in front of it, and the others what comes of it. -/
theorem Reading.meets_cons [Machine] (hr : r.strict = false) {content : Text} {next : State}
    {problem : Option Problem} (h : s.step (Text.trim content) = .ok (next, problem)) :
    r.Meets number s (content :: lines) p ↔
      p s (Text.trim content) ∨ r.Meets (number + 1) (next.beyond problem) lines p := by
  constructor
  · rintro ⟨front, found, behind, t, junk, hlines, hrun, hp⟩
    cases front with
    | nil =>
        cases hlines
        cases hrun
        exact .inl hp
    | cons first front =>
        cases hlines
        obtain ⟨u, problem', rest, hstep, hrun, -⟩ := (run_cons_eq_ok_iff hr).1 hrun
        rw [h] at hstep
        cases hstep
        exact .inr ⟨front, found, behind, t, rest, rfl, hrun, hp⟩
  · rintro (hp | ⟨front, found, behind, t, rest, rfl, hrun, hp⟩)
    · exact ⟨[], content, lines, s, [], rfl, rfl, hp⟩
    · exact ⟨content :: front, found, behind, t, _, rfl,
        (run_cons_eq_ok_iff hr).2 ⟨next, problem, rest, h, hrun, rfl⟩, hp⟩

theorem State.keys_beyond (s : State) (problem : Option Problem) (isPlural : Bool) :
    (s.beyond problem).keys isPlural = s.keys isPlural := by
  cases problem <;> cases isPlural <;> rfl

/-- The keys behind a run are those in front of it and those for which some line registers a
value. -/
theorem Reading.mem_keys_run [Machine] (hr : r.strict = false) (hs : s.IsSound)
    (h : r.run number s lines = .ok (t, junk)) (isPlural : Bool) (key : Text) :
    key ∈ t.keys isPlural ↔
      r.Meets number s lines (fun u line => u.Registers line isPlural key) ∨
        key ∈ s.keys isPlural := by
  induction lines generalizing number s junk with
  | nil =>
      cases h
      simp [not_meets_nil]
  | cons content lines ih =>
      obtain ⟨next, problem, rest, hstep, hrun, -⟩ := (run_cons_eq_ok_iff hr).1 h
      have hsound : (next.beyond problem).IsSound := (hs.step next problem hstep).beyond problem
      have hkeys : key ∈ next.keys isPlural ↔
          s.Registers (Text.trim content) isPlural key ∨ key ∈ s.keys isPlural :=
        hs.mem_keys_step (Text.trim content) key isPlural next problem hstep
      rw [ih hsound hrun, State.keys_beyond, hkeys, meets_cons hr hstep, ← or_assoc]
      exact or_congr_left or_comm

theorem Reading.isNameless_run [Machine] (hr : r.strict = false)
    (h : r.run number s lines = .ok (t, junk)) (ht : t.IsNameless) :
    s.IsNameless ∨ ∃ content ∈ lines, (Text.trim content).startsWith pluralKeyWord = true ∧
      payload (Text.trim content) = .ok [] := by
  induction lines generalizing number s junk with
  | nil =>
      cases h
      exact .inl ht
  | cons content lines ih =>
      obtain ⟨next, problem, rest, hstep, hrun, -⟩ := (run_cons_eq_ok_iff hr).1 h
      rcases ih hrun with hnext | ⟨other, hother, hopens⟩
      · have hbefore : next.IsNameless := by
          cases problem <;> exact hnext
        rcases s.isNameless_step (Text.trim content) next problem hstep hbefore with hs | hopens
        · exact .inl hs
        · exact .inr ⟨content, List.mem_cons_self, hopens⟩
      · exact .inr ⟨other, List.mem_cons_of_mem content hother, hopens⟩

end Runs

section Results

variable {path : Option Text} {formula : Formula} {lines : List Text} {file : File}

/-- The keys of a file are those for which some line registers a value. -/
theorem File.mem_keys_iff [Machine] (h : File.parse ⟨false, path⟩ formula lines = .ok file)
    (key : Text) :
    (file.singles.has key = true ↔ Reading.Meets ⟨false, path⟩ 1 (State.initial formula) lines
      fun s line => s.Registers line false key) ∧
    (file.plurals.has key = true ↔ Reading.Meets ⟨false, path⟩ 1 (State.initial formula) lines
      fun s line => s.Registers line true key) := by
  obtain ⟨⟨t, junk⟩, hrun, rfl⟩ := map_eq_ok_iff.1 h
  have hkeys := Reading.mem_keys_run rfl (State.isSound_initial formula) hrun
  have hnone : ∀ isPlural, key ∉ (State.initial formula).keys isPlural := by
    intro isPlural
    cases isPlural <;> exact List.not_mem_nil
  constructor
  · exact (Table.has_iff_mem_keys _).trans ((hkeys false key).trans (or_iff_left (hnone false)))
  · exact (Table.has_iff_mem_keys _).trans ((hkeys true key).trans (or_iff_left (hnone true)))

/-- No single value has the empty key.  Plural values have it exactly if the value of a category
stands in an entry of plural values that has no key, which is never so without a line `msgid_plural`
with an empty text. -/
theorem File.emptyKey_iff [Machine] (h : File.parse ⟨false, path⟩ formula lines = .ok file) :
    file.singles.has [] = false ∧
      (file.plurals.has [] = true ↔ Reading.Meets ⟨false, path⟩ 1 (State.initial formula) lines
        fun s line => s.IsNameless ∧ LineKind.of line = .value ∧
          (∃ number, category line = .ok number) ∧ ∃ value, payload line = .ok value) ∧
      ((∀ content ∈ lines, (Text.trim content).startsWith pluralKeyWord = true →
          payload (Text.trim content) ≠ .ok []) → file.plurals.has [] = false) := by
  obtain ⟨hsingles, hplurals⟩ := File.mem_keys_iff h []
  simp only [State.registers_plural_iff] at hplurals
  refine ⟨Bool.eq_false_iff.2 fun hhas => ?_, ?_, fun hnamed => Bool.eq_false_iff.2 fun hhas => ?_⟩
  · obtain ⟨front, content, behind, s, junk, -, hrun, hregisters⟩ := hsingles.1 hhas
    exact ((State.isSound_initial formula).run rfl hrun).not_registers_nil _ hregisters
  · simpa only [State.IsNameless, and_assoc] using hplurals
  · obtain ⟨front, content, behind, s, junk, rfl, hrun, hplural, hkey, -⟩ := hplurals.1 hhas
    have hopens := Reading.isNameless_run rfl hrun ⟨hplural, hkey⟩
    rcases hopens with hinitial | ⟨opening, hmem, hword, hempty⟩
    · exact nomatch hinitial.1
    · exact hnamed opening (List.mem_append_left _ hmem) hword hempty

/-- A header of two lines and one whose value is on one line, with an entry of plural values
between. -/
theorem File.emptyKey_iff_header :
    let lines := ["msgid \"\"", "msgstr \"\"", "\"Language: fr\\n\"", "msgid_plural \"p\"",
      "msgstr[0] \"x\"", "msgid \"\"", "msgstr \"y\""].map String.toList
    ∃ file, File.parse ⟨false, none⟩ .empty lines = .ok file ∧
      file.singles.has [] = false ∧ file.plurals.has [] = false ∧
        file.plurals.has ['p'] = true := by
  intro lines
  obtain ⟨file, hfile⟩ : ∃ file, File.parse ⟨false, none⟩ .empty lines = .ok file := ⟨_, rfl⟩
  obtain ⟨hsingles, -, hplurals⟩ := File.emptyKey_iff hfile
  have hnamed : ∀ content ∈ lines, (Text.trim content).startsWith pluralKeyWord = true →
      payload (Text.trim content) ≠ .ok [] := by
    simp only [ne_eq, ← toOption_eq_some_iff]
    decide
  refine ⟨file, hfile, hsingles, hplurals hnamed, ?_⟩
  cases hfile
  rfl

/-- The values of an entry of plural values without a key are not left out. -/
theorem parse_emptyPluralKey :
    let lines := ["msgid_plural \"\"", "msgstr[0] \"x\""].map String.toList
    ∃ file, File.parse ⟨false, none⟩ .empty lines = .ok file ∧ file.plurals.has [] = true ∧
      file.template? (.plural [] 0) = some ['x'] :=
  ⟨_, rfl, rfl, rfl⟩

end Results

end Po
end Phrasebook
