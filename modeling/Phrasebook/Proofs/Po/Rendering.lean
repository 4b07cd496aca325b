import Phrasebook.Proofs.Number.Reading
import Phrasebook.Proofs.Po.Directives
import Phrasebook.Proofs.Tables
import Phrasebook.Proofs.Text.Escaping

/-!
# Reading back a rendered file

**Rendering.**  An entry is written as directives, one a line: its key, and its value or its
values by category, each between quotes with its characters escaped.
**Gaps.**  Blank lines and comments may stand between the lines (`Padded`).
**Invariant.**  A directive leaves the same state behind whatever a state continues, so that
gaps do not show.
**Result.**  `parse_render`: reading the lines gives back the entries.
-/

namespace Phrasebook
namespace Po

open Plural (Formula)

section Rendering

/-- What stands in front of the quotes. -/
def Directive.front : Directive → Text
  | .key _ => keyWord ++ [' ']
  | .pluralKey _ => pluralKeyWord ++ [' ']
  | .value _ => valueWord ++ [' ']
  | .pluralValue category _ => valueWord ++ '[' :: (decimalDigits category ++ ']' :: [' '])

/-- The text between the quotes. -/
def Directive.text : Directive → Text
  | .key text | .pluralKey text | .value text | .pluralValue _ text => text

/-- The line of a directive. -/
def Directive.line (d : Directive) : Text :=
  d.front ++ '"' :: (Text.escape d.text ++ ['"'])

/-- What a file says about a key. -/
inductive Entry
  | single (key value : Text)
  | plural (key : Text) (templates : Table Int Text)

namespace Entry

/-- The directives of an entry. -/
def directives : Entry → List Directive
  | .single key value => [.key key, .value value]
  | .plural key templates =>
      .key key :: .pluralKey key ::
        templates.entries.map (fun e => .pluralValue e.1.toNat e.2)

/-- The template of an entry without categories. -/
def single? : Entry → Option (Text × Text)
  | .single key value => some (key, value)
  | .plural _ _ => none

/-- The templates of an entry with categories. -/
def plural? : Entry → Option (Text × Table Int Text)
  | .single _ _ => none
  | .plural key templates => some (key, templates)

/-- Does the entry have a key and a value, and categories that can be read? -/
def IsReadable : Entry → Prop
  | .single key value => key ≠ [] ∧ value ≠ []
  | .plural key templates =>
      key ≠ [] ∧ templates.entries ≠ [] ∧
        ∀ e ∈ templates.entries, 0 ≤ e.1 ∧ (decimalDigits e.1.toNat).length ≤ digitLimit

end Entry

/-- The lines of a list of entries. -/
def render (entries : List Entry) : List Text :=
  (entries.flatMap Entry.directives).map Directive.line

/-- The second list is the first one with blank lines and comments anywhere. -/
inductive Padded : List Text → List Text → Prop
  | nil : Padded [] []
  | line (line : Text) {lines padded : List Text} :
      Padded lines padded → Padded (line :: lines) (line :: padded)
  | blank {gap : Text} {lines padded : List Text} :
      Text.trim gap = [] → Padded lines padded → Padded lines (gap :: padded)
  | comment {gap : Text} {lines padded : List Text} :
      (Text.trim gap).head? = some '#' → Padded lines padded → Padded lines (gap :: padded)

theorem Padded.refl (lines : List Text) : Padded lines lines := by
  induction lines with
  | nil => exact .nil
  | cons line lines ih => exact .line line ih

end Rendering

section Steps

theorem Directive.trim_line (d : Directive) : Text.trim d.line = d.line := by
  have hword : d.front.head? = some 'm' := by
    cases d <;> rfl
  exact trim_wordLine hword (Text.escape d.text)

/-- Does the directive say in a state what its line says on its own? -/
def Directive.Fits (s : State) : Directive → Prop
  | .key text | .pluralKey text => text ≠ []
  | .value text => s.isPlural = false ∧ s.key ≠ [] ∧ text ≠ []
  | .pluralValue category _ =>
      s.isPlural = true ∧ (decimalDigits category).length ≤ digitLimit

variable {s t : State}

/-- The line of a fitting directive is read as the directive. -/
theorem State.step_line [Machine] {d : Directive} (h : d.Fits s) :
    s.step d.line = .ok (d.apply s, none) := by
  have hgap : [' '].all isBlank = true := rfl
  cases d with
  | key text =>
      have hstep := s.step_keyLine hgap (Text.escape text)
      rwa [Text.unescape_escape] at hstep
  | pluralKey text =>
      have hstep := s.step_pluralKeyLine hgap (Text.escape text)
      rwa [Text.unescape_escape] at hstep
  | value text =>
      obtain ⟨hplural, hkey, htext⟩ := h
      have hstep := State.step_valueLine hplural hkey hgap (Text.escape text)
      rw [Text.unescape_escape] at hstep
      rcases hstep with hstep | ⟨hempty, -⟩
      · exact hstep
      · exact absurd hempty htext
  | pluralValue category text =>
      obtain ⟨hplural, hlimit⟩ := h
      have hdigit : ∀ c ∈ decimalDigits category, isAsciiDigit c = true :=
        fun _ hc => isAsciiDigit_of_mem_decimalDigits hc
      have htrim : Text.trim (decimalDigits category) = decimalDigits category :=
        trim_of_isAsciiDigit hdigit
      have hindex : Text.allIn isDigit (Text.trim (decimalDigits category)) = true := by
        rw [htrim]
        exact allIn_isDigit (decimalDigits_ne_nil category) hdigit
      have hstep := State.step_indexedLine hplural hindex hgap (Text.escape text)
      rw [htrim, readNumeral_decimalDigits hlimit, Text.unescape_escape] at hstep
      have hline : (Directive.pluralValue category text).line =
          quotedLine (indexedWord (decimalDigits category) ++ [' ']) (Text.escape text) := by
        simp [Directive.line, Directive.front, Directive.text, quotedLine, indexedWord]
      rw [hline]
      exact hstep

/-- What a state continues does not matter to a directive. -/
theorem Directive.fits_of_interrupted {d : Directive} (hst : t.interrupted = s.interrupted)
    (h : d.Fits s) : d.Fits t := by
  have hkey : t.interrupted.key = s.interrupted.key := congrArg State.key hst
  have hplural : t.interrupted.isPlural = s.interrupted.isPlural := congrArg State.isPlural hst
  cases d with
  | key => exact h
  | pluralKey => exact h
  | value => exact ⟨hplural.trans h.1, fun hempty => h.2.1 (hkey.symm.trans hempty), h.2.2⟩
  | pluralValue => exact ⟨hplural.trans h.1, h.2⟩

theorem Directive.apply_of_interrupted {d : Directive} (hst : t.interrupted = s.interrupted) :
    d.apply t = d.apply s := by
  have hblind : ∀ u : State, d.apply u = d.apply u.interrupted := by
    intro u
    cases d <;> rfl
  rw [hblind t, hblind s, hst]

end Steps

section Runs

/-- Do all directives fit, each in the state behind those in front of it? -/
def AllFit (s : State) : List Directive → Prop
  | [] => True
  | d :: directives => d.Fits s ∧ AllFit (d.apply s) directives

theorem AllFit.append {s : State} {front rest : List Directive} (h : AllFit s front)
    (hrest : AllFit (front.foldl Directive.apply s) rest) : AllFit s (front ++ rest) := by
  induction front generalizing s with
  | nil => exact hrest
  | cons d front ih => exact ⟨h.1, ih h.2 hrest⟩

/-- Gaps show at most in what the last state continues. -/
theorem run_padded [Machine] (r : Reading) {directives : List Directive} {padded : List Text}
    (hpadded : Padded (directives.map Directive.line) padded) {s t : State}
    (hst : t.interrupted = s.interrupted) (hfit : AllFit s directives) (number : Nat) :
    ∃ t', r.run number t padded = .ok (t', []) ∧
      t'.interrupted = (directives.foldl Directive.apply s).interrupted := by
  generalize hlines : directives.map Directive.line = lines at hpadded
  induction hpadded generalizing directives s t number with
  | nil =>
      rw [List.map_eq_nil_iff] at hlines
      subst hlines
      exact ⟨t, rfl, hst⟩
  | line line _ ih =>
      obtain ⟨d, directives, rfl, rfl, rfl⟩ := List.map_eq_cons_iff.1 hlines
      obtain ⟨t', hrun, ht'⟩ := ih rfl hfit.2 (number + 1) rfl
      refine ⟨t', ?_, ht'⟩
      rw [Reading.run]
      simp only [d.trim_line, State.step_line (d.fits_of_interrupted hst hfit.1),
        d.apply_of_interrupted hst]
      exact hrun
  | @blank gap _ _ hgap _ ih =>
      obtain ⟨t', hrun, ht'⟩ := ih (t := t.interrupted) hst hfit (number + 1) hlines
      refine ⟨t', ?_, ht'⟩
      rw [Reading.run]
      simp only [hgap]
      exact hrun
  | @comment gap _ _ hgap _ ih =>
      obtain ⟨t', hrun, ht'⟩ := ih hst hfit (number + 1) hlines
      refine ⟨t', ?_, ht'⟩
      have hstep : t.step (Text.trim gap) = .ok (t, none) := by
        obtain ⟨rest, hrest⟩ := List.head?_eq_some_iff.1 hgap
        rw [State.step, if_neg (by simp [hrest]), if_pos hgap]
        rfl
      rw [Reading.run]
      simp only [hstep]
      exact hrun

end Runs

section Entries

variable {s : State}

theorem PluralStore.update_update (store : PluralStore) (key : Text)
    (f g : Table Int Text → Table Int Text) :
    (store.update key f).update key g = store.update key (fun templates => g (f templates)) := by
  unfold PluralStore.update Table.modify
  rw [Table.get?_set, if_pos rfl, Table.set_set]
  rfl

theorem foldl_add (store : PluralStore) (key : Text) (f : Table Int Text → Table Int Text)
    (templates : List (Int × Text)) :
    templates.foldl (fun store e => store.add key e.1 e.2) (store.update key f) =
      store.update key fun old => templates.foldl (fun t e => t.set e.1 e.2) (f old) := by
  induction templates generalizing f with
  | nil => rfl
  | cons e templates ih =>
      rw [List.foldl_cons, PluralStore.add, PluralStore.update_update, ih]
      rfl

/-- Values by category reach nothing but the templates of the current key. -/
theorem foldl_pluralValues (hplural : s.isPlural = true) {templates : List (Int × Text)}
    (hread : ∀ e ∈ templates, 0 ≤ e.1 ∧ (decimalDigits e.1.toNat).length ≤ digitLimit) :
    let values : List Directive := templates.map fun e => .pluralValue e.1.toNat e.2
    AllFit s values ∧ ∃ pending, values.foldl Directive.apply s =
      { s with
        plurals := templates.foldl (fun store e => store.add s.key e.1 e.2) s.plurals
        pending := pending } := by
  induction templates generalizing s with
  | nil => exact ⟨trivial, s.pending, rfl⟩
  | cons e templates ih =>
      obtain ⟨he, hrest⟩ := List.forall_mem_cons.1 hread
      obtain ⟨hfit, pending, hfold⟩ :=
        ih (s := (Directive.pluralValue e.1.toNat e.2).apply s) hplural hrest
      refine ⟨⟨⟨hplural, he.2⟩, hfit⟩, pending, ?_⟩
      rw [List.map_cons, List.foldl_cons, hfold]
      simp only [Directive.apply, List.foldl_cons, Int.toNat_of_nonneg he.1]

/-- What a state has read: the given templates in the given order, and no header. -/
structure HasRead (formula : Formula) (singles : List (Text × Text))
    (plurals : List (Text × Table Int Text)) (s : State) : Prop where
  singles_eq : s.singles.values.entries = singles
  formula_eq : s.plurals.formula = formula
  plurals_eq : s.plurals.plurals.entries = plurals
  headers_eq : s.headers = Table.empty

variable {formula : Formula} {singles : List (Text × Text)}
  {plurals : List (Text × Table Int Text)}

theorem HasRead.single (h : HasRead formula singles plurals s) {key value : Text}
    (hreadable : (Entry.single key value).IsReadable) (hfresh : key ∉ singles.map Prod.fst) :
    AllFit s (Entry.single key value).directives ∧
      HasRead formula (singles ++ [(key, value)]) plurals
        ((Entry.single key value).directives.foldl Directive.apply s) := by
  refine ⟨⟨hreadable.1, ⟨rfl, hreadable.1, hreadable.2⟩, trivial⟩, ?_, h.formula_eq,
    h.plurals_eq, h.headers_eq⟩
  have hset : (s.singles.values.set key value).entries =
      s.singles.values.entries ++ [(key, value)] :=
    Table.entries_set_of_not_mem value (by rwa [Table.keys, h.singles_eq])
  rw [← h.singles_eq]
  exact hset

theorem HasRead.plural (h : HasRead formula singles plurals s) {key : Text}
    {templates : Table Int Text} (hreadable : (Entry.plural key templates).IsReadable)
    (hfresh : key ∉ plurals.map Prod.fst) :
    AllFit s (Entry.plural key templates).directives ∧
      HasRead formula singles (plurals ++ [(key, templates)])
        ((Entry.plural key templates).directives.foldl Directive.apply s) := by
  obtain ⟨hkey, hne, hread⟩ := hreadable
  obtain ⟨hfit, pending, hfold⟩ := foldl_pluralValues
    (s := (Directive.pluralKey key).apply ((Directive.key key).apply s)) rfl hread
  refine ⟨⟨hkey, hkey, hfit⟩, ?_⟩
  rw [Entry.directives, List.foldl_cons, List.foldl_cons, hfold]
  -- all values together are one update of the key, which is new
  have hupdate : templates.entries.foldl (fun store e => store.add key e.1 e.2) s.plurals =
      s.plurals.update key fun old => templates.entries.foldl (fun t e => t.set e.1 e.2) old := by
    cases htemplates : templates.entries with
    | nil => exact absurd htemplates hne
    | cons e rest => exact foldl_add s.plurals key _ rest
  have hnew : key ∉ s.plurals.plurals.keys := by
    rwa [Table.keys, h.plurals_eq]
  have hentries : (s.plurals.update key fun old =>
      templates.entries.foldl (fun t e => t.set e.1 e.2) old).plurals.entries =
        s.plurals.plurals.entries ++ [(key, templates)] := by
    rw [PluralStore.update]
    simp only [Table.modify, Table.get?_of_not_mem hnew, Table.entries_set_of_not_mem _ hnew]
    rw [Option.getD_none, show templates.entries.foldl (fun t e => t.set e.1 e.2) Table.empty =
      templates from Table.ofList_entries templates]
  refine ⟨h.singles_eq, ?_, ?_, h.headers_eq⟩
  · exact (congrArg PluralStore.formula hupdate).trans h.formula_eq
  · rw [← h.plurals_eq, ← hentries]
    exact congrArg (fun store => store.plurals.entries) hupdate

theorem HasRead.of_interrupted {t : State} (h : HasRead formula singles plurals s)
    (hst : t.interrupted = s.interrupted) : HasRead formula singles plurals t := by
  have hs : HasRead formula singles plurals s.interrupted := ⟨h.1, h.2, h.3, h.4⟩
  rw [← hst] at hs
  exact ⟨hs.1, hs.2, hs.3, hs.4⟩

theorem fresh_of_nodup {β : Type} {front rest : List (Text × β)} {e : Text × β}
    (h : ((front ++ [e] ++ rest).map Prod.fst).Nodup) : e.1 ∉ front.map Prod.fst := by
  rw [List.map_append, List.map_append, List.nodup_append, List.nodup_append] at h
  exact fun hmem => h.1.2.2 e.1 hmem e.1 (List.mem_singleton_self e.1) rfl

theorem HasRead.entries (h : HasRead formula singles plurals s) {entries : List Entry}
    (hreadable : ∀ e ∈ entries, e.IsReadable)
    (hsingles : ((singles ++ entries.filterMap Entry.single?).map Prod.fst).Nodup)
    (hplurals : ((plurals ++ entries.filterMap Entry.plural?).map Prod.fst).Nodup) :
    AllFit s (entries.flatMap Entry.directives) ∧
      HasRead formula (singles ++ entries.filterMap Entry.single?)
        (plurals ++ entries.filterMap Entry.plural?)
        ((entries.flatMap Entry.directives).foldl Directive.apply s) := by
  induction entries generalizing s singles plurals with
  | nil =>
      rw [List.filterMap_nil, List.filterMap_nil, List.append_nil, List.append_nil]
      exact ⟨trivial, h⟩
  | cons e entries ih =>
      obtain ⟨he, hrest⟩ := List.forall_mem_cons.1 hreadable
      rw [List.flatMap_cons, List.foldl_append]
      cases e with
      | single key value =>
          have hsome : (Entry.single key value :: entries).filterMap Entry.single? =
              (key, value) :: entries.filterMap Entry.single? := rfl
          rw [hsome, List.append_cons] at hsingles ⊢
          obtain ⟨hfit, hread⟩ := h.single he (fresh_of_nodup hsingles)
          obtain ⟨hfits, hreads⟩ := ih hread hrest hsingles hplurals
          exact ⟨hfit.append hfits, hreads⟩
      | plural key templates =>
          have hsome : (Entry.plural key templates :: entries).filterMap Entry.plural? =
              (key, templates) :: entries.filterMap Entry.plural? := rfl
          rw [hsome, List.append_cons] at hplurals ⊢
          obtain ⟨hfit, hread⟩ := h.plural he (fresh_of_nodup hplurals)
          obtain ⟨hfits, hreads⟩ := ih hread hrest hsingles hplurals
          exact ⟨hfit.append hfits, hreads⟩

end Entries

/-- Reading undoes rendering: whatever stands in the gaps, and whether the reading is strict or
not, the entries come back in their order and nothing else does. -/
theorem parse_render [Machine] (r : Reading) (formula : Formula) {singles : Table Text Text}
    {plurals : Table Text (Table Int Text)} {entries : List Entry} {lines : List Text}
    (hsingles : entries.filterMap Entry.single? = singles.entries)
    (hplurals : entries.filterMap Entry.plural? = plurals.entries)
    (hreadable : ∀ e ∈ entries, e.IsReadable) (hlines : Padded (render entries) lines) :
    File.parse r formula lines =
      .ok
        { singles := ⟨singles⟩
          plurals := ⟨formula, plurals⟩
          sourcePath := r.sourcePath
          headers := Table.empty
          junk := [] } := by
  have hinitial : HasRead formula [] [] (State.initial formula) := ⟨rfl, rfl, rfl, rfl⟩
  obtain ⟨hfit, hread⟩ := hinitial.entries hreadable
    (by rw [List.nil_append, hsingles]; exact singles.keysNodup)
    (by rw [List.nil_append, hplurals]; exact plurals.keysNodup)
  obtain ⟨s, hrun, hs⟩ := run_padded r hlines rfl hfit 1
  rw [List.nil_append, List.nil_append, hsingles, hplurals] at hread
  obtain ⟨hvalues, hformula, htemplates, hheaders⟩ := hread.of_interrupted hs
  rw [File.parse, hrun, Except.map]
  have hstore : s.singles = ⟨singles⟩ := congrArg SingleStore.mk (Table.ext hvalues)
  have hpluralStore : s.plurals = ⟨formula, plurals⟩ := by
    rw [← hformula, ← show s.plurals.plurals = plurals from Table.ext htemplates]
  simp only [hstore, hpluralStore, hheaders]

/-- A single and a plural, the key of which looks like a directive, with gaps. -/
theorem parse_render_mixed :
    let singles : Table Text Text := Table.ofList [(['a', '"'], ['\\'])]
    let templates : Table Int Text := Table.ofList [(1, ['#', '\n']), (0, [])]
    let plurals : Table Text (Table Int Text) := Table.ofList [(['[', '"', ']'], templates)]
    let entries := [Entry.plural ['[', '"', ']'] templates, Entry.single ['a', '"'] ['\\']]
    let lines := [' '] :: ['\t', '#'] :: render entries
    File.parse ⟨true, none⟩ .empty lines =
      .ok
        { singles := ⟨singles⟩
          plurals := ⟨.empty, plurals⟩
          sourcePath := none
          headers := Table.empty
          junk := [] } := by
  intro singles templates plurals entries lines
  have hreadable : ∀ e ∈ entries, e.IsReadable := by
    refine List.forall_mem_cons.2 ⟨⟨by decide, by decide, by decide⟩, ?_⟩
    exact List.forall_mem_singleton.2 ⟨by decide, by decide⟩
  have hlines : Padded (render entries) lines :=
    .blank (by decide) (.comment (by decide) (.refl (render entries)))
  exact parse_render ⟨true, none⟩ .empty rfl rfl hreadable hlines

end Po
end Phrasebook
