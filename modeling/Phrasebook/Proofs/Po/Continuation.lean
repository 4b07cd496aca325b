import Phrasebook.Proofs.Po.Recovery

/-!
# Continuations

What a line that begins with a quote does to the text that is pending.

**Extension.**  `State.extended` puts a chunk behind the pending key or value and reaches nothing
else; `State.step_continuation` says that a continuation line does just that.
**Result.**  `step_extends`: message text changes neither the formula nor the headers.  The one
exception is a line that begins like the header line of the formula, which is taken for that line
wherever it stands (`parse_formulaInMessage`).
-/

namespace Phrasebook
namespace Po

open Plural (Formula)

section Extension

variable {s : State} {line chunk : Text} {place : Place}

/-- The key or value that a continuation line extends.  A value that has not begun is empty, and so
is a template that is not there. -/
def State.pendingText? (s : State) : Option Text :=
  match s.pending with
  | .nothing | .header => none
  | .key => some s.key
  | .value false => some []
  | .value true => some ((s.template? (.single s.key)).getD [])
  | .pluralValue category => some ((s.template? (.plural s.key category)).getD [])

/-- The state with a chunk behind the pending key or value. -/
def State.extended (s : State) (chunk : Text) : State :=
  match s.pending with
  | .nothing | .header => s
  | .key => { s with key := s.key ++ chunk }
  | .value true => { s with singles := s.singles.append s.key chunk }
  | .value false => { s with singles := s.singles.set s.key chunk, pending := .value true }
  | .pluralValue category => { s with plurals := s.plurals.append s.key category chunk }

theorem State.extended_formula (s : State) (chunk : Text) :
    (s.extended chunk).plurals.formula = s.plurals.formula := by
  unfold extended
  split <;> rfl

theorem State.extended_headers (s : State) (chunk : Text) :
    (s.extended chunk).headers = s.headers := by
  unfold extended
  split <;> rfl

theorem State.extended_isPlural (s : State) (chunk : Text) :
    (s.extended chunk).isPlural = s.isPlural := by
  unfold extended
  split <;> rfl

theorem State.extended_key (h : s.pending ≠ .key) (chunk : Text) :
    (s.extended chunk).key = s.key := by
  unfold extended
  split
  case h_3 hkey => exact absurd hkey h
  all_goals rfl

theorem State.extended_target? (s : State) (chunk : Text) :
    (s.extended chunk).target? = s.target? := by
  rcases s with ⟨_, _, _, _, _, _ | _ | (_ | _) | _ | _⟩ <;> rfl

/-- A chunk reaches no template but the one that is pending. -/
theorem State.extended_template? (h : place ∉ s.target?) (chunk : Text) :
    (s.extended chunk).template? place = s.template? place := by
  rw [target?, Option.mem_def] at h
  unfold extended
  split
  iterate 3 rfl
  · rename_i hpending
    rw [hpending] at h
    exact templateAt_append (fun he => h (congrArg some he.symm)) chunk
  · rename_i hpending
    rw [hpending] at h
    exact templateAt_set (fun he => h (congrArg some he.symm)) chunk
  · rename_i hpending
    rw [hpending] at h
    exact templateAt_appendPlural (fun he => h (congrArg some he.symm)) chunk

theorem templateAt_set_self (singles : SingleStore) (plurals : PluralStore) (key value : Text) :
    templateAt (singles.set key value) plurals (.single key) = some value :=
  (Table.get?_set singles.values key key value).trans (if_pos rfl)

theorem templateAt_append_self (singles : SingleStore) (plurals : PluralStore) (key chunk : Text) :
    templateAt (singles.append key chunk) plurals (.single key) =
      some ((templateAt singles plurals (.single key)).getD [] ++ chunk) :=
  templateAt_set_self singles plurals key _

theorem templateAt_appendPlural_self (singles : SingleStore) (plurals : PluralStore)
    (key : Text) (category : Int) (chunk : Text) :
    templateAt singles (plurals.append key category chunk) (.plural key category) =
      some ((templateAt singles plurals (.plural key category)).getD [] ++ chunk) := by
  have hkey : (plurals.append key category chunk).plurals.get? key =
      some (((plurals.plurals.get? key).getD Table.empty).modify category
        fun old => old.getD [] ++ chunk) :=
    (Table.get?_modify plurals.plurals key key _).trans (if_pos rfl)
  rw [templateAt, hkey, Option.bind_some, Table.get?_modify, if_pos rfl, templateAt]
  cases plurals.plurals.get? key <;> rfl

theorem State.extended_pendingText? {old : Text} (h : s.pendingText? = some old) (chunk : Text) :
    (s.extended chunk).pendingText? = some (old ++ chunk) := by
  obtain ⟨singles, plurals, headers, key, isPlural, pending⟩ := s
  cases pending with
  | nothing | header => cases h
  | key =>
      cases h
      rfl
  | value started =>
      cases started with
      | false =>
          cases h
          exact congrArg (fun text? => some (text?.getD []))
            (templateAt_set_self singles plurals key chunk)
      | true =>
          cases h
          exact congrArg (fun text? => some (text?.getD []))
            (templateAt_append_self singles plurals key chunk)
  | pluralValue category =>
      cases h
      exact congrArg (fun text? => some (text?.getD []))
        (templateAt_appendPlural_self singles plurals key category chunk)

theorem State.pending_ne_header {old : Text} (h : s.pendingText? = some old) :
    s.pending ≠ .header := by
  intro hheader
  rw [pendingText?, hheader] at h
  cases h

/-- A continuation line extends what is pending, unless it belongs to the header. -/
theorem State.step_continuation [Machine] (hquote : line.head? = some '"')
    (hformula : line.startsWith formulaField = false) (hheader : s.pending ≠ .header)
    (hchunk : payload line = .ok chunk) : s.step line = .ok (s.extended chunk, none) := by
  rw [step_eq_stepAs, LineKind.of_quoted hquote, if_neg (by simp [hformula]), stepAs, continueWith,
    hchunk]
  rcases s with ⟨_, _, _, _, _, _ | _ | (_ | _) | _ | _⟩
  case header => exact absurd rfl hheader
  all_goals rfl

end Extension

section Messages

/-- A continuation line of a message, whatever its text, puts that text behind the pending key or
value and changes nothing else: not the formula, not the headers, and no other template. -/
theorem step_extends [Machine] {s : State} {line old chunk : Text}
    (hold : s.pendingText? = some old)
    (hquote : line.head? = some '"') (hformula : line.startsWith formulaField = false)
    (hchunk : payload line = .ok chunk) :
    ∃ t, s.step line = .ok (t, none) ∧ t.pendingText? = some (old ++ chunk) ∧
      t.plurals.formula = s.plurals.formula ∧ t.headers = s.headers ∧
      t.target? = s.target? ∧ t.isPlural = s.isPlural ∧ (s.pending ≠ .key → t.key = s.key) ∧
      ∀ place, place ∉ s.target? → t.template? place = s.template? place := by
  have hheader := State.pending_ne_header hold
  exact ⟨s.extended chunk, State.step_continuation hquote hformula hheader hchunk,
    State.extended_pendingText? hold chunk, s.extended_formula chunk, s.extended_headers chunk,
    s.extended_target? chunk, s.extended_isPlural chunk, fun hkey => State.extended_key hkey chunk,
    fun place hplace => State.extended_template? hplace chunk⟩

/-- A plural value that speaks of a language. -/
theorem step_extends_language :
    let plurals := (PluralStore.empty .empty).add ['p'] 1 ['a']
    let s : State := ⟨.empty, plurals, .empty, ['p'], true, .pluralValue 1⟩
    ∃ t, s.step "\"Language: fr\\n\"".toList = .ok (t, none) ∧
      t.pendingText? = some "aLanguage: fr\n".toList ∧ t.headers = .empty ∧
      t.plurals.formula = .empty := by
  intro plurals s
  have hold : s.pendingText? = some ['a'] := rfl
  have hchunk : payload "\"Language: fr\\n\"".toList = .ok "Language: fr\n".toList := rfl
  obtain ⟨t, hstep, htext, hformula, hheaders, -⟩ := step_extends hold rfl rfl hchunk
  exact ⟨t, hstep, htext, hheaders, hformula⟩

/-- Message text that begins like the header line of the formula sets the formula and a header, and
is lost to the message. -/
theorem parse_formulaInMessage :
    let lines := ["msgid \"a\"", "msgstr \"x\"", "\"Plural-Forms: nplurals=2;\""].map
      String.toList
    ∃ file, File.parse ⟨false, none⟩ .empty lines = .ok file ∧
      file.plurals.formula.categories = some 2 ∧
      file.headers.get? "Plural-Forms".toList = some "nplurals=2;".toList ∧
      file.template? (.single ['a']) = some ['x'] := by
  exact ⟨_, rfl, rfl, rfl, rfl⟩

end Messages

end Po
end Phrasebook
