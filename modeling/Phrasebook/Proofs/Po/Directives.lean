import Phrasebook.Proofs.Po.Stepping
import Phrasebook.Proofs.Text.Cutting

/-!
# Directives

What the lines of keys and values do.

**Directives.**  A `Directive` is what such a line says, and `Directive.apply` what it does to a
state.
**Lines.**  A word with a payload between quotes behind it is read as its directive, whatever blanks
stand between the two (`State.step_keyLine` and the lemmas behind it).
-/

namespace Phrasebook
namespace Po

open Plural (FormulaError)

section Directives

/-- A line with a quoted text. -/
inductive Directive
  | key (text : Text)
  | pluralKey (text : Text)
  | value (text : Text)
  | pluralValue (category : Nat) (text : Text)

/-- The state behind a directive. -/
def Directive.apply (s : State) : Directive → State
  | .key text => { s with key := text, isPlural := false, pending := .key }
  | .pluralKey text => { s with key := text, isPlural := true, pending := .key }
  | .value text => { s with singles := s.singles.set s.key text, pending := .value true }
  | .pluralValue category text =>
      { s with
        plurals := s.plurals.add s.key category text
        pending := .pluralValue category }

/-- A line with a text between quotes behind the given front. -/
def quotedLine (front text : Text) : Text :=
  front ++ '"' :: (text ++ ['"'])

/-- The word of a plural value with what stands between its brackets. -/
def indexedWord (index : Text) : Text :=
  valueWord ++ '[' :: (index ++ [']'])

end Directives

section Parts

theorem payload_quotedLine {front : Text} (h : '"' ∉ front) (text : Text) :
    payload (quotedLine front text) = .ok (Text.unescape text) := by
  rw [payload, quotedLine, Text.after?_append h, Option.bind_some, Text.beforeLast?_concat]

theorem trim_quotedLine {front : Text} (h : ∀ c ∈ front.head?, isBlank c = false) (text : Text) :
    Text.trim (quotedLine front text) = quotedLine front text := by
  refine Text.trim_eq_self (fun c hc => ?_) (fun c hc => ?_)
  · cases front with
    | nil =>
        cases hc
        rfl
    | cons d front => exact h c hc
  · rw [quotedLine, List.append_cons, ← List.append_assoc, List.getLast?_concat] at hc
    cases hc
    rfl

theorem trim_wordLine {front : Text} (h : front.head? = some 'm') (text : Text) :
    Text.trim (quotedLine front text) = quotedLine front text := by
  refine trim_quotedLine (fun c hc => ?_) text
  rw [h] at hc
  cases hc
  rfl

/-- A line with nothing in front of its quotes goes on with what is pending. -/
theorem payload_continuation (text : Text) :
    payload (quotedLine [] text) = .ok (Text.unescape text) :=
  payload_quotedLine List.not_mem_nil text

theorem trim_continuation (text : Text) : Text.trim (quotedLine [] text) = quotedLine [] text :=
  trim_quotedLine (fun c hc => by cases hc) text

/-- The category of a value stands between its brackets. -/
theorem category_bracketed {index : Text} (hclose : ']' ∉ index)
    (hdigits : Text.allIn isDigit (Text.trim index) = true) (rest : Text) :
    Po.category (valueWord ++ '[' :: (index ++ ']' :: rest)) =
      (readNumeral (Text.trim index)).mapError .numeral := by
  have hword : '[' ∉ valueWord := by decide
  have hbracketed : bracketed? (valueWord ++ '[' :: (index ++ ']' :: rest)) = some index := by
    rw [bracketed?, Text.after?_append hword, Text.before_append hword]
    simp only
    rw [if_neg (by decide), if_pos (by simp), Text.before_append hclose]
  rw [Po.category, hbracketed]
  simp only
  rw [if_pos hdigits]

end Parts

section Lines

variable {s : State} {word gap chunk index : Text}

theorem not_mem_index {c : Char} (hindex : Text.allIn isDigit (Text.trim index) = true)
    (hblank : isBlank c = false) (hdigit : isDigit c = false) : c ∉ index := by
  obtain ⟨front, behind, hparts, hfront, hbehind⟩ := Text.exists_trim index
  rw [Text.allIn, Bool.and_eq_true] at hindex
  rw [hparts, List.mem_append, List.mem_append, not_or, not_or]
  exact ⟨⟨Text.not_mem_of_all (List.all_eq_true.2 hfront) hblank,
    Text.not_mem_of_all hindex.2 hdigit⟩,
    Text.not_mem_of_all (List.all_eq_true.2 hbehind) hblank⟩

theorem payload_word (hword : '"' ∉ word) (hgap : gap.all isBlank = true) (chunk : Text) :
    payload (quotedLine (word ++ gap) chunk) = .ok (Text.unescape chunk) := by
  refine payload_quotedLine (fun hmem => ?_) chunk
  rcases List.mem_append.1 hmem with h | h
  · exact hword h
  · exact Text.not_mem_of_all hgap (by decide) h

theorem startsWith_quotedLine (word gap chunk : Text) :
    Text.startsWith (quotedLine (word ++ gap) chunk) word = true := by
  rw [quotedLine, List.append_assoc]
  exact List.isPrefixOf_iff_prefix.2 (List.prefix_append word _)

variable [Machine]

/-- The line of a key, be its chunk empty or not. -/
theorem State.step_keyLine (s : State) (hgap : gap.all isBlank = true) (chunk : Text) :
    s.step (quotedLine (keyWord ++ gap) chunk) =
      .ok ((Directive.key (Text.unescape chunk)).apply s, none) := by
  have hquote : '"' ∉ keyWord := by decide
  have hpayload := payload_word hquote hgap chunk
  by_cases he : quotedLine (keyWord ++ gap) chunk = emptyKeyLine
  · have hempty : payload emptyKeyLine = .ok [] := rfl
    rw [he, hempty] at hpayload
    rw [he, ← Except.ok.inj hpayload]
    rfl
  · have hplural : Text.startsWith (quotedLine (keyWord ++ gap) chunk) pluralKeyWord = false := by
      rw [← Bool.not_eq_true]
      intro hprefix
      have hmark : some '_' = (gap ++ '"' :: (chunk ++ ['"'])).head? := by
        obtain ⟨rest, hrest⟩ := List.isPrefixOf_iff_prefix.1 hprefix
        rw [quotedLine, List.append_assoc] at hrest
        exact congrArg (fun line : Text => (line.drop 5).head?) hrest
      cases gap with
      | nil => exact absurd hmark (by simp)
      | cons c gap =>
          obtain rfl : '_' = c := Option.some.inj hmark
          exact Text.not_mem_of_all hgap (by decide) List.mem_cons_self
    rw [step_eq_stepAs, LineKind.of_key_of_ne (startsWith_quotedLine keyWord gap chunk) he,
      hplural, stepAs, startKey, hpayload]
    rfl

theorem State.step_pluralKeyLine (s : State) (hgap : gap.all isBlank = true) (chunk : Text) :
    s.step (quotedLine (pluralKeyWord ++ gap) chunk) =
      .ok ((Directive.pluralKey (Text.unescape chunk)).apply s, none) := by
  have hquote : '"' ∉ pluralKeyWord := by decide
  have hpayload := payload_word hquote hgap chunk
  have hplural := startsWith_quotedLine pluralKeyWord gap chunk
  have hkey : Text.startsWith (quotedLine (pluralKeyWord ++ gap) chunk) keyWord = true := rfl
  have he : quotedLine (pluralKeyWord ++ gap) chunk ≠ emptyKeyLine := by
    intro he
    rw [he] at hplural
    exact absurd hplural (by decide)
  rw [step_eq_stepAs, LineKind.of_key_of_ne hkey he, hplural, stepAs, startKey, hpayload]
  rfl

/-- The line of a value.  A value that begins with an empty chunk is not there yet. -/
theorem State.step_valueLine (hplural : s.isPlural = false) (hkey : s.key ≠ [])
    (hgap : gap.all isBlank = true) (chunk : Text) :
    s.step (quotedLine (valueWord ++ gap) chunk) =
        .ok ((Directive.value (Text.unescape chunk)).apply s, none) ∨
      Text.unescape chunk = [] ∧ s.step (quotedLine (valueWord ++ gap) chunk) =
        .ok ({ s with pending := .value false }, none) := by
  have hquote : '"' ∉ valueWord := by decide
  have hpayload := payload_word hquote hgap chunk
  have hnonempty : s.key.isEmpty = false := by simpa using hkey
  by_cases he : quotedLine (valueWord ++ gap) chunk = emptyValueLine
  · have hempty : payload emptyValueLine = .ok [] := rfl
    rw [he, hempty] at hpayload
    refine .inr ⟨(Except.ok.inj hpayload).symm, ?_⟩
    have hkind : LineKind.of emptyValueLine = .emptyValue := rfl
    rw [he, step_eq_stepAs, hkind, stepAs, startEmptyValue]
    simp only [hnonempty, hplural]
    rfl
  · refine .inl ?_
    rw [step_eq_stepAs, LineKind.of_value_of_ne (startsWith_quotedLine valueWord gap chunk) he,
      stepAs, startValue, if_neg (by simp [hplural]), hpayload]
    simp only [withFound]
    rw [if_neg (by simp [hnonempty])]
    rfl

/-- The line of a plural value, if its index is made of digits. -/
theorem State.step_indexedLine (hplural : s.isPlural = true)
    (hindex : Text.allIn isDigit (Text.trim index) = true) (hgap : gap.all isBlank = true)
    (chunk : Text) :
    s.step (quotedLine (indexedWord index ++ gap) chunk) =
      ((readNumeral (Text.trim index)).mapError FormulaError.numeral).map fun category =>
        ((Directive.pluralValue category (Text.unescape chunk)).apply s, none) := by
  have hclose : ']' ∉ index := not_mem_index hindex (by decide) (by decide)
  have hquote : '"' ∉ indexedWord index := by
    have hword : '"' ∉ valueWord := by decide
    have hdigits : '"' ∉ index := not_mem_index hindex (by decide) (by decide)
    simp [indexedWord, hword, hdigits]
  have hline : quotedLine (indexedWord index ++ gap) chunk =
      valueWord ++ '[' :: (index ++ ']' :: (gap ++ '"' :: (chunk ++ ['"']))) := by
    simp [quotedLine, indexedWord]
  have hvalue : Text.startsWith (quotedLine (indexedWord index ++ gap) chunk) valueWord = true := by
    rw [hline]
    exact List.isPrefixOf_iff_prefix.2 (List.prefix_append valueWord _)
  have he : quotedLine (indexedWord index ++ gap) chunk ≠ emptyValueLine := by
    intro he
    rw [hline] at he
    have hletter : some '[' = some ' ' := congrArg (fun line : Text => (line.drop 6).head?) he
    exact absurd hletter (by decide)
  have hcategory := category_bracketed hclose hindex (gap ++ '"' :: (chunk ++ ['"']))
  rw [← hline] at hcategory
  rw [step_eq_stepAs, LineKind.of_value_of_ne hvalue he, stepAs, startValue, if_pos hplural,
    hcategory, payload_word hquote hgap]
  cases readNumeral (Text.trim index) <;> rfl

end Lines

end Po
end Phrasebook
