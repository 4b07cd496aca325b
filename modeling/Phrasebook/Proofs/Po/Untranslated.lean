import Mathlib
import Phrasebook.Proofs.Catalog.Loading
import Phrasebook.Proofs.Po.Joining

/-!
# Entries without a translation

Which keys of a file have an empty template.

**Pieces.**  The lines of a file add pieces to the value of a key, of which some open the value anew
and others go on with it.  The line `msgstr ""` adds none.
**Steps and runs.**  A step puts the piece of its line onto the value that is there
(`State.IsSound.template?_step`), so that the value of a run is what its pieces come to
(`Reading.template?_run`): the last one that opens a value, and those behind it.
**Result.**  `File.emptyTemplate_iff`: a template is empty exactly if empty quotes that are not
those of the line `msgstr ""` open it and nothing comes behind them.
-/

namespace Phrasebook
namespace Po

open Plural (Formula)
open Printf (Item applyFormat assign formatTemplate)

/-- What a line adds to the value of a key. -/
inductive Piece
  | opening (text : Text)
  | more (text : Text)
deriving DecidableEq, Repr

/-- The text of a piece. -/
def Piece.text : Piece → Text
  | .opening text => text
  | .more text => text

section Pieces

variable {pieces : List Piece} {value : Text}

/-- The value with a piece put onto it.  There is nothing to go on with before a value is opened. -/
def Piece.onto (value? : Option Text) : Piece → Option Text
  | .opening text => some text
  | .more text => value?.map fun value => value ++ text

theorem foldl_onto_more (texts : List Text) (value : Text) :
    (texts.map Piece.more).foldl Piece.onto (some value) = some (value ++ texts.flatten) := by
  induction texts generalizing value with
  | nil => simp
  | cons text texts ih =>
      rw [List.map_cons, List.foldl_cons, Piece.onto, Option.map_some, ih, List.flatten_cons,
        List.append_assoc]

/-- A value is the text of the last piece that opens it with those behind. -/
theorem foldl_onto_eq_some_iff :
    pieces.foldl Piece.onto none = some value ↔
      ∃ (front : List Piece) (text : Text) (texts : List Text),
        pieces = front ++ .opening text :: texts.map .more ∧ value = text ++ texts.flatten := by
  constructor
  · intro h
    -- from the right, since an opening piece makes all before it void
    induction pieces using List.reverseRecOn generalizing value with
    | nil => cases h
    | append_singleton pieces piece ih =>
        rw [List.foldl_append, List.foldl_cons, List.foldl_nil] at h
        cases piece with
        | opening text =>
            obtain rfl := Option.some.inj h
            exact ⟨pieces, text, [], rfl, by simp⟩
        | more text =>
            obtain ⟨old, hold, rfl⟩ := Option.map_eq_some_iff.1 h
            obtain ⟨front, first, texts, rfl, rfl⟩ := ih hold
            exact ⟨front, first, texts ++ [text], by simp, by simp⟩
  · rintro ⟨front, text, texts, rfl, rfl⟩
    rw [List.foldl_append, List.foldl_cons, Piece.onto, foldl_onto_more]

theorem foldl_onto_eq_none_iff :
    pieces.foldl Piece.onto none = none ↔ ∀ text, .opening text ∉ pieces := by
  induction pieces using List.reverseRecOn with
  | nil => simp
  | append_singleton pieces piece ih =>
      rw [List.foldl_append, List.foldl_cons, List.foldl_nil]
      cases piece with
      | opening text =>
          refine iff_of_false (Option.some_ne_none text) fun h => ?_
          exact h text List.mem_concat_self
      | more text => simp [Piece.onto, ih]

end Pieces

section Steps

variable {s t : State} {line key : Text}

/-- The value that a value line opens for a key. -/
def State.opened? (s : State) (line key : Text) : Option Piece :=
  if s.isPlural = false ∧ s.key ≠ [] ∧ s.key = key then (payload line).toOption.map .opening
  else none

/-- What a line that begins with a quote adds to the value of a key.  Behind `msgstr ""` it opens
the value. -/
def State.continued? (s : State) (line key : Text) : Option Piece :=
  match s.pending with
  | .value started =>
      if s.key = key then (payload line).toOption.map (if started then .more else .opening)
      else none
  | _ => none

/-- What a line adds to the value of a key. -/
def State.piece? (s : State) (line key : Text) : Option Piece :=
  match LineKind.of line with
  | .value => s.opened? line key
  | .continuation => s.continued? line key
  | _ => none

/-- The value of a key with what a line may add to it. -/
def State.valueWith (s : State) (key : Text) (piece? : Option Piece) : Option Text :=
  piece?.toList.foldl Piece.onto (s.template? (.single key))

theorem State.template?_startValue (s : State) (line key : Text) :
    Leads (fun t => t.template? (.single key) = s.valueWith key (s.opened? line key))
      (s.startValue line) := by
  unfold startValue opened?
  by_cases hplural : s.isPlural = true
  · rw [if_pos hplural, if_neg (by simp [hplural])]
    exact .withFound rfl fun _ _ => .withFound rfl fun _ _ => .accept rfl
  · rw [if_neg hplural]
    by_cases hkey : s.key = []
    · rw [if_neg (by simp [hkey]), hkey]
      exact .withFound rfl fun _ _ => .accept rfl
    · cases payload line with
      | error e =>
          refine .withFound_error ?_
          split <;> rfl
      | ok value =>
          have hset := Table.get?_set s.singles.values s.key key value
          rw [withFound, if_neg (mt List.isEmpty_iff.1 hkey)]
          refine .accept (hset.trans ?_)
          by_cases hsame : s.key = key
          · rw [if_pos hsame, if_pos ⟨Bool.eq_false_iff.2 hplural, hkey, hsame⟩]
            rfl
          · rw [if_neg hsame, if_neg fun h => hsame h.2.2]
            rfl

/-- A chunk of the pending value opens the value if that has not begun, and else goes on with it. -/
theorem State.IsSound.template?_extended (h : s.IsSound) {started : Bool}
    (hpending : s.pending = .value started) (chunk : Text) :
    (s.extended chunk).template? (.single s.key) =
      (if started then Piece.more chunk else .opening chunk).onto
        (s.template? (.single s.key)) := by
  rw [State.extended, hpending]
  cases started with
  | false => exact templateAt_set_self s.singles s.plurals s.key chunk
  | true =>
      obtain ⟨old, hold⟩ := Option.isSome_iff_exists.1 (h.started hpending)
      refine (templateAt_append_self s.singles s.plurals s.key chunk).trans ?_
      rw [State.template?] at hold ⊢
      rw [hold]
      rfl

theorem State.IsSound.template?_continueWith (h : s.IsSound) (line key : Text) :
    Leads (fun t => t.template? (.single key) = s.valueWith key (s.continued? line key))
      (s.continueWith line) := by
  have hother : ∀ {chunk}, .single key ∉ s.target? →
      (s.extended chunk).template? (.single key) = s.template? (.single key) :=
    fun hplace => State.extended_template? hplace _
  rw [State.target?] at hother
  rw [State.continueWith_eq, State.continued?]
  cases hpending : s.pending with
  | nothing => exact .accept rfl
  | header => exact State.addField_template? (.single key)
  | key | pluralValue =>
      rw [hpending] at hother
      exact .withFound rfl fun chunk _ => .accept (hother (by simp))
  | value started =>
      rw [hpending] at hother
      by_cases hsame : s.key = key
      · subst hsame
        dsimp only
        rw [if_pos rfl]
        cases payload line with
        | error e => exact .withFound_error rfl
        | ok chunk =>
            refine .accept ((h.template?_extended hpending chunk).trans ?_)
            cases started <;> rfl
      · dsimp only
        rw [if_neg hsame]
        exact .withFound rfl fun chunk _ => .accept (hother (by simp [hsame]))

/-- A line puts the piece that it adds onto the value of a key. -/
theorem State.IsSound.template?_step [Machine] (h : s.IsSound) (line key : Text) :
    Leads (fun t => t.template? (.single key) = s.valueWith key (s.piece? line key))
      (s.step line) := by
  rw [State.step_eq_stepAs, State.piece?]
  cases LineKind.of line with
  | blank | comment | emptyKey | context => exact .accept rfl
  | emptyValue => exact .accept (s.startEmptyValue_template? (.single key))
  | formula => exact State.setFormula_template? (.single key)
  | continuation => exact h.template?_continueWith line key
  | key => exact .withFound rfl fun _ _ => .accept rfl
  | value => exact s.template?_startValue line key
  | unknown =>
      intro t problem ht
      cases ht
      rfl

theorem payload_of_opened? {piece : Piece} (h : s.opened? line key = some piece) :
    payload line = .ok piece.text := by
  unfold State.opened? at h
  split at h
  · obtain ⟨text, htext, rfl⟩ := Option.map_eq_some_iff.1 h
    exact toOption_eq_some_iff.1 htext
  · cases h

theorem payload_of_continued? {piece : Piece} (h : s.continued? line key = some piece) :
    payload line = .ok piece.text := by
  unfold State.continued? at h
  split at h
  · rename_i started _
    split at h
    · obtain ⟨text, htext, rfl⟩ := Option.map_eq_some_iff.1 h
      cases started <;> exact toOption_eq_some_iff.1 htext
    · cases h
  · cases h

/-- The piece that a line adds is between its quotes, and the line is not `msgstr ""`. -/
theorem State.payload_of_piece? {piece : Piece} (h : s.piece? line key = some piece) :
    IsValueLine line ∧ line ≠ emptyValueLine ∧ payload line = .ok piece.text := by
  unfold State.piece? at h
  have hne : LineKind.of line ≠ .emptyValue → line ≠ emptyValueLine := by
    rintro hkind rfl
    exact hkind rfl
  split at h
  · rename_i hkind
    exact ⟨.inl (LineKind.startsWith_valueWord hkind), hne (by rw [hkind]; exact nofun),
      payload_of_opened? h⟩
  · rename_i hkind
    exact ⟨.inr (LineKind.head?_of_continuation hkind), hne (by rw [hkind]; exact nofun),
      payload_of_continued? h⟩
  · cases h

end Steps

section Runs

variable {r : Reading} {number : Nat} {s t : State} {lines : List Text} {junk : List JunkLine}
  {key : Text}

/-- What the lines of a reading add to the value of a key. -/
def pieces [Machine] (key : Text) (s : State) : List Text → List Piece
  | [] => []
  | content :: lines =>
      (s.piece? (Text.trim content) key).toList ++
        match s.step (Text.trim content) with
        | .ok (next, problem) => pieces key (next.beyond problem) lines
        | .error _ => []

theorem pieces_cons [Machine] {content : Text} {next : State} {problem : Option Problem}
    (h : s.step (Text.trim content) = .ok (next, problem)) :
    pieces key s (content :: lines) =
      (s.piece? (Text.trim content) key).toList ++ pieces key (next.beyond problem) lines := by
  rw [pieces]
  simp only [h]

theorem State.template?_beyond (s : State) (problem : Option Problem) (place : Place) :
    (s.beyond problem).template? place = s.template? place := by
  cases problem <;> rfl

/-- The value of a key behind a run is what was there with the pieces of the lines. -/
theorem Reading.template?_run [Machine] (hr : r.strict = false) (hs : s.IsSound)
    (h : r.run number s lines = .ok (t, junk)) :
    t.template? (.single key) =
      (pieces key s lines).foldl Piece.onto (s.template? (.single key)) := by
  induction lines generalizing number s junk with
  | nil =>
      cases h
      rfl
  | cons content lines ih =>
      obtain ⟨next, problem, rest, hstep, hrun, -⟩ := (run_cons_eq_ok_iff hr).1 h
      have hnext := hs.template?_step (Text.trim content) key next problem hstep
      have hsound : (next.beyond problem).IsSound := (hs.step next problem hstep).beyond problem
      rw [ih hsound hrun, State.template?_beyond, hnext, pieces_cons hstep, List.foldl_append]
      rfl

/-- The pieces of a reading are between quotes of its lines. -/
theorem exists_of_mem_pieces [Machine] {piece : Piece} (h : piece ∈ pieces key s lines) :
    ∃ content ∈ lines, IsValueLine (Text.trim content) ∧ Text.trim content ≠ emptyValueLine ∧
      payload (Text.trim content) = .ok piece.text := by
  induction lines generalizing s with
  | nil => cases h
  | cons content lines ih =>
      rw [pieces, List.mem_append] at h
      rcases h with h | h
      · exact ⟨content, List.mem_cons_self, State.payload_of_piece? (Option.mem_toList.1 h)⟩
      · cases hstep : s.step (Text.trim content) with
        | error e => simp [hstep] at h
        | ok result =>
            simp only [hstep] at h
            obtain ⟨other, hother, hpiece⟩ := ih h
            exact ⟨other, List.mem_cons_of_mem content hother, hpiece⟩

end Runs

section Lookups

variable [Machine] {c : Catalog} {before after : List File} {file : File} {key : Text}

/-- A file without a template for the key makes no difference. -/
theorem single_of_get?_eq_none (hfiles : c.files = before ++ file :: after)
    (hnone : file.singles.values.get? key = none) (args : List Argument) :
    c.single key args = Catalog.single { c with files := before ++ after } key args := by
  rw [Catalog.single_eq, Catalog.single_eq, hfiles, List.findSome?_append, List.findSome?_append,
    List.findSome?_cons, hnone]

theorem fill_nil (args : List Argument) : fill [] args = .ok [] := by
  cases args with
  | nil => simp [fill, formatTemplate, Printf.Piece.ofText, Except.mapError]
  | cons a args =>
      simp [fill, formatTemplate, Printf.Piece.ofText, assign, applyFormat, Item.ofText,
        Item.applyAll, Except.mapError]

/-- The first file with a template answers, even if the template is empty. -/
theorem single_of_get?_eq_nil (hfiles : c.files = before ++ file :: after)
    (hbefore : ∀ f ∈ before, f.singles.values.get? key = none)
    (hnil : file.singles.values.get? key = some []) (args : List Argument) :
    c.single key args = .ok (.found [] none) := by
  rw [Catalog.single_eq, hfiles, List.findSome?_append, List.findSome?_eq_none_iff.2 hbefore,
    Option.none_or, List.findSome?_cons, hnil]
  exact congrArg (Except.map fun text => Lookup.found text none) (fill_nil args)

end Lookups

section Results

variable {path : Option Text} {formula : Formula} {lines : List Text} {file : File}
  {key value : Text}

theorem File.get?_eq_foldl [Machine] (h : File.parse ⟨false, path⟩ formula lines = .ok file)
    (key : Text) :
    file.singles.values.get? key =
      (pieces key (State.initial formula) lines).foldl Piece.onto none := by
  obtain ⟨⟨t, junk⟩, hrun, hfile⟩ := map_eq_ok_iff.1 h
  rw [← hfile]
  exact Reading.template?_run rfl (.of_target? rfl) hrun

/-- The value of a key is the text of the last piece that opens it with those behind. -/
theorem File.get?_eq_some_iff [Machine] (h : File.parse ⟨false, path⟩ formula lines = .ok file) :
    file.singles.values.get? key = some value ↔
      ∃ (front : List Piece) (text : Text) (texts : List Text),
        pieces key (State.initial formula) lines = front ++ .opening text :: texts.map .more ∧
          value = text ++ texts.flatten := by
  rw [File.get?_eq_foldl h, foldl_onto_eq_some_iff]

/-- A template is empty exactly if the piece that opens it and all behind are.  It is not if the
line `msgstr ""` is the only one with an empty value.  A key that no piece opens is left to the
other files, and an empty template is an answer. -/
theorem File.emptyTemplate_iff [Machine] (h : File.parse ⟨false, path⟩ formula lines = .ok file)
    (key : Text) :
    (file.singles.values.get? key = some [] ↔
      ∃ (front : List Piece) (texts : List Text),
        pieces key (State.initial formula) lines = front ++ .opening [] :: texts.map .more ∧
          ∀ text ∈ texts, text = []) ∧
    ((∀ content ∈ lines, IsValueLine (Text.trim content) → payload (Text.trim content) = .ok [] →
        Text.trim content = emptyValueLine) →
      file.singles.values.get? key ≠ some []) ∧
    (file.singles.values.get? key = none ↔
      ∀ text, .opening text ∉ pieces key (State.initial formula) lines) ∧
    ∀ (c : Catalog) (before after : List File), c.files = before ++ file :: after →
      (file.singles.values.get? key = none → ∀ args,
        c.single key args = Catalog.single { c with files := before ++ after } key args) ∧
      (file.singles.values.get? key = some [] →
        (∀ f ∈ before, f.singles.values.get? key = none) →
          ∀ args, c.single key args = .ok (.found [] none)) := by
  have hempty : file.singles.values.get? key = some [] ↔
      ∃ (front : List Piece) (texts : List Text),
        pieces key (State.initial formula) lines = front ++ .opening [] :: texts.map .more ∧
          ∀ text ∈ texts, text = [] := by
    rw [File.get?_eq_some_iff h]
    constructor
    · rintro ⟨front, text, texts, hpieces, hvalue⟩
      obtain ⟨rfl, htexts⟩ := List.append_eq_nil_iff.1 hvalue.symm
      exact ⟨front, texts, hpieces, List.flatten_eq_nil_iff.1 htexts⟩
    · rintro ⟨front, texts, hpieces, htexts⟩
      exact ⟨front, [], texts, hpieces, (List.flatten_eq_nil_iff.2 htexts).symm⟩
  refine ⟨hempty, fun honly hnil => ?_, ?_, fun c before after hfiles =>
    ⟨single_of_get?_eq_none hfiles, fun hnil hbefore => single_of_get?_eq_nil hfiles hbefore hnil⟩⟩
  · obtain ⟨front, texts, hpieces, -⟩ := hempty.1 hnil
    have hmem : .opening [] ∈ pieces key (State.initial formula) lines := by
      rw [hpieces]
      exact List.mem_append_right front List.mem_cons_self
    obtain ⟨content, hcontent, hline, hne, hpayload⟩ := exists_of_mem_pieces hmem
    exact hne (honly content hcontent hline hpayload)
  · rw [File.get?_eq_foldl h, foldl_onto_eq_none_iff]

/-- An entry that is not translated, with one behind it whose value stands on the next line. -/
theorem File.emptyTemplate_iff_untranslated :
    let lines := ["msgid \"a\"", "msgstr \"\"", "msgid \"b\"", "msgstr \"\"", "\"x\""].map
      String.toList
    ∃ file, File.parse ⟨false, none⟩ .empty lines = .ok file ∧
      file.singles.values.get? ['b'] = some ['x'] ∧ file.singles.values.get? ['a'] = none ∧
      ∀ (c : Catalog) (before after : List File), c.files = before ++ file :: after → ∀ args,
        c.single ['a'] args = Catalog.single { c with files := before ++ after } ['a'] args := by
  intro lines
  obtain ⟨file, hfile⟩ : ∃ file, File.parse ⟨false, none⟩ .empty lines = .ok file := ⟨_, rfl⟩
  obtain ⟨-, -, hnone, hlookups⟩ := File.emptyTemplate_iff hfile ['a']
  have hpieces : pieces ['a'] (State.initial .empty) lines = [] := rfl
  have hmissing : file.singles.values.get? ['a'] = none := hnone.2 (by simp [hpieces])
  refine ⟨file, hfile, ?_, hmissing, fun c before after hfiles => ?_⟩
  · cases hfile
    rfl
  · exact (hlookups c before after hfiles).1 hmissing

/-- With two blanks before its quotes, or with empty quotes on the next line, an entry without a
translation has an empty template, which is given out in place of the next file's. -/
theorem parse_emptyValue :
    let spaced := ["msgid \"a\"", "msgstr  \"\""].map String.toList
    let continued := ["msgid \"a\"", "msgstr \"\"", "\"\""].map String.toList
    let translated := ["msgid \"a\"", "msgstr \"x\""].map String.toList
    ∃ first second third, File.parse ⟨false, none⟩ .empty spaced = .ok first ∧
      File.parse ⟨false, none⟩ .empty continued = .ok second ∧
      File.parse ⟨false, none⟩ .empty translated = .ok third ∧
      first.singles.values.get? ['a'] = some [] ∧ second.singles.values.get? ['a'] = some [] ∧
      ∀ c : Catalog, c.files = [first, third] → c.single ['a'] [] = .ok (.found [] none) := by
  refine ⟨_, _, _, rfl, rfl, rfl, rfl, rfl, fun c hfiles => ?_⟩
  exact @single_of_get?_eq_nil _ c [] _ _ _ hfiles nofun rfl []

end Results

end Po
end Phrasebook
