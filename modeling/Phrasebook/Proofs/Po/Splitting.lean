import Phrasebook.Proofs.Po.Continuation
import Phrasebook.Proofs.Po.Exchange
import Phrasebook.Proofs.Po.Rendering

/-!
# Messages in pieces

A key or a value may stand on one line, or in chunks of which the first is on the line of its word
and the others are on continuation lines.

**Pieces.**  A `Passage` is the payload of one directive in chunks, a `Message` an entry of them;
`Message.whole` has every payload on one line.
**Reading.**  The chunks of a passage leave the same state behind as its whole text
(`Passage.reads_key` and the lemmas behind it).
**Result.**  `parse_pieces`: a message in pieces, with comments among its lines, may stand for the
whole one in any file.
-/

namespace Phrasebook
namespace Po

open Plural (Formula FormulaError)

section Pieces

/-- A payload in chunks; `gap` stands between the word of the line and the first quote. -/
structure Passage where
  gap : Text
  first : Text
  more : List Text

namespace Passage

/-- The payload as it stands between quotes. -/
def payload (p : Passage) : Text :=
  p.first ++ p.more.flatten

/-- The text that the chunks say. -/
def text (p : Passage) : Text :=
  Text.unescape p.first ++ (p.more.map Text.unescape).flatten

/-- The lines of the chunks behind a word. -/
def lines (word : Text) (p : Passage) : List Text :=
  quotedLine (word ++ p.gap) p.first :: p.more.map (quotedLine [])

/-- The payload in one chunk. -/
def whole (p : Passage) : Passage :=
  ⟨p.gap, p.payload, []⟩

/-- Can the chunks be read one by one?  No cut parts a backslash from its character, and no
continuation line begins like the header line of the formula. -/
structure IsSound (p : Passage) : Prop where
  gap_blank : p.gap.all isBlank = true
  first_closed : Text.IsClosed p.first
  more_closed : ∀ chunk ∈ p.more, Text.IsClosed chunk
  not_formula : ∀ chunk ∈ p.more, (quotedLine [] chunk).startsWith formulaField = false

end Passage

/-- An entry in pieces; a plural value comes with what stands between its brackets. -/
inductive Message
  | single (key value : Passage)
  | plural (key : Passage) (values : List (Text × Passage))

namespace Message

/-- The lines of an entry. -/
def lines : Message → List Text
  | .single key value => key.lines keyWord ++ value.lines valueWord
  | .plural key values =>
      key.lines pluralKeyWord ++ values.flatMap fun v => v.2.lines (indexedWord v.1)

/-- The entry with every payload on one line. -/
def whole : Message → Message
  | .single key value => .single key.whole value.whole
  | .plural key values => .plural key.whole (values.map fun v => (v.1, v.2.whole))

/-- Are the passages sound, the key and the value of a single entry not empty, and the indices of
a plural one digits? -/
def IsSound : Message → Prop
  | .single key value => key.IsSound ∧ value.IsSound ∧ key.payload ≠ [] ∧ value.payload ≠ []
  | .plural key values =>
      key.IsSound ∧ ∀ v ∈ values, Text.allIn isDigit (Text.trim v.1) = true ∧ v.2.IsSound

end Message

end Pieces

section Chunks

variable {s : State}

/-- The directive with a chunk behind its text. -/
def Directive.extended (chunk : Text) : Directive → Directive
  | .key text => .key (text ++ chunk)
  | .pluralKey text => .pluralKey (text ++ chunk)
  | .value text => .value (text ++ chunk)
  | .pluralValue category text => .pluralValue category (text ++ chunk)

theorem Directive.pending_apply (d : Directive) (s : State) : (d.apply s).pending ≠ .header := by
  cases d <;> exact nofun

theorem SingleStore.append_set (store : SingleStore) (key value chunk : Text) :
    (store.set key value).append key chunk = store.set key (value ++ chunk) := by
  unfold SingleStore.append SingleStore.set Table.modify
  rw [Table.get?_set, if_pos rfl, Table.set_set]
  rfl

theorem PluralStore.append_add (store : PluralStore) (key : Text) (category : Int)
    (value chunk : Text) :
    (store.add key category value).append key category chunk =
      store.add key category (value ++ chunk) := by
  rw [PluralStore.add, PluralStore.append, PluralStore.update_update, PluralStore.add]
  congr 1
  funext templates
  rw [Table.modify, Table.get?_set, if_pos rfl, Table.set_set]
  rfl

/-- A chunk behind a directive is a chunk of the directive. -/
theorem Directive.extended_apply (d : Directive) (s : State) (chunk : Text) :
    (d.apply s).extended chunk = (d.extended chunk).apply s := by
  cases d with
  | key | pluralKey => rfl
  | value text =>
      have hstore := SingleStore.append_set s.singles s.key text chunk
      exact congrArg (fun store => { s with singles := store, pending := .value true }) hstore
  | pluralValue category text =>
      have hstore := PluralStore.append_add s.plurals s.key category text chunk
      exact congrArg (fun store => { s with plurals := store, pending := .pluralValue category })
        hstore

end Chunks

section Reading

variable {s : State} {p : Passage}

theorem Passage.text_eq (h : p.IsSound) : p.text = Text.unescape p.payload :=
  (Text.unescape_append_flatten h.first_closed h.more_closed).symm

theorem Passage.text_whole (h : p.IsSound) : p.whole.text = p.text := by
  rw [p.text_eq h]
  exact List.append_nil _

variable [Machine]

/-- The chunks on continuation lines are chunks of the directive in front of them. -/
theorem reads_more {more : List Text}
    (hmore : ∀ chunk ∈ more, (quotedLine [] chunk).startsWith formulaField = false)
    (d : Directive) (s : State) :
    Reads (d.apply s) (more.map (quotedLine []))
      (.ok ((d.extended (more.map Text.unescape).flatten).apply s)) := by
  induction more generalizing d with
  | nil =>
      have hsame : d.extended [] = d := by
        cases d <;> exact congrArg _ (List.append_nil _)
      exact hsame.symm ▸ .nil (d.apply s)
  | cons chunk more ih =>
      obtain ⟨hchunk, hrest⟩ := List.forall_mem_cons.1 hmore
      have hstep : (d.apply s).step (quotedLine [] chunk) =
          .ok ((d.extended (Text.unescape chunk)).apply s, none) := by
        rw [State.step_continuation rfl hchunk (d.pending_apply s)
          (payload_continuation chunk), d.extended_apply]
      have hboth : (d.extended (Text.unescape chunk)).extended (more.map Text.unescape).flatten =
          d.extended ((chunk :: more).map Text.unescape).flatten := by
        cases d <;> exact congrArg _ (List.append_assoc ..)
      rw [← hboth]
      exact .line hstep (ih hrest _)

/-- A directive whose first chunk is read takes the others with it. -/
theorem Passage.reads_lines {word : Text}
    (hmore : ∀ chunk ∈ p.more, (quotedLine [] chunk).startsWith formulaField = false)
    {d : Directive}
    (hfirst : s.step (quotedLine (word ++ p.gap) p.first) = .ok (d.apply s, none)) :
    Reads s (p.lines word)
      (.ok ((d.extended (p.more.map Text.unescape).flatten).apply s)) :=
  .line hfirst (reads_more hmore d s)

theorem Passage.reads_key (hgap : p.gap.all isBlank = true)
    (hmore : ∀ chunk ∈ p.more, (quotedLine [] chunk).startsWith formulaField = false)
    (s : State) : Reads s (p.lines keyWord) (.ok ((Directive.key p.text).apply s)) :=
  p.reads_lines hmore (s.step_keyLine hgap p.first)

theorem Passage.reads_pluralKey (hgap : p.gap.all isBlank = true)
    (hmore : ∀ chunk ∈ p.more, (quotedLine [] chunk).startsWith formulaField = false)
    (s : State) : Reads s (p.lines pluralKeyWord) (.ok ((Directive.pluralKey p.text).apply s)) :=
  p.reads_lines hmore (s.step_pluralKeyLine hgap p.first)

/-- A value that is not empty is set in the end, even if its first chunk is empty. -/
theorem Passage.reads_value (hgap : p.gap.all isBlank = true)
    (hmore : ∀ chunk ∈ p.more, (quotedLine [] chunk).startsWith formulaField = false)
    (hplural : s.isPlural = false) (hkey : s.key ≠ []) (htext : p.text ≠ []) :
    Reads s (p.lines valueWord) (.ok ((Directive.value p.text).apply s)) := by
  rcases State.step_valueLine hplural hkey hgap p.first with hfirst | ⟨hempty, hfirst⟩
  · exact p.reads_lines hmore hfirst
  · obtain ⟨gap, first, more⟩ := p
    cases more with
    | nil => exact absurd (by simp [text, hempty]) htext
    | cons chunk more =>
        obtain ⟨hchunk, hrest⟩ := List.forall_mem_cons.1 hmore
        have hsecond : { s with pending := .value false }.step (quotedLine [] chunk) =
            .ok ((Directive.value (Text.unescape chunk)).apply s, none) :=
          State.step_continuation rfl hchunk nofun (payload_continuation chunk)
        have htext : Passage.text ⟨gap, first, chunk :: more⟩ =
            Text.unescape chunk ++ (more.map Text.unescape).flatten := by
          simp [text, hempty]
        rw [htext]
        exact .line hfirst (.line hsecond (reads_more hrest _ s))

theorem Passage.reads_indexed {index : Text}
    (hindex : Text.allIn isDigit (Text.trim index) = true) (hgap : p.gap.all isBlank = true)
    (hmore : ∀ chunk ∈ p.more, (quotedLine [] chunk).startsWith formulaField = false)
    (hplural : s.isPlural = true) :
    Reads s (p.lines (indexedWord index))
      (((readNumeral (Text.trim index)).mapError FormulaError.numeral).map fun category =>
        (Directive.pluralValue category p.text).apply s) := by
  have hfirst := State.step_indexedLine hplural hindex hgap p.first
  cases hnumeral : readNumeral (Text.trim index) with
  | error e =>
      rw [hnumeral] at hfirst
      exact .stopped _ hfirst
  | ok category =>
      rw [hnumeral] at hfirst
      exact p.reads_lines hmore hfirst

end Reading

section Messages

variable {s t : State} {m : Message}

theorem agree_values [Machine] {values : List (Text × Passage)}
    (hvalues : ∀ v ∈ values, Text.allIn isDigit (Text.trim v.1) = true ∧ v.2.IsSound)
    (hplural : s.isPlural = true) :
    Agree s (values.flatMap fun v => v.2.lines (indexedWord v.1))
      ((values.map fun v => (v.1, v.2.whole)).flatMap fun v => v.2.lines (indexedWord v.1)) := by
  induction values generalizing s with
  | nil => exact ⟨.ok s, .nil s, .nil s⟩
  | cons v values ih =>
      obtain ⟨⟨hindex, hsound⟩, hrest⟩ := List.forall_mem_cons.1 hvalues
      have hreads := v.2.reads_indexed hindex hsound.gap_blank hsound.not_formula hplural
      have hwhole := v.2.whole.reads_indexed hindex hsound.gap_blank nofun hplural
      rw [v.2.text_whole hsound] at hwhole
      rw [List.map_cons, List.flatMap_cons, List.flatMap_cons]
      -- An index that cannot be read ends both readings in front of the other values.
      cases hnumeral : readNumeral (Text.trim v.1) with
      | error e =>
          rw [hnumeral] at hreads hwhole
          exact ⟨.error (.numeral e), hreads.append_error _, hwhole.append_error _⟩
      | ok category =>
          rw [hnumeral] at hreads hwhole
          exact .behind hreads hwhole (ih hrest hplural)

/-- Whatever a state has read before, it reads a message in pieces like the whole one. -/
theorem Message.agree_whole [Machine] (hm : m.IsSound) (s : State) :
    Agree s m.lines m.whole.lines := by
  cases m with
  | single key value =>
      obtain ⟨hkey, hvalue, hkeyText, hvalueText⟩ := hm
      have hreads := key.reads_key hkey.gap_blank hkey.not_formula s
      have hwhole := key.whole.reads_key hkey.gap_blank nofun s
      rw [key.text_whole hkey] at hwhole
      refine .behind hreads hwhole ?_
      have hfilled : ∀ p : Passage, p.IsSound → p.payload ≠ [] → p.text ≠ [] := by
        intro p hp hpayload
        rw [p.text_eq hp]
        exact Text.unescape_ne_nil hpayload
      have hset := value.reads_value (s := (Directive.key key.text).apply s) hvalue.gap_blank
        hvalue.not_formula rfl (hfilled key hkey hkeyText) (hfilled value hvalue hvalueText)
      have hsetWhole := value.whole.reads_value (s := (Directive.key key.text).apply s)
        hvalue.gap_blank nofun rfl (hfilled key hkey hkeyText)
        (by rw [value.text_whole hvalue]; exact hfilled value hvalue hvalueText)
      rw [value.text_whole hvalue] at hsetWhole
      exact ⟨_, hset, hsetWhole⟩
  | plural key values =>
      obtain ⟨hkey, hvalues⟩ := hm
      have hreads := key.reads_pluralKey hkey.gap_blank hkey.not_formula s
      have hwhole := key.whole.reads_pluralKey hkey.gap_blank nofun s
      rw [key.text_whole hkey] at hwhole
      exact .behind hreads hwhole (agree_values hvalues rfl)

theorem Passage.trim_of_mem_lines {word line : Text} (hword : word.head? = some 'm')
    {p : Passage} (h : line ∈ p.lines word) : Text.trim line = line := by
  rcases List.mem_cons.1 h with rfl | hmore
  · have hfront : (word ++ p.gap).head? = some 'm' := by
      rw [List.head?_append, hword]
      rfl
    exact trim_wordLine hfront p.first
  · obtain ⟨chunk, -, rfl⟩ := List.mem_map.1 hmore
    exact trim_continuation chunk

theorem Message.trim_of_mem_lines {line : Text} (h : line ∈ m.lines) : Text.trim line = line := by
  cases m with
  | single key value =>
      rcases List.mem_append.1 h with hkey | hvalue
      · exact Passage.trim_of_mem_lines rfl hkey
      · exact Passage.trim_of_mem_lines rfl hvalue
  | plural key values =>
      rcases List.mem_append.1 h with hkey | hvalues
      · exact Passage.trim_of_mem_lines rfl hkey
      · obtain ⟨v, -, hvalue⟩ := List.mem_flatMap.1 hvalues
        exact Passage.trim_of_mem_lines rfl hvalue

theorem Passage.length_lines_whole_le (word : Text) (p : Passage) :
    (p.whole.lines word).length ≤ (p.lines word).length :=
  Nat.succ_le_succ (Nat.zero_le _)

theorem Message.length_lines_whole_le (m : Message) : m.whole.lines.length ≤ m.lines.length := by
  cases m with
  | single key value =>
      have hkey := key.length_lines_whole_le keyWord
      have hvalue := value.length_lines_whole_le valueWord
      rw [lines, whole, lines, List.length_append, List.length_append]
      omega
  | plural key values =>
      have hkey := key.length_lines_whole_le pluralKeyWord
      have hvalues : ((values.map fun v => (v.1, v.2.whole)).flatMap
          fun v => v.2.lines (indexedWord v.1)).length ≤
            (values.flatMap fun v => v.2.lines (indexedWord v.1)).length := by
        induction values with
        | nil => exact Nat.le_refl 0
        | cons v values ih =>
            have hvalue := v.2.length_lines_whole_le (indexedWord v.1)
            simp only [List.map_cons, List.flatMap_cons, List.length_append]
            omega
      rw [lines, whole, lines, List.length_append, List.length_append]
      omega

/-- A message in pieces, with comments among its lines, reads like the whole one wherever it
stands: nothing but the numbers of the lines behind it tells the files apart. -/
theorem parse_pieces [Machine] (r : Reading) (formula : Formula) (hm : m.IsSound)
    {contents : List Text} (hcontents : Annotated m.lines contents) (front behind : List Text) :
    File.parse r formula (front ++ (contents ++ behind)) =
      renumberedParse
        (movedBehind (front.length + m.whole.lines.length)
          (contents.length - m.whole.lines.length))
        (File.parse r formula (front ++ (m.whole.lines ++ behind))) := by
  have hwhole : Annotated m.whole.lines m.whole.lines :=
    .of_trim fun _ hline => Message.trim_of_mem_lines hline
  exact parse_exchange r formula (fun s => Message.agree_whole hm s) hcontents hwhole
    (Nat.le_trans m.length_lines_whole_le hcontents.length_le) front behind

/-- A key that has a value already, in chunks with a comment between them and an escape at a cut;
the junk behind stands four lines further down. -/
theorem parse_pieces_greeting :
    let m : Message :=
      .single ⟨[' '], [], [['h'], ['i']]⟩ ⟨[' '], "a\\n".toList, ["b\\\\".toList]⟩
    let front := ["msgid \"hi\"", "msgstr \"old\""].map String.toList
    let contents := ["msgid \"\"", "  \"h\"", "# still the key", "\"i\"", "msgstr \"a\\n\"",
      "\"b\\\\\""].map String.toList
    let behind := ["nonsense".toList]
    m.IsSound ∧ Annotated m.lines contents ∧
      ∃ file, File.parse ⟨false, none⟩ .empty (front ++ (m.whole.lines ++ behind)) = .ok file ∧
        file.template? (.single "hi".toList) = some "a\nb\\".toList ∧
        file.junk.map JunkLine.lineNumber = [5] ∧
        File.parse ⟨false, none⟩ .empty (front ++ (contents ++ behind)) =
          .ok { file with junk := file.junk.map (JunkLine.renumbered (movedBehind 4 4)) } := by
  intro m front contents behind
  have hkey : Passage.IsSound ⟨[' '], [], [['h'], ['i']]⟩ :=
    ⟨rfl, by decide, by decide, by decide⟩
  have hvalue : Passage.IsSound ⟨[' '], "a\\n".toList, ["b\\\\".toList]⟩ :=
    ⟨rfl, by decide, by decide, by decide⟩
  have hm : m.IsSound := ⟨hkey, hvalue, by decide, by decide⟩
  have hcontents : Annotated m.lines contents :=
    .line rfl (.line rfl (.comment rfl (.line rfl (.line rfl (.line rfl .nil)))))
  refine ⟨hm, hcontents, _, rfl, rfl, rfl, ?_⟩
  exact parse_pieces ⟨false, none⟩ .empty hm hcontents front behind

end Messages

end Po
end Phrasebook
