import Phrasebook.Proofs.Plural.LineEnd
import Phrasebook.Proofs.Po.Directives
import Phrasebook.Proofs.Po.Exchange
import Phrasebook.Proofs.Text.Escaping

/-!
# Headers in pieces

The header is read line by line, and a line is one field.

**Fields.**  A `Field` is a name and a value as a payload shows them; `Laid` says that chunks have
some fields, each of them in one piece and none with another in one chunk.
**Reading.**  Such a chunk does to the state what the line of its field does
(`Field.StandsIn.step_eq`).
**Result.**  `parse_laid`: chunks that have the fields may stand for the lines of the fields in any
file.  A header that is cut inside a field, or has two fields in one chunk, loses some
(`parse_cutFields`).
-/

namespace Phrasebook
namespace Po

open Plural (Formula)

section Fields

/-- The escape of a line feed, which ends every field. -/
def feed : Text := ['\\', 'n']

/-- Is there nothing but perhaps the end of a field? -/
def IsGap (t : Text) : Prop :=
  t = [] ∨ t = feed

/-- The name of the header field with the plural formula. -/
def formulaName : Text := "Plural-Forms".toList

/-- The fields that the beginning of their line tells from others. -/
def markedNames : List Text := [languageName, formulaName]

/-- A header field as a payload shows it. -/
structure Field where
  name : Text
  value : Text

namespace Field

/-- The field without its end. -/
def text (f : Field) : Text :=
  f.name ++ ':' :: f.value

/-- The field with its end. -/
def whole (f : Field) : Text :=
  f.text ++ feed

/-- Does the first colon stand behind the name, and does no backslash wait for the end of the
field? -/
structure IsSound (f : Field) : Prop where
  name_plain : ':' ∉ f.name
  closed : Text.IsClosed f.text

/-- The chunk has the field, perhaps with the end of the field in front of it, and with its own end
or without.  A marked field begins its chunk, and a formula whose text looks as if it had an end has
its own. -/
inductive StandsIn (f : Field) : Text → Prop
  | mk {lead trail : Text} (lead_gap : IsGap lead) (trail_gap : IsGap trail)
      (begins : f.name ∈ markedNames → lead = [])
      (ends : f.name = formulaName → feed <:+ f.text → trail = feed) :
      f.StandsIn (lead ++ (f.text ++ trail))

end Field

/-- The chunks have the fields in order, at most one of them each. -/
inductive Laid : List Field → List Text → Prop
  | nil : Laid [] []
  | gap {chunk : Text} {fields : List Field} {chunks : List Text} :
      IsGap chunk → Laid fields chunks → Laid fields (chunk :: chunks)
  | field {f : Field} {chunk : Text} {fields : List Field} {chunks : List Text} :
      f.StandsIn chunk → Laid fields chunks → Laid (f :: fields) (chunk :: chunks)

/-- The header that has the chunks on a line each. -/
def headerLines (chunks : List Text) : List Text :=
  emptyKeyLine :: emptyValueLine :: chunks.map (quotedLine [])

end Fields

section Lines

variable {f : Field} {chunk trail word : Text}

theorem mem_markedNames : word ∈ markedNames ↔ word = languageName ∨ word = formulaName := by
  rw [markedNames, List.mem_cons, List.mem_singleton]

theorem Field.standsIn_whole (f : Field) : f.StandsIn f.whole :=
  .mk (.inl rfl) (.inr rfl) (fun _ => rfl) (fun _ _ => rfl)

/-- A chunk of the header begins like the line of a marked field exactly if it has that field. -/
theorem Field.startsWith_iff (hname : ':' ∉ f.name) (hword : ':' ∉ word) (trail : Text) :
    (quotedLine [] (f.text ++ trail)).startsWith ('"' :: (word ++ [':'])) = true ↔
      f.name = word := by
  have hline : quotedLine [] (f.text ++ trail) =
      '"' :: (f.name ++ ':' :: (f.value ++ trail ++ ['"'])) := by
    simp [quotedLine, text]
  rw [hline]
  constructor
  · intro hstarts
    obtain ⟨rest, hrest⟩ := List.isPrefixOf_iff_prefix.1 hstarts
    have hparts : word ++ ':' :: rest = f.name ++ ':' :: (f.value ++ trail ++ ['"']) := by
      simpa using hrest
    have hbefore := congrArg (Text.before ':') hparts
    rw [Text.before_append hword, Text.before_append hname] at hbefore
    exact hbefore.symm
  · rintro rfl
    exact List.isPrefixOf_iff_prefix.2 ⟨f.value ++ trail ++ ['"'], by simp⟩

theorem Field.StandsIn.startsWith_iff (hf : f.IsSound) (h : f.StandsIn chunk)
    (hword : word ∈ markedNames) :
    (quotedLine [] chunk).startsWith ('"' :: (word ++ [':'])) = true ↔ f.name = word := by
  have hplain : ':' ∉ word := by
    rcases mem_markedNames.1 hword with rfl | rfl <;> decide
  obtain ⟨rfl | rfl, -, hbegins, -⟩ := h
  · exact Field.startsWith_iff hf.name_plain hplain _
  · constructor
    · intro hstarts
      rcases mem_markedNames.1 hword with rfl | rfl <;> cases hstarts
    · rintro rfl
      cases hbegins hword

/-- The ends of fields are blank. -/
theorem Field.StandsIn.trim_unescape (hf : f.IsSound) (h : f.StandsIn chunk) :
    Text.trim (Text.unescape chunk) = Text.trim (Text.unescape f.text) := by
  have hfeed : isBlank '\n' = true := rfl
  obtain ⟨hlead, htrail, -, -⟩ := h
  rename_i lead trail
  have hbehind : Text.trim (Text.unescape (f.text ++ trail)) =
      Text.trim (Text.unescape f.text) := by
    rw [Text.unescape_append hf.closed]
    rcases htrail with rfl | rfl
    · exact congrArg Text.trim (List.append_nil _)
    · exact Text.trim_concat_of_isBlank hfeed _
  rcases hlead with rfl | rfl
  · exact hbehind
  · exact (Text.trim_cons_of_isBlank hfeed _).trans hbehind

theorem withoutEscapedFeeds_append (htrail : IsGap trail) (value : Text) :
    withoutEscapedFeeds (value ++ trail) = withoutEscapedFeeds value := by
  rcases htrail with rfl | rfl
  · rw [List.append_nil]
  · induction value using withoutEscapedFeeds.induct with
    | case1 => rfl
    | case2 c =>
        have hc : ¬ (c = '\\' ∧ '\\' = 'n') := fun h => absurd h.2 (by decide)
        exact if_neg hc
    | case3 c d rest hescape ih =>
        rw [List.cons_append, List.cons_append, withoutEscapedFeeds, if_pos hescape, ih,
          withoutEscapedFeeds, if_pos hescape]
    | case4 c d rest hplain ih =>
        rw [List.cons_append, List.cons_append, withoutEscapedFeeds, if_neg hplain,
          ← List.cons_append, ih, withoutEscapedFeeds, if_neg hplain]

/-- The language that a field declares does not depend on the end of the field. -/
theorem Field.declaredLanguage?_eq (hf : f.IsSound) (htrail : IsGap trail) :
    declaredLanguage? (quotedLine [] (f.text ++ trail)) =
      declaredLanguage? (quotedLine [] f.whole) := by
  have hquoted : ':' ∉ '"' :: f.name := by
    simp [hf.name_plain]
  have hline : ∀ trail, quotedLine [] (f.text ++ trail) =
      ('"' :: f.name) ++ ':' :: (f.value ++ trail ++ ['"']) := by
    intro trail
    simp [quotedLine, text]
  rw [whole, hline, hline, declaredLanguage?, declaredLanguage?, Text.after?_append hquoted,
    Text.after?_append hquoted, Option.map_some, Option.map_some, Text.dropSuffix_append,
    Text.dropSuffix_append, withoutEscapedFeeds_append htrail,
    withoutEscapedFeeds_append (.inr rfl)]

/-- Nor does the formula. -/
theorem Field.ofHeader_eq [Machine] (htrail : IsGap trail) (h : feed <:+ f.text → trail = feed) :
    Formula.ofHeader (quotedLine [] (f.text ++ trail)) =
      Formula.ofHeader (quotedLine [] f.whole) := by
  rcases htrail with rfl | rfl
  · -- The quote in front of the text is no part of an end.
    have hend : ¬ ['\\', 'n'] <:+ '"' :: f.text := by
      rw [List.suffix_cons_iff]
      rintro (heq | hsuffix)
      · exact absurd (List.cons.inj heq).1 (by decide)
      · cases h hsuffix
    have hfeed := Formula.ofHeader_lineEnd hend
    rw [whole, List.append_nil]
    exact hfeed.symm.trans (congrArg (fun t => Formula.ofHeader ('"' :: t)) (by simp [feed]))
  · rfl

end Lines

section Reading

variable {f : Field} {s : State} {chunk : Text} {fields : List Field} {chunks : List Text}

/-- A line of the header that begins with a quote. -/
theorem State.step_headerLine [Machine] (hs : s.pending = .header) (chunk : Text) :
    s.step (quotedLine [] chunk) =
      if (quotedLine [] chunk).startsWith formulaField = true then
        s.setFormula (quotedLine [] chunk)
      else s.addField (quotedLine [] chunk) := by
  rw [step_eq_stepAs, LineKind.of_quoted rfl]
  split
  · rfl
  · rw [stepAs, continueWith, hs]

theorem State.addField_plain
    (h : ¬ (quotedLine [] chunk).startsWith languageField = true) :
    s.addField (quotedLine [] chunk) =
      .ok ({ s with headers := withField s.headers (Text.trim (Text.unescape chunk)) }, none) := by
  rw [addField, if_neg h, payload_continuation]
  rfl

theorem State.addField_language
    (h : (quotedLine [] chunk).startsWith languageField = true) :
    s.addField (quotedLine [] chunk) =
      .ok ({ s with
        headers := s.headers.set languageName
          ((declaredLanguage? (quotedLine [] chunk)).getD []) }, none) := by
  rw [addField, if_pos h]
  rfl

/-- A quoted line of the header is no junk, and the header goes on behind it. -/
theorem State.step_headerLine_outcome [Machine] (hs : s.pending = .header) (chunk : Text) :
    (∃ e, s.step (quotedLine [] chunk) = .error e) ∨
      ∃ t, s.step (quotedLine [] chunk) = .ok (t, none) ∧ t.pending = .header := by
  have hfield : ∀ u : State, u.pending = .header →
      ∃ t, u.addField (quotedLine [] chunk) = .ok (t, none) ∧ t.pending = .header := by
    intro u hu
    by_cases hlanguage : (quotedLine [] chunk).startsWith languageField = true
    · exact ⟨_, addField_language hlanguage, hu⟩
    · exact ⟨_, addField_plain hlanguage, hu⟩
  rw [step_headerLine hs]
  split
  · rw [setFormula]
    cases Formula.ofHeader (quotedLine [] chunk) with
    | error e => exact .inl ⟨e, rfl⟩
    | ok formula => exact .inr (hfield _ hs)
  · exact .inr (hfield s hs)

theorem State.step_gap [Machine] (hs : s.pending = .header) (h : IsGap chunk) :
    s.step (quotedLine [] chunk) = .ok (s, none) := by
  rcases h with rfl | rfl
  · rw [step_headerLine hs, if_neg (by decide), addField_plain (by decide)]
    rfl
  · rw [step_headerLine hs, if_neg (by decide), addField_plain (by decide)]
    rfl

theorem Field.StandsIn.addField_eq (hf : f.IsSound) (h : f.StandsIn chunk) (s : State) :
    s.addField (quotedLine [] chunk) = s.addField (quotedLine [] f.whole) := by
  have hmarked : languageName ∈ markedNames := mem_markedNames.2 (.inl rfl)
  have hchunk := h.startsWith_iff hf hmarked
  have hwhole := f.standsIn_whole.startsWith_iff hf hmarked
  by_cases hname : f.name = languageName
  · rw [State.addField_language (hchunk.2 hname), State.addField_language (hwhole.2 hname)]
    obtain ⟨-, htrail, hbegins, -⟩ := h
    obtain rfl := hbegins (hname ▸ hmarked)
    rw [List.nil_append, Field.declaredLanguage?_eq hf htrail]
  · rw [State.addField_plain (mt hchunk.1 hname), State.addField_plain (mt hwhole.1 hname),
      h.trim_unescape hf, f.standsIn_whole.trim_unescape hf]

/-- In the header, a chunk that has a field does what the whole field does. -/
theorem Field.StandsIn.step_eq [Machine] (hf : f.IsSound) (h : f.StandsIn chunk)
    (hs : s.pending = .header) :
    s.step (quotedLine [] chunk) = s.step (quotedLine [] f.whole) := by
  have hmarked : formulaName ∈ markedNames := mem_markedNames.2 (.inr rfl)
  have hchunk : (quotedLine [] chunk).startsWith formulaField = true ↔ f.name = formulaName :=
    h.startsWith_iff hf hmarked
  have hwhole : (quotedLine [] f.whole).startsWith formulaField = true ↔ f.name = formulaName :=
    f.standsIn_whole.startsWith_iff hf hmarked
  rw [State.step_headerLine hs, State.step_headerLine hs]
  by_cases hname : f.name = formulaName
  · rw [if_pos (hchunk.2 hname), if_pos (hwhole.2 hname), State.setFormula, State.setFormula]
    have hformula : Formula.ofHeader (quotedLine [] chunk) =
        Formula.ofHeader (quotedLine [] f.whole) := by
      obtain ⟨-, htrail, hbegins, hends⟩ := h
      obtain rfl := hbegins (hname ▸ hmarked)
      exact Field.ofHeader_eq htrail (hends hname)
    rw [hformula]
    congr 1
    funext formula
    exact h.addField_eq hf _
  · rw [if_neg (mt hchunk.1 hname), if_neg (mt hwhole.1 hname)]
    exact h.addField_eq hf s

/-- Behind the first two lines of a header, chunks lead to the outcome of their fields. -/
theorem Laid.agree [Machine] (h : Laid fields chunks) (hfields : ∀ f ∈ fields, f.IsSound)
    (hs : s.pending = .header) :
    Agree s (chunks.map (quotedLine [])) ((fields.map Field.whole).map (quotedLine [])) := by
  induction h generalizing s with
  | nil => exact ⟨.ok s, .nil s, .nil s⟩
  | gap hgap _ ih =>
      obtain ⟨outcome, hreads, hreads'⟩ := ih hfields hs
      exact ⟨outcome, .line (State.step_gap hs hgap) hreads, hreads'⟩
  | @field f chunk fields chunks hstands _ ih =>
      obtain ⟨hf, hrest⟩ := List.forall_mem_cons.1 hfields
      have hstep := hstands.step_eq hf hs
      -- A number of the formula that cannot be read ends both readings with one error.
      rcases State.step_headerLine_outcome hs chunk with ⟨e, he⟩ | ⟨t, ht, hheader⟩
      · exact ⟨.error e, .stopped _ he, .stopped _ (hstep ▸ he)⟩
      · obtain ⟨outcome, hreads, hreads'⟩ := ih hrest hheader
        exact ⟨outcome, .line ht hreads, .line (hstep ▸ ht) hreads'⟩

theorem reads_emptyLines [Machine] (s : State) :
    Reads s [emptyKeyLine, emptyValueLine]
      (.ok { s with key := [], isPlural := false, pending := .header }) :=
  .line rfl (.line rfl (.nil _))

theorem Laid.length_le (h : Laid fields chunks) : fields.length ≤ chunks.length := by
  induction h with
  | nil => exact Nat.le_refl 0
  | gap _ _ ih => exact Nat.le_succ_of_le ih
  | field _ _ ih => exact Nat.succ_le_succ ih

theorem trim_of_mem_headerLines {line : Text} (h : line ∈ headerLines chunks) :
    Text.trim line = line := by
  rcases List.mem_cons.1 h with rfl | hrest
  · rfl
  rcases List.mem_cons.1 hrest with rfl | hchunk
  · rfl
  obtain ⟨chunk, -, rfl⟩ := List.mem_map.1 hchunk
  exact trim_continuation chunk

/-- A header whose chunks have the fields, with comments among its lines, reads like the one with a
line for each field wherever it stands: nothing but the numbers of the lines behind it tells the
files apart. -/
theorem parse_laid [Machine] (r : Reading) (formula : Formula) (h : Laid fields chunks)
    (hfields : ∀ f ∈ fields, f.IsSound) {contents : List Text}
    (hcontents : Annotated (headerLines chunks) contents) (front behind : List Text) :
    File.parse r formula (front ++ (contents ++ behind)) =
      renumberedParse
        (movedBehind (front.length + (headerLines (fields.map Field.whole)).length)
          (contents.length - (headerLines (fields.map Field.whole)).length))
        (File.parse r formula (front ++ (headerLines (fields.map Field.whole) ++ behind))) := by
  have hagree : ∀ s, Agree s (headerLines chunks) (headerLines (fields.map Field.whole)) :=
    fun s => .behind (reads_emptyLines s) (reads_emptyLines s) (h.agree hfields rfl)
  have hwhole : Annotated (headerLines (fields.map Field.whole))
      (headerLines (fields.map Field.whole)) :=
    .of_trim fun _ hline => trim_of_mem_headerLines hline
  have hlength : (headerLines (fields.map Field.whole)).length ≤ (headerLines chunks).length := by
    simpa [headerLines] using h.length_le
  exact parse_exchange r formula hagree hcontents hwhole
    (Nat.le_trans hlength hcontents.length_le) front behind

/-- Four fields with a gap, an end in front of a field and ends on lines of their own. -/
theorem parse_laid_four :
    let fields : List Field := [⟨"A".toList, " 1".toList⟩, ⟨languageName, " de".toList⟩,
      ⟨"B".toList, " 2".toList⟩, ⟨formulaName, " nplurals=2;".toList⟩]
    let chunks := ["", "A: 1\\n", "Language: de", "\\nB: 2", "\\n", "Plural-Forms: nplurals=2;",
      "\\n"].map String.toList
    Laid fields chunks ∧ (∀ f ∈ fields, f.IsSound) ∧
      ∃ file, File.parse ⟨false, none⟩ .empty (headerLines (fields.map Field.whole)) = .ok file ∧
        file.plurals.formula.categories = some 2 ∧ file.language? = some "de".toList ∧
        File.parse ⟨false, none⟩ .empty (headerLines chunks) = .ok file := by
  intro fields chunks
  have hgap : IsGap [] := .inl rfl
  have hend : IsGap feed := .inr rfl
  have hA : Field.StandsIn ⟨"A".toList, " 1".toList⟩ "A: 1\\n".toList :=
    .mk hgap hend (fun _ => rfl) (fun _ _ => rfl)
  have hLanguage : Field.StandsIn ⟨languageName, " de".toList⟩ "Language: de".toList :=
    .mk hgap hgap (fun _ => rfl) (by decide)
  have hB : Field.StandsIn ⟨"B".toList, " 2".toList⟩ "\\nB: 2".toList :=
    .mk hend hgap (by decide) (by decide)
  have hFormula : Field.StandsIn ⟨formulaName, " nplurals=2;".toList⟩
      "Plural-Forms: nplurals=2;".toList :=
    .mk hgap hgap (fun _ => rfl) (by decide)
  have hlaid : Laid fields chunks :=
    .gap hgap (.field hA (.field hLanguage (.field hB (.gap hend (.field hFormula
      (.gap hend .nil))))))
  have hfields : ∀ f ∈ fields, f.IsSound := by
    simp only [fields, List.forall_mem_cons]
    exact ⟨⟨by decide, by decide⟩, ⟨by decide, by decide⟩, ⟨by decide, by decide⟩,
      ⟨by decide, by decide⟩, nofun⟩
  have hcontents : Annotated (headerLines chunks) (headerLines chunks) :=
    .of_trim fun _ hline => trim_of_mem_headerLines hline
  refine ⟨hlaid, hfields, _, rfl, rfl, rfl, ?_⟩
  have hparse := parse_laid ⟨false, none⟩ .empty hlaid hfields hcontents [] []
  rw [List.nil_append, List.nil_append, List.append_nil, List.append_nil] at hparse
  exact hparse

/-- Cuts of one header that lose the formula: inside the value, inside the name, not between two
fields, and not behind the end of the field in front.  The last of them changes a language with a
blank in it, too, and an end that is cut off a formula which looks as if it had one changes the
formula. -/
theorem parse_cutFields :
    let fields : List Field := [⟨"A".toList, " 1".toList⟩, ⟨formulaName, " nplurals=2;".toList⟩]
    let cuts := [["A: 1\\n", "Plural-Forms: ", "nplurals=2;\\n"],
      ["A: 1\\n", "Plural", "-Forms: nplurals=2;\\n"], ["A: 1\\nPlural-Forms: nplurals=2;\\n"],
      ["A: 1", "\\nPlural-Forms: nplurals=2;\\n"]].map (List.map String.toList)
    (∃ file, File.parse ⟨false, none⟩ .empty (headerLines (fields.map Field.whole)) = .ok file ∧
        file.plurals.formula.categories = some 2) ∧
      (∀ chunks ∈ cuts, chunks.flatten = (fields.map Field.whole).flatten ∧
        (∀ chunk ∈ chunks, Text.IsClosed chunk) ∧
        ∃ file, File.parse ⟨false, none⟩ .empty (headerLines chunks) = .ok file ∧
          file.plurals.formula = .empty) ∧
      (∃ file file', File.parse ⟨false, none⟩ .empty
            (headerLines (["A: 1\\n", "Language: d e\\n"].map String.toList)) = .ok file ∧
          File.parse ⟨false, none⟩ .empty
            (headerLines (["A: 1", "\\nLanguage: d e\\n"].map String.toList)) = .ok file' ∧
          file.language? ≠ file'.language?) ∧
      Formula.ofHeader "\"Plural-Forms: plural=\\\\n\\n\"".toList ≠
        Formula.ofHeader "\"Plural-Forms: plural=\\\\n\"".toList := by
  refine ⟨⟨_, rfl, rfl⟩, ?_, ⟨_, _, rfl, rfl, by decide⟩, ?_⟩
  · simp only [List.map_cons, List.map_nil, List.forall_mem_cons]
    refine ⟨⟨rfl, ?_, _, rfl, rfl⟩, ⟨rfl, ?_, _, rfl, rfl⟩, ⟨rfl, ?_, _, rfl, rfl⟩,
      ⟨rfl, ?_, _, rfl, rfl⟩, nofun⟩
    all_goals decide
  · have hwhole : Plural.headerExpression "\"Plural-Forms: plural=\\\\n\\n\"".toList =
        ['\\', '\\', 'n'] :=
      Plural.stripParens_of_not_wrapped rfl
    have hcut : Plural.headerExpression "\"Plural-Forms: plural=\\\\n\"".toList = ['\\'] :=
      Plural.stripParens_of_not_wrapped rfl
    rw [Formula.ofHeader, Formula.ofHeader, hwhole, hcut]
    exact fun heq => absurd (congrArg (fun f => f.toOption.map Formula.expression) heq) (by decide)

end Reading

end Po
end Phrasebook
