import Phrasebook.Assets.Discovery
import Phrasebook.Proofs.Locale.Canonical
import Phrasebook.Proofs.Po.Header
import Phrasebook.Proofs.Po.Rendering
import Phrasebook.Proofs.Text.Lines

/-!
# Rendered files of a language

A file of a language begins with a header that declares it; the rendered templates follow.

**Form.**  `Renders` leaves open which comments stand among the lines, and which blank lines stand
behind the header.  No line of a rendering has the end of a line in it, so that a text joined from
the lines (`IsRendering`) has them again.
**Declaration.**  `Renders.declares`: the first line that declares a language is that of the header.
**Content.**  `Renders.parse_eq`: what is read are the templates and the one header field.
-/

namespace Phrasebook
namespace Po

open Discovery (declaresLanguage)
open Plural (Formula)

section Form

/-- The header field that declares a language. -/
def languageHeader (language : Text) : Field :=
  ⟨languageName, ' ' :: language⟩

/-- An entry for every template. -/
def singleEntries (singles : Table Text Text) : List Entry :=
  singles.entries.map fun e => .single e.1 e.2

/-- The lines are a header with the language and the rendered templates. -/
def Renders (language : Text) (singles : Table Text Text) (lines : List Text) : Prop :=
  ∃ header body, lines = header ++ body ∧
    Annotated (headerLines [(languageHeader language).whole]) header ∧
    Padded (render (singleEntries singles)) body

variable {language : Text} {singles : Table Text Text} {lines contents padded : List Text}

theorem Annotated.nil_not_mem (h : Annotated lines contents) (hlines : [] ∉ lines) :
    [] ∉ contents := by
  induction h with
  | nil => exact hlines
  | line htrim _ ih =>
      rw [List.mem_cons, not_or] at hlines ⊢
      refine ⟨?_, ih hlines.2⟩
      rintro rfl
      exact hlines.1 htrim
  | comment hcomment _ ih =>
      rw [List.mem_cons, not_or]
      refine ⟨?_, ih hlines⟩
      rintro rfl
      cases hcomment

theorem Padded.of_concat_nil (h : Padded lines (padded ++ [[]])) (hlines : [] ∉ lines) :
    Padded lines padded := by
  generalize hcontents : padded ++ [[]] = contents at h
  induction h generalizing padded with
  | nil => simp at hcontents
  | @line line lines contents hpadded ih =>
      rw [List.mem_cons, not_or] at hlines
      cases padded with
      | nil => exact absurd (List.cons.inj hcontents).1 hlines.1
      | cons first padded =>
          obtain ⟨rfl, hrest⟩ := List.cons.inj hcontents
          exact .line first (ih hlines.2 hrest)
  | blank hblank hpadded ih =>
      cases padded with
      | nil =>
          obtain ⟨-, rfl⟩ := List.cons.inj hcontents
          exact hpadded
      | cons first padded =>
          obtain ⟨rfl, hrest⟩ := List.cons.inj hcontents
          exact .blank hblank (ih hlines hrest)
  | comment hcomment hpadded ih =>
      cases padded with
      | nil =>
          obtain ⟨rfl, -⟩ := List.cons.inj hcontents
          cases hcomment
      | cons first padded =>
          obtain ⟨rfl, hrest⟩ := List.cons.inj hcontents
          exact .comment hcomment (ih hlines hrest)

theorem nil_not_mem_render (entries : List Entry) : [] ∉ render entries := by
  intro hmem
  obtain ⟨d, -, hline⟩ := List.mem_map.1 hmem
  simp [Directive.line] at hline

theorem nil_not_mem_headerLines (chunks : List Text) : [] ∉ headerLines chunks := by
  intro hmem
  rcases List.mem_cons.1 hmem with hkey | hmem
  · exact absurd hkey (by decide)
  rcases List.mem_cons.1 hmem with hvalue | hmem
  · exact absurd hvalue (by decide)
  obtain ⟨chunk, -, hline⟩ := List.mem_map.1 hmem
  simp [quotedLine] at hline

/-- The lines without comments and blank lines. -/
def rendered (language : Text) (singles : Table Text Text) : List Text :=
  headerLines [(languageHeader language).whole] ++ render (singleEntries singles)

theorem renders_rendered (language : Text) (singles : Table Text Text) :
    Renders language singles (rendered language singles) :=
  ⟨_, _, rfl, .of_trim fun _ hline => trim_of_mem_headerLines hline, .refl _⟩

theorem isOneLine_escape (t : Text) : (Text.escape t).IsOneLine := by
  have hchar : ∀ c, (Text.escapeChar c).IsOneLine := by
    intro c
    by_cases hfeed : c = '\n'
    · subst hfeed
      decide
    by_cases hreturn : c = '\r'
    · subst hreturn
      decide
    unfold Text.escapeChar
    rw [if_neg hfeed, if_neg hreturn]
    split
    · simp [Text.IsOneLine, Ne.symm hfeed, Ne.symm hreturn]
    repeat' split
    all_goals simp [Text.IsOneLine, Ne.symm hfeed, Ne.symm hreturn]
  constructor <;> (intro hmem; obtain ⟨c, -, hc⟩ := List.mem_flatMap.1 hmem)
  · exact (hchar c).1 hc
  · exact (hchar c).2 hc

/-- Whatever the templates are, no line of the rendering has the end of a line in it. -/
theorem isOneLine_rendered (hcode : language.all isCodeChar = true) :
    ∀ line ∈ rendered language singles, line.IsOneLine := by
  have hquoted : ∀ t : Text, t.IsOneLine → Text.IsOneLine ('"' :: (t ++ ['"'])) := by
    intro t ht
    rw [Text.isOneLine_cons, Text.isOneLine_append]
    exact ⟨by decide, ht, by decide⟩
  have hlanguage : language.IsOneLine := ⟨not_mem_code hcode rfl, not_mem_code hcode rfl⟩
  have hheader : ((languageHeader language).whole).IsOneLine := by
    have hwhole : (languageHeader language).whole =
        (languageName ++ [':', ' ']) ++ (language ++ feed) := by
      simp [languageHeader, Field.whole, Field.text]
    rw [hwhole, Text.isOneLine_append, Text.isOneLine_append (s := language)]
    exact ⟨by decide, hlanguage, by decide⟩
  intro line hline
  rcases List.mem_append.1 hline with hline | hline
  · simp only [headerLines, List.map_singleton, List.mem_cons, List.not_mem_nil, or_false] at hline
    rcases hline with rfl | rfl | rfl
    · decide
    · decide
    · exact hquoted _ hheader
  · obtain ⟨d, hd, rfl⟩ := List.mem_map.1 hline
    obtain ⟨entry, hentry, hd⟩ := List.mem_flatMap.1 hd
    obtain ⟨e, -, rfl⟩ := List.mem_map.1 hentry
    have hfront : d.front.IsOneLine := by
      simp only [Entry.directives, List.mem_cons, List.not_mem_nil, or_false] at hd
      rcases hd with rfl | rfl
      · exact Text.isOneLine_append.2 ⟨by decide, by decide⟩
      · exact Text.isOneLine_append.2 ⟨by decide, by decide⟩
    exact Text.isOneLine_append.2 ⟨hfront, hquoted _ (isOneLine_escape d.text)⟩

/-- An empty line at the end belongs to no line of the rendering. -/
theorem Renders.of_concat_nil (h : Renders language singles (lines ++ [[]])) :
    Renders language singles lines := by
  obtain ⟨header, body, hlines, hheader, hbody⟩ := h
  rcases List.eq_nil_or_concat body with rfl | ⟨body, last, rfl⟩
  · have hnil : [] ∉ header := hheader.nil_not_mem (nil_not_mem_headerLines _)
    rw [List.append_nil] at hlines
    rw [← hlines, List.mem_append, not_or] at hnil
    exact absurd (List.mem_singleton_self []) hnil.2
  · rw [List.concat_eq_append, ← List.append_assoc] at hlines
    obtain ⟨rfl, hlast⟩ := List.append_inj' hlines rfl
    obtain rfl := List.singleton_inj.1 hlast
    rw [List.concat_eq_append] at hbody
    exact ⟨header, body, rfl, hheader, hbody.of_concat_nil (nil_not_mem_render _)⟩

/-- A text whose lines are a header with the language and the rendered templates. -/
def IsRendering (language : Text) (singles : Table Text Text) (text : Text) : Prop :=
  ∃ lines, Renders language singles lines ∧ (∀ line ∈ lines, line.IsOneLine) ∧
    text = ['\n'].intercalate lines

theorem IsRendering.renders {text : Text} (h : IsRendering language singles text) :
    Renders language singles (Text.lines text) := by
  obtain ⟨lines, hlines, hone, rfl⟩ := h
  rcases Text.lines_joined hone with heq | heq
  · rwa [heq]
  · rw [heq] at hlines
    exact hlines.of_concat_nil

theorem isRendering_rendered (hcode : language.all isCodeChar = true)
    (singles : Table Text Text) :
    IsRendering language singles (['\n'].intercalate (rendered language singles)) :=
  ⟨_, renders_rendered language singles, isOneLine_rendered hcode, rfl⟩

end Form

section Declaration

variable {language : Text} {singles : Table Text Text} {lines contents : List Text}

theorem withoutEscapedFeeds_eq_self {t : Text} (h : '\\' ∉ t) : withoutEscapedFeeds t = t := by
  induction t using withoutEscapedFeeds.induct with
  | case1 => rfl
  | case2 c => rfl
  | case3 c d rest hescape ih => exact absurd (hescape.1 ▸ List.mem_cons_self) h
  | case4 c d rest hplain ih =>
      rw [withoutEscapedFeeds, if_neg hplain, ih (List.not_mem_of_not_mem_cons h)]

theorem startsWith_languageHeader (language : Text) :
    (quotedLine [] (languageHeader language).whole).startsWith languageField = true := by
  have hname : ':' ∉ languageName := by decide
  exact (Field.startsWith_iff (f := languageHeader language) hname hname feed).2 rfl

theorem declaredLanguage?_languageHeader (h : language.all isCodeChar = true) :
    declaredLanguage? (quotedLine [] (languageHeader language).whole) = some language := by
  have hquoted : ':' ∉ '"' :: languageName := by decide
  have hline : quotedLine [] (languageHeader language).whole =
      ('"' :: languageName) ++ ':' :: (' ' :: language ++ feed ++ ['"']) := by
    simp [quotedLine, languageHeader, Field.whole, Field.text]
  have hbackslash : '\\' ∉ ' ' :: language := by
    simpa using not_mem_code h rfl
  have hkept : ∀ c ∈ language, (c != ' ' && c != '\t') = true := by
    intro c hc
    have hblank := isBlank_of_isCodeChar (List.all_eq_true.1 h c hc)
    rw [Bool.and_eq_true, bne_iff_ne, bne_iff_ne]
    constructor <;> (rintro rfl; cases hblank)
  rw [hline, declaredLanguage?, Text.after?_append hquoted, Option.map_some,
    Text.dropSuffix_append, withoutEscapedFeeds_append (.inr rfl),
    withoutEscapedFeeds_eq_self hbackslash, List.filter_cons_of_neg (by decide),
    List.filter_eq_self.2 hkept]

/-- The first content with a property of its line is that of the first line with the property, if
no comment has it. -/
theorem Annotated.find?_eq (h : Annotated lines contents) {p : Text → Bool}
    (hp : ∀ line, line.head? = some '#' → p line = false) :
    (contents.find? fun content => p (Text.trim content)).map Text.trim = lines.find? p := by
  induction h with
  | nil => rfl
  | @line line content lines contents htrim _ ih =>
      rw [List.find?_cons, List.find?_cons, htrim]
      cases p line with
      | true => exact congrArg some htrim
      | false => exact ih
  | comment hcomment _ ih => rwa [List.find?_cons, hp _ hcomment]

/-- The file declares its language. -/
theorem Renders.declares (h : Renders language singles lines)
    (hcode : language.all isCodeChar = true) :
    ∃ line, lines.find? declaresLanguage = some line ∧
      declaredLanguage? (Text.trim line) = some language := by
  obtain ⟨header, body, rfl, hheader, -⟩ := h
  have hcomment : ∀ line : Text, line.head? = some '#' →
      line.startsWith languageField = false := by
    intro line hline
    obtain ⟨rest, rfl⟩ := List.head?_eq_some_iff.1 hline
    rfl
  have hfind : (headerLines [(languageHeader language).whole]).find?
      (fun line => line.startsWith languageField) =
        some (quotedLine [] (languageHeader language).whole) := by
    rw [headerLines, List.find?_cons_of_neg (by decide), List.find?_cons_of_neg (by decide),
      List.map_singleton, List.find?_singleton, if_pos (startsWith_languageHeader language)]
  have hheaderFind := hheader.find?_eq hcomment
  rw [hfind] at hheaderFind
  obtain ⟨line, hline, htrim⟩ := Option.map_eq_some_iff.1 hheaderFind
  refine ⟨line, ?_, by rw [htrim, declaredLanguage?_languageHeader hcode]⟩
  rw [List.find?_append]
  exact (congrArg (Option.or · _) hline)

end Declaration

section Content

variable {s t : State} {d : Directive} {directives : List Directive} {headers : Table Text Text}

/-- The state with other header fields. -/
def State.withHeaders (s : State) (headers : Table Text Text) : State :=
  { s with headers := headers }

theorem Directive.apply_withHeaders (d : Directive) (s : State) (headers : Table Text Text) :
    d.apply (s.withHeaders headers) = (d.apply s).withHeaders headers := by
  cases d <;> rfl

theorem foldl_withHeaders (directives : List Directive) (s : State)
    (headers : Table Text Text) :
    directives.foldl Directive.apply (s.withHeaders headers) =
      (directives.foldl Directive.apply s).withHeaders headers := by
  induction directives generalizing s with
  | nil => rfl
  | cons d directives ih => rw [List.foldl_cons, d.apply_withHeaders, ih, List.foldl_cons]

theorem AllFit.withHeaders (h : AllFit s directives) (headers : Table Text Text) :
    AllFit (s.withHeaders headers) directives := by
  induction directives generalizing s with
  | nil => trivial
  | cons d directives ih =>
      have hfit : d.Fits (s.withHeaders headers) := by
        cases d <;> exact h.1
      refine ⟨hfit, ?_⟩
      rw [d.apply_withHeaders]
      exact ih h.2

/-- The state behind a header that declares a language. -/
def State.behindHeader (formula : Formula) (language : Text) : State :=
  { (State.initial formula).withHeaders (Table.empty.set languageName language) with
    pending := .header }

variable {language : Text} {singles : Table Text Text} {lines : List Text}

theorem reads_languageHeader [Machine] (formula : Formula)
    (hcode : language.all isCodeChar = true) :
    Reads (State.initial formula) (headerLines [(languageHeader language).whole])
      (.ok (State.behindHeader formula language)) := by
  have hformula : ¬ (quotedLine [] (languageHeader language).whole).startsWith formulaField =
      true := by
    intro hstarts
    have hname : ':' ∉ languageName := by decide
    have hword : ':' ∉ formulaName := by decide
    have heq : languageName = formulaName :=
      (Field.startsWith_iff (f := languageHeader language) hname hword feed).1 hstarts
    exact absurd heq (by decide)
  refine (reads_emptyLines (State.initial formula)).append (.line ?_ (.nil _))
  rw [State.step_headerLine rfl, if_neg hformula,
    State.addField_language (startsWith_languageHeader language),
    declaredLanguage?_languageHeader hcode]
  rfl

theorem filterMap_singleEntries (singles : Table Text Text) :
    (singleEntries singles).filterMap Entry.single? = singles.entries ∧
      (singleEntries singles).filterMap Entry.plural? = [] := by
  constructor
  · rw [singleEntries, List.filterMap_map]
    exact List.filterMap_some
  · simp [singleEntries, Entry.plural?]

/-- Reading a rendered file gives its templates and its header field. -/
theorem Renders.parse_eq [Machine] (h : Renders language singles lines)
    (hcode : language.all isCodeChar = true)
    (hsingles : ∀ e ∈ singles.entries, e.1 ≠ [] ∧ e.2 ≠ []) (r : Reading) (formula : Formula) :
    File.parse r formula lines =
      .ok
        { singles := ⟨singles⟩
          plurals := .empty formula
          sourcePath := r.sourcePath
          headers := Table.empty.set languageName language
          junk := [] } := by
  obtain ⟨header, body, rfl, hheader, hbody⟩ := h
  obtain ⟨hentries, hplurals⟩ := filterMap_singleEntries singles
  have hreadable : ∀ e ∈ singleEntries singles, e.IsReadable := by
    intro entry hentry
    obtain ⟨e, he, rfl⟩ := List.mem_map.1 hentry
    exact hsingles e he
  have hinitial : HasRead formula [] [] (State.initial formula) := ⟨rfl, rfl, rfl, rfl⟩
  obtain ⟨hfit, hread⟩ := hinitial.entries hreadable
    (by rw [List.nil_append, hentries]; exact singles.keysNodup)
    (by rw [hplurals]; exact List.nodup_nil)
  rw [List.nil_append, List.nil_append, hentries, hplurals] at hread
  -- the header fields are there before the entries, and stay
  obtain ⟨t, hrun, ht⟩ := run_padded r hbody (t := State.behindHeader formula language)
    (s := (State.initial formula).withHeaders (Table.empty.set languageName language)) rfl
    (hfit.withHeaders _) (1 + header.length)
  rw [foldl_withHeaders] at ht
  have hheaders : t.headers = Table.empty.set languageName language := congrArg State.headers ht
  have hplain : (t.withHeaders Table.empty).interrupted =
      (((singleEntries singles).flatMap Entry.directives).foldl Directive.apply
        (State.initial formula)).interrupted := by
    have hempty := congrArg (fun u => State.withHeaders u Table.empty) ht
    rw [← hread.headers_eq] at hempty ⊢
    exact hempty
  obtain ⟨hvalues, hformula, htemplates, -⟩ := hread.of_interrupted hplain
  have hstore : t.singles = ⟨singles⟩ := congrArg SingleStore.mk (Table.ext hvalues)
  have hpluralStore : t.plurals = .empty formula := by
    rw [← hformula]
    exact congrArg (PluralStore.mk t.plurals.formula) (Table.ext htemplates)
  have hparse : r.run 1 (State.initial formula) (header ++ body) = .ok (t, []) :=
    ((reads_languageHeader formula hcode).run_append hheader 1 body).trans hrun
  rw [File.parse, hparse, Except.map]
  simp only [hstore, hpluralStore, hheaders]

end Content

end Po
end Phrasebook
