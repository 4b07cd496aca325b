import Mathlib
import Phrasebook.Proofs.Po.Header

/-!
# Spellings of the plural formula

A header gives the plural formula as a number of categories and an expression.  The two may stand on
a quoted line of a file or alone.

**Header lines.**  What stands in front of the two on the line is passed over, and its end is taken
away, so that the line and the bare value have one formula (`ofHeader_formulaLine`),
whatever the expression is.
**Header fields.**  The value of the field is what the line shows with its escapes resolved.
**Result.**  `ofHeader_spellings`: the line and the bare value have one formula, and if the
expression has no backslash, it is also that of the value in the header of a file of this one line.
-/

namespace Phrasebook

namespace Plural

section Headers

variable {front : Text}

/-- Characters that begin no assignment to `plural`, and behind each of which one may begin. -/
theorem behindPlural?_append_of_forall (h : ∀ c ∈ front, c ≠ 'p' ∧ joinsWord c = false)
    (t : Text) : behindPlural? false (front ++ t) = behindPlural? false t := by
  induction front with
  | nil => rfl
  | cons c front ih =>
      obtain ⟨⟨hp, hjoins⟩, hfront⟩ := List.forall_mem_cons.1 h
      have hword : Text.startsWith (c :: (front ++ t)) "plural".toList = false :=
        Bool.and_eq_false_imp.2 fun hc => absurd (beq_iff_eq.1 hc).symm hp
      rw [List.cons_append, behindPlural?, behindAssignment?, hword, hjoins]
      exact ih hfront

theorem joinsWord_of_isAsciiDigit {c : Char} (h : isAsciiDigit c = true) :
    joinsWord c = false := by
  have hc := toNat_of_isAsciiDigit h
  have hword : c ≠ '_' := by
    rintro rfl
    exact absurd hc.2 (by decide)
  rw [joinsWord, isAlpha_of_isAsciiDigit h, beq_eq_false_iff_ne.2 hword, Bool.or_false]

theorem behindPlural?_decimalDigits (k : Nat) (t : Text) :
    behindPlural? false (decimalDigits k ++ t) = behindPlural? false t := by
  refine behindPlural?_append_of_forall (fun c hc => ?_) t
  have hdigit := isAsciiDigit_of_mem_decimalDigits hc
  refine ⟨?_, joinsWord_of_isAsciiDigit hdigit⟩
  rintro rfl
  cases hdigit

theorem Formula.headerValue_append (expression : Text) (k : Nat) (t : Text) :
    headerValue expression (some (k : Int)) ++ t =
      "nplurals=".toList ++
        (decimalDigits k ++ ("; plural=".toList ++ (expression ++ ';' :: t))) := by
  have hvalue : headerValue expression (some (k : Int)) =
      "nplurals=".toList ++ decimalDigits k ++ ("; plural=".toList ++ expression ++ [';']) := rfl
  rw [hvalue]
  simp only [List.append_assoc, List.singleton_append]

/-- Whatever the expression is, it stands behind the first assignment to `plural`. -/
theorem behindPlural?_headerValue (expression : Text) (k : Nat) (t : Text) :
    behindPlural? false (Formula.headerValue expression (some (k : Int)) ++ t) =
      some (expression ++ ';' :: t) := by
  have hcategories : ∀ u, behindPlural? false ("nplurals=".toList ++ u) = behindPlural? false u :=
    fun _ => rfl
  have hassigned : ∀ u, behindPlural? false ("; plural=".toList ++ u) = some u := fun _ => rfl
  rw [Formula.headerValue_append, hcategories, behindPlural?_decimalDigits, hassigned]

theorem takeWhile_trimStart_decimalDigits (k : Nat) (t : Text) :
    (Text.trimStart (decimalDigits k ++ ';' :: t)).takeWhile isDecimal = decimalDigits k := by
  have hdigit : ∀ c ∈ decimalDigits k, isAsciiDigit c = true :=
    fun c hc => isAsciiDigit_of_mem_decimalDigits hc
  have htrim : Text.trimStart (decimalDigits k) = decimalDigits k :=
    Text.trimStart_eq_self fun c hc =>
      isBlank_of_isAsciiDigit (hdigit c (List.mem_of_mem_head? hc))
  rw [Text.trimStart_append_cons (by decide), htrim,
    List.takeWhile_append_of_pos fun c hc => isDecimal_of_isAsciiDigit (hdigit c hc),
    List.takeWhile_cons_of_neg (by decide), List.append_nil]

theorem categoryDigits?_headerValue (expression : Text) (k : Nat) (t : Text) :
    categoryDigits? (Formula.headerValue expression (some (k : Int)) ++ t) =
      some (decimalDigits k) := by
  have hassigned : ∀ u d digits, (Text.trimStart u).takeWhile isDecimal = d :: digits →
      categoryDigits? ("nplurals=".toList ++ u) = some (d :: digits) := by
    intro u d digits hu
    have hbehind : behindAssignment? "nplurals".toList ('n' :: ("plurals=".toList ++ u)) = some u :=
      rfl
    change categoryDigits? ('n' :: ("plurals=".toList ++ u)) = _
    rw [categoryDigits?, hbehind, Option.map_some, hu]
  obtain ⟨d, digits, hdigits⟩ := List.exists_cons_of_ne_nil (decimalDigits_ne_nil k)
  have hword : "; plural=".toList ++ (expression ++ ';' :: t) =
      ';' :: (" plural=".toList ++ (expression ++ ';' :: t)) := rfl
  have hread := takeWhile_trimStart_decimalDigits k (" plural=".toList ++ (expression ++ ';' :: t))
  rw [hdigits] at hread
  rw [Formula.headerValue_append, hword, hdigits]
  exact hassigned _ d digits hread

theorem headerExpression_congr {line line' assigned assigned' : Text}
    (h : behindPlural? false line = some assigned)
    (h' : behindPlural? false line' = some assigned')
    (hend : withoutLineEnd assigned = withoutLineEnd assigned') :
    headerExpression line = headerExpression line' := by
  rw [headerExpression, headerExpression, h, h']
  simp only [hend]

end Headers

end Plural

namespace Po

open Plural (Formula decomposeWithin decompose_eq)

section Lines

/-- The header field of a formula. -/
def formulaHeader (expression : Text) (k : Nat) : Field :=
  ⟨formulaName, ' ' :: Formula.headerValue expression (some (k : Int))⟩

/-- The line of the header field. -/
def formulaLine (expression : Text) (k : Nat) : Text :=
  quotedLine [] (formulaHeader expression k).whole

variable (expression : Text) (k : Nat)

theorem formulaLine_eq : formulaLine expression k =
    "\"Plural-Forms: ".toList ++
      (Formula.headerValue expression (some (k : Int)) ++ ['\\', 'n', '"']) := by
  have hfront : "\"Plural-Forms: ".toList = '"' :: (formulaName ++ [':', ' ']) := rfl
  rw [formulaLine, quotedLine, Field.whole, Field.text, formulaHeader, hfront, feed]
  simp

/-- The line and the bare value that it quotes have the same formula. -/
theorem ofHeader_formulaLine [Machine] :
    Formula.ofHeader (formulaLine expression k) =
      Formula.ofHeader (Formula.headerValue expression (some (k : Int))) := by
  have hbare : Formula.headerValue expression (some (k : Int)) =
      Formula.headerValue expression (some (k : Int)) ++ [] := (List.append_nil _).symm
  have hdigits : Plural.categoryDigits? (formulaLine expression k) =
      Plural.categoryDigits? (Formula.headerValue expression (some (k : Int))) := by
    have hfront : ∀ u, Plural.categoryDigits? ("\"Plural-Forms: ".toList ++ u) =
        Plural.categoryDigits? u := fun _ => rfl
    rw [formulaLine_eq, hfront, Plural.categoryDigits?_headerValue, hbare,
      Plural.categoryDigits?_headerValue]
  have hexpression : Plural.headerExpression (formulaLine expression k) =
      Plural.headerExpression (Formula.headerValue expression (some (k : Int))) := by
    have hfront : ∀ u, Plural.behindPlural? false ("\"Plural-Forms: ".toList ++ u) =
        Plural.behindPlural? false u := fun _ => rfl
    have hline := Plural.behindPlural?_headerValue expression k ['\\', 'n', '"']
    have hvalue := Plural.behindPlural?_headerValue expression k []
    rw [← hfront, ← formulaLine_eq] at hline
    rw [← hbare] at hvalue
    have hends : expression ++ [';', '\\', 'n', '"'] =
        expression ++ [';'] ++ ['\\', 'n'] ++ ['"'] := by simp
    have hquoted : Plural.withoutLineEnd (expression ++ [';', '\\', 'n', '"']) =
        expression ++ [';'] := by
      rw [hends, Plural.withoutLineEnd, Text.dropSuffix_append, Text.dropSuffix_append]
    have hkept : Plural.withoutLineEnd (expression ++ [';']) = expression ++ [';'] := by
      have hquote := Text.dropSuffix_concat_of_ne (show ';' ≠ '"' by decide) expression []
      have hfeed := Text.dropSuffix_concat_of_ne (show ';' ≠ 'n' by decide) expression ['\\']
      rw [Plural.withoutLineEnd]
      exact (congrArg (Text.dropSuffix · ['\\', 'n']) hquote).trans hfeed
    exact Plural.headerExpression_congr hline hvalue (hquoted.trans hkept.symm)
  rw [Formula.ofHeader, Formula.ofHeader, Formula.declaredCategories, Formula.declaredCategories,
    hdigits, hexpression]

theorem exists_headerValue_eq : ∃ middle,
    Formula.headerValue expression (some (k : Int)) = 'n' :: (middle ++ [';']) := by
  have hvalue := Formula.headerValue_append expression k []
  have hword : "nplurals=".toList = 'n' :: "plurals=".toList := rfl
  rw [List.append_nil, hword] at hvalue
  exact ⟨"plurals=".toList ++ (decimalDigits k ++ ("; plural=".toList ++ expression)),
    hvalue.trans (by simp only [List.cons_append, List.append_assoc])⟩

theorem exists_formulaHeader_text_eq : ∃ middle,
    (formulaHeader expression k).text = 'P' :: (middle ++ [';']) := by
  obtain ⟨middle, hmiddle⟩ := exists_headerValue_eq expression k
  have hname : formulaName = 'P' :: "lural-Forms".toList := rfl
  refine ⟨"lural-Forms".toList ++ ':' :: ' ' :: 'n' :: middle, ?_⟩
  rw [Field.text, formulaHeader, hmiddle, hname]
  simp only [List.cons_append, List.append_assoc]

theorem isSound_formulaHeader : (formulaHeader expression k).IsSound where
  name_plain := show ':' ∉ formulaName by decide
  closed := by
    obtain ⟨middle, hmiddle⟩ := exists_formulaHeader_text_eq expression k
    rw [hmiddle, ← List.cons_append]
    exact Text.isClosed_concat (by decide) _

variable {expression}

theorem not_mem_formulaHeader (h : '\\' ∉ expression) :
    '\\' ∉ (formulaHeader expression k).text := by
  have hdigits : '\\' ∉ decimalDigits k := by
    intro hmem
    cases isAsciiDigit_of_mem_decimalDigits hmem
  have hvalue := Formula.headerValue_append expression k []
  rw [List.append_nil] at hvalue
  have hname : '\\' ∉ formulaName := by decide
  have hcategories : '\\' ∉ "nplurals=".toList := by decide
  have hassigned : '\\' ∉ "; plural=".toList := by decide
  rw [Field.text, formulaHeader, hvalue]
  simp only [List.mem_append, List.mem_cons, not_or]
  exact ⟨hname, by decide, by decide, hcategories, hdigits, hassigned, h, by decide,
    List.not_mem_nil⟩

/-- The line sets the field to the bare value. -/
theorem withField_formulaHeader (h : '\\' ∉ expression) (headers : Table Text Text) :
    State.withField headers (Text.trim (Text.unescape (formulaHeader expression k).whole)) =
      headers.set formulaName (Formula.headerValue expression (some (k : Int))) := by
  obtain ⟨middle, hmiddle⟩ := exists_formulaHeader_text_eq expression k
  obtain ⟨inner, hinner⟩ := exists_headerValue_eq expression k
  have htext : Text.trim (Text.unescape (formulaHeader expression k).whole) =
      formulaName ++ ':' :: ' ' :: Formula.headerValue expression (some (k : Int)) := by
    rw [(formulaHeader expression k).standsIn_whole.trim_unescape
        (isSound_formulaHeader expression k), Text.unescape_of_not_mem (not_mem_formulaHeader k h),
      hmiddle, Text.trim_cons_concat (by decide) (by decide), ← hmiddle]
    rfl
  have hname : ':' ∉ formulaName := by decide
  have hnameTrim : Text.trim formulaName = formulaName := by decide
  rw [htext, State.withField, Text.after?_append hname]
  simp only
  rw [Text.before_append hname, hnameTrim, Text.trim_cons_of_isBlank (by decide), hinner,
    Text.trim_cons_concat (by decide) (by decide)]

end Lines

section Results

variable {expression : Text} {k : Nat}

/-- A file of that one line. -/
theorem parse_formulaLine [Machine] (h : '\\' ∉ expression) (r : Reading) (formula : Formula) :
    File.parse r formula [formulaLine expression k] =
      ((Formula.ofHeader (Formula.headerValue expression (some (k : Int)))).mapError
        .stopped).map fun read =>
          { singles := SingleStore.empty
            plurals := PluralStore.empty read
            sourcePath := r.sourcePath
            headers := Table.empty.set formulaName
              (Formula.headerValue expression (some (k : Int)))
            junk := [] } := by
  have hline : Text.trim (formulaLine expression k) = formulaLine expression k :=
    trim_continuation _
  have hstarts : (formulaLine expression k).startsWith formulaField = true := by
    rw [formulaLine_eq]
    rfl
  have hlanguage : ¬(formulaLine expression k).startsWith languageField = true := by
    rw [formulaLine_eq]
    exact Bool.false_ne_true
  rw [File.parse, Reading.run, hline, State.step_eq_stepAs, LineKind.of_formulaField hstarts,
    State.stepAs, State.setFormula, ofHeader_formulaLine]
  cases Formula.ofHeader (Formula.headerValue expression (some (k : Int))) with
  | error e => rfl
  | ok read =>
      rw [ok_bind, formulaLine, State.addField_plain hlanguage, withField_formulaHeader k h]
      rfl

/-- The quoted line of a header and the bare value have the same formula, whatever the expression
is.  A file of that line, if it can be read, has the value in its header, and the formula of this
value. -/
theorem ofHeader_spellings [Machine] (expression : Text) (k : Nat) :
    Formula.ofHeader (formulaLine expression k) =
        Formula.ofHeader (Formula.headerValue expression (some (k : Int))) ∧
      ('\\' ∉ expression → ∀ (r : Reading) (formula : Formula) (file : File),
        File.parse r formula [formulaLine expression k] = .ok file →
          ∃ value, file.headers.get? formulaName = some value ∧
            Formula.ofHeader value = .ok file.plurals.formula) := by
  refine ⟨ofHeader_formulaLine expression k, fun h r formula file hfile => ?_⟩
  rw [parse_formulaLine h] at hfile
  cases hread : Formula.ofHeader (Formula.headerValue expression (some (k : Int))) with
  | error e =>
      rw [hread] at hfile
      cases hfile
  | ok read =>
      rw [hread] at hfile
      cases hfile
      refine ⟨_, ?_, hread⟩
      rw [Table.get?_set, if_pos rfl]

/-- An expression with a parenthesis that is not closed and the words of a header. -/
theorem ofHeader_spellings_unclosed :
    '\\' ∉ "(n > 1; nplurals=7; plural=2".toList ∧
      ∃ file, File.parse ⟨true, none⟩ .empty
          [formulaLine "(n > 1; nplurals=7; plural=2".toList 3] = .ok file ∧
        file.plurals.formula.categories = some 3 ∧
        ∃ value, file.headers.get? formulaName = some value ∧
          Formula.ofHeader value = .ok file.plurals.formula := by
  have hplain : '\\' ∉ "(n > 1; nplurals=7; plural=2".toList := by decide
  have hvalue : Formula.headerValue "(n > 1; nplurals=7; plural=2".toList (some ((3 : Nat) : Int)) =
      "nplurals=3; plural=(n > 1; nplurals=7; plural=2;".toList := rfl
  have hread : Formula.ofHeader "nplurals=3; plural=(n > 1; nplurals=7; plural=2;".toList =
      .ok ⟨[⟨"(n > 1; nplurals=7; plural=2;".toList, 1⟩], some 3,
        "(n > 1; nplurals=7; plural=2;".toList⟩ := by
    have hrules : decomposeWithin 1 "(n > 1; nplurals=7; plural=2;".toList =
        .ok [⟨"(n > 1; nplurals=7; plural=2;".toList, 1⟩] := by
      cbv
    have hcategories : Formula.declaredCategories
        "nplurals=3; plural=(n > 1; nplurals=7; plural=2;".toList = .ok (some 3) := by cbv
    have hcore : Plural.headerExpression
        "nplurals=3; plural=(n > 1; nplurals=7; plural=2;".toList =
          "(n > 1; nplurals=7; plural=2;".toList := by cbv
    rw [Formula.ofHeader_eq hcategories hcore (by decide),
      decompose_eq hrules (by simp) (by decide), Formula.ofRules]
  have hparse := parse_formulaLine hplain ⟨true, none⟩ .empty (k := 3)
  rw [hvalue, hread] at hparse
  exact ⟨hplain, _, hparse, rfl, (ofHeader_spellings _ 3).2 hplain _ _ _ hparse⟩

end Results

end Po
end Phrasebook
