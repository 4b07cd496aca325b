import Phrasebook.Proofs.Plural.Legible

/-!
# Ends of header lines

**Tails.**  What is read from a header is the same with a tail behind the header, if the tail
begins with a character on which no assignment goes on.
**Result.**  `Formula.ofHeader_lineEnd`: an escaped line feed at the end of a header line is of no
importance to the formula.
-/

namespace Phrasebook
namespace Plural

section Tails

variable {word t tail : Text} {c : Char}

theorem behindAssignment?_append (hword : c ∉ word) (hblank : isBlank c = false) (hequals : c ≠ '=')
    (t tail : Text) :
    behindAssignment? word (t ++ c :: tail) =
      (behindAssignment? word t).map fun rest => rest ++ c :: tail := by
  rw [behindAssignment?, behindAssignment?, Text.startsWith_append_cons hword]
  by_cases hstarts : t.startsWith word = true
  · rw [if_pos hstarts, if_pos hstarts]
    have hlength : word.length ≤ t.length :=
      (List.isPrefixOf_iff_prefix.1 hstarts).length_le
    rw [List.drop_append_of_le_length hlength, Text.trimStart_append_cons hblank]
    cases Text.trimStart (t.drop word.length) with
    | nil =>
        rw [List.nil_append]
        split
        · rename_i heq
          exact absurd (List.cons.inj heq).1 hequals
        · rfl
    | cons d rest =>
        by_cases hd : d = '='
        · subst hd
          rfl
        · rw [List.cons_append]
          split
          · rename_i heq
            exact absurd (List.cons.inj heq).1 hd
          · split
            · rename_i heq
              exact absurd (List.cons.inj heq).1 hd
            · rfl
  · rw [if_neg hstarts, if_neg hstarts]
    rfl

/-- The digits of the number of categories are those of the header without its tail. -/
theorem categoryDigits?_append (hword : c ∉ "nplurals".toList) (hblank : isBlank c = false)
    (hequals : c ≠ '=') (hdecimal : isDecimal c = false)
    (htail : categoryDigits? (c :: tail) = none) :
    categoryDigits? (t ++ c :: tail) = categoryDigits? t := by
  -- A run of digits ends in front of the tail at the latest.
  have hdigits : ∀ rest : Text,
      (Text.trimStart (rest ++ c :: tail)).takeWhile isDecimal =
        (Text.trimStart rest).takeWhile isDecimal := by
    intro rest
    have hstop : (c :: tail).takeWhile isDecimal = [] :=
      List.takeWhile_cons_of_neg (by simp [hdecimal])
    rw [Text.trimStart_append_cons hblank, List.takeWhile_append, hstop, List.append_nil]
    split
    · rename_i hall
      exact (List.IsPrefix.eq_of_length (List.takeWhile_prefix _) hall).symm
    · rfl
  induction t with
  | nil => exact htail
  | cons x t ih =>
      rw [List.cons_append, categoryDigits?, ← List.cons_append,
        behindAssignment?_append hword hblank hequals, Option.map_map, ih, categoryDigits?]
      have hsame : (fun rest => (Text.trimStart rest).takeWhile isDecimal) ∘
          (fun rest => rest ++ c :: tail) =
            fun rest => (Text.trimStart rest).takeWhile isDecimal :=
        funext hdigits
      rw [hsame]

/-- The text behind `plural=` has the tail of the header. -/
theorem behindPlural?_append (hword : c ∉ "plural".toList) (hblank : isBlank c = false)
    (hequals : c ≠ '=') (htail : ∀ joined, behindPlural? joined (c :: tail) = none)
    (joined : Bool) :
    behindPlural? joined (t ++ c :: tail) =
      (behindPlural? joined t).map fun rest => rest ++ c :: tail := by
  induction t generalizing joined with
  | nil => exact htail joined
  | cons x t ih =>
      rw [List.cons_append, behindPlural?, ← List.cons_append,
        behindAssignment?_append hword hblank hequals, ih, behindPlural?]
      cases joined with
      | true => rfl
      | false => cases behindAssignment? "plural".toList (x :: t) <;> rfl

end Tails

section LineEnds

variable {front : Text}

theorem categoryDigits?_quote (front : Text) :
    categoryDigits? (front ++ ['"']) = categoryDigits? front :=
  categoryDigits?_append (by decide) rfl (by decide) rfl rfl

theorem categoryDigits?_feed (front : Text) :
    categoryDigits? (front ++ ['\\', 'n', '"']) = categoryDigits? front :=
  categoryDigits?_append (by decide) rfl (by decide) rfl rfl

/-- The end of the line is taken away, be it a quote alone or an escaped line feed and a quote. -/
theorem headerExpression_lineEnd (h : ¬ ['\\', 'n'] <:+ front) :
    headerExpression (front ++ ['\\', 'n', '"']) = headerExpression (front ++ ['"']) := by
  have hfeed : behindPlural? false (front ++ ['\\', 'n', '"']) =
      (behindPlural? false front).map fun rest => rest ++ ['\\', 'n', '"'] :=
    behindPlural?_append (by decide) rfl (by decide) (by decide) false
  have hquote : behindPlural? false (front ++ ['"']) =
      (behindPlural? false front).map fun rest => rest ++ ['"'] :=
    behindPlural?_append (by decide) rfl (by decide) (by decide) false
  rw [headerExpression, headerExpression, hfeed, hquote]
  cases hassigned : behindPlural? false front with
  | none => rfl
  | some assigned =>
      have hkept : ¬ ['\\', 'n'] <:+ assigned :=
        fun hends => h (hends.trans (isSuffix_of_behindPlural? hassigned))
      have hline : withoutLineEnd (assigned ++ ['\\', 'n', '"']) = assigned := by
        have hparts : assigned ++ ['\\', 'n', '"'] = assigned ++ ['\\', 'n'] ++ ['"'] :=
          (List.append_assoc assigned ['\\', 'n'] ['"']).symm
        rw [withoutLineEnd, hparts, Text.dropSuffix_append, Text.dropSuffix_append]
      have hbare : withoutLineEnd (assigned ++ ['"']) = assigned := by
        rw [withoutLineEnd, Text.dropSuffix_append, Text.dropSuffix_of_not_suffix hkept]
      simp only [Option.map_some, hline, hbare]

/-- A header may be quoted at its end. -/
theorem headerExpression_quote (h : ¬ ['"'] <:+ front) :
    headerExpression (front ++ ['"']) = headerExpression front := by
  have hquote : behindPlural? false (front ++ ['"']) =
      (behindPlural? false front).map fun rest => rest ++ ['"'] :=
    behindPlural?_append (by decide) rfl (by decide) (by decide) false
  rw [headerExpression, headerExpression, hquote]
  cases hassigned : behindPlural? false front with
  | none => rfl
  | some assigned =>
      have hkept : ¬ ['"'] <:+ assigned :=
        fun hends => h (hends.trans (isSuffix_of_behindPlural? hassigned))
      have hline : withoutLineEnd (assigned ++ ['"']) = withoutLineEnd assigned := by
        rw [withoutLineEnd, Text.dropSuffix_append, withoutLineEnd,
          Text.dropSuffix_of_not_suffix hkept]
      simp only [Option.map_some, hline]

theorem Formula.ofHeader_quote [Machine] (h : ¬ ['"'] <:+ front) :
    ofHeader (front ++ ['"']) = ofHeader front := by
  rw [ofHeader, ofHeader, declaredCategories, declaredCategories, categoryDigits?_quote,
    headerExpression_quote h]

/-- A header line has the same formula with an escaped line feed in front of its last quote, unless
it had one there already. -/
theorem Formula.ofHeader_lineEnd [Machine] (h : ¬ ['\\', 'n'] <:+ front) :
    ofHeader (front ++ ['\\', 'n', '"']) = ofHeader (front ++ ['"']) := by
  rw [ofHeader, ofHeader, declaredCategories, declaredCategories, categoryDigits?_feed,
    categoryDigits?_quote, headerExpression_lineEnd h]

end LineEnds

end Plural
end Phrasebook
