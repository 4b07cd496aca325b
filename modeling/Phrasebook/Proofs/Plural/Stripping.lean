import Mathlib
import Phrasebook.Proofs.Plural.Chain

/-!
# Stripping parentheses

An expression stays the same without the parentheses around all of it.

**Pairs.**  `Closes` says by counting how parentheses belong together.  It is what the scan of the
nesting finds (`isNested_iff_closes`), so that the first and the last character of a text match each
other exactly if the text is wrapped (`isWrapped_iff_closes`).
**Grammar.**  What is left of an expression is derived as a part of it (`Grammatical.unwrap`), less
deeply nested than the whole.
**Result.**  `compile_stripParens`: the text that is left denotes the same tree, and no pair
surrounds it.
-/

namespace Phrasebook
namespace Plural

/-- Behind the given number of open parentheses, does the text close none that is not open, and are
all closed at its end? -/
structure Closes (opened : Nat) (t : Text) : Prop where
  never_below : ∀ front, front <+: t → front.count ')' ≤ opened + front.count '('
  all_closed : t.count ')' = opened + t.count '('

section Pairs

variable {opened : Nat} {c : Char} {t : Text}

/-- The empty front closes nothing, and so every front that counts begins with the first
character. -/
theorem closes_cons : Closes opened (c :: t) ↔
    (∀ front, front <+: t → (c :: front).count ')' ≤ opened + (c :: front).count '(') ∧
      (c :: t).count ')' = opened + (c :: t).count '(' := by
  constructor
  · rintro ⟨hnever, hall⟩
    exact ⟨fun front hfront => hnever _ (List.cons_prefix_cons.2 ⟨rfl, hfront⟩), hall⟩
  · rintro ⟨hnever, hall⟩
    refine ⟨fun front hfront => ?_, hall⟩
    rcases List.prefix_cons_iff.1 hfront with rfl | ⟨rest, rfl, hrest⟩
    · exact Nat.zero_le _
    · exact hnever rest hrest

theorem closes_opening_cons : Closes opened ('(' :: t) ↔ Closes (opened + 1) t := by
  have hcount : ∀ front : Text, ('(' :: front).count '(' = front.count '(' + 1 ∧
      ('(' :: front).count ')' = front.count ')' :=
    fun front => ⟨List.count_cons_self, List.count_cons_of_ne (by decide)⟩
  simp only [closes_cons, hcount, ← Nat.add_assoc, Nat.add_right_comm opened _ 1]
  exact ⟨fun h => ⟨h.1, h.2⟩, fun h => ⟨h.1, h.2⟩⟩

theorem closes_closing_cons : Closes opened (')' :: t) ↔ 0 < opened ∧ Closes (opened - 1) t := by
  have hcount : ∀ front : Text, (')' :: front).count '(' = front.count '(' ∧
      (')' :: front).count ')' = front.count ')' + 1 :=
    fun front => ⟨List.count_cons_of_ne (by decide), List.count_cons_self⟩
  simp only [closes_cons, hcount]
  constructor
  · rintro ⟨hnever, hall⟩
    have hpos : 0 < opened := hnever [] List.nil_prefix
    refine ⟨hpos, fun front hfront => ?_, by omega⟩
    have hfront := hnever front hfront
    omega
  · rintro ⟨hpos, hnever, hall⟩
    refine ⟨fun front hfront => ?_, by omega⟩
    have hfront := hnever front hfront
    omega

theorem closes_other_cons (hopen : c ≠ '(') (hclose : c ≠ ')') :
    Closes opened (c :: t) ↔ Closes opened t := by
  have hcount : ∀ front : Text, (c :: front).count '(' = front.count '(' ∧
      (c :: front).count ')' = front.count ')' :=
    fun front => ⟨List.count_cons_of_ne hopen, List.count_cons_of_ne hclose⟩
  simp only [closes_cons, hcount]
  exact ⟨fun h => ⟨h.1, h.2⟩, fun h => ⟨h.1, h.2⟩⟩

/-- The scan of the nesting counts parentheses. -/
theorem isNested_iff_closes : isNested 1 (opened + 1) (brackets t) = true ↔ Closes opened t := by
  induction t generalizing opened with
  | nil =>
      constructor
      · intro h
        obtain rfl : opened = 0 := by simpa [isNested] using h
        exact ⟨fun front hfront => by simp [List.prefix_nil.1 hfront], rfl⟩
      · rintro ⟨-, hall⟩
        obtain rfl : opened = 0 := by simpa using hall.symm
        rfl
  | cons c t ih =>
      by_cases hopen : c = '('
      · subst hopen
        rw [closes_opening_cons, ← ih, brackets_cons]
        rfl
      by_cases hclose : c = ')'
      · subst hclose
        rw [closes_closing_cons, isNested_closing_cons]
        refine and_congr_right fun hpos => ?_
        rw [← ih, Nat.sub_add_cancel hpos]
      · rw [closes_other_cons hopen hclose, isNested_inner_cons hopen hclose, ih]

/-- A text is wrapped exactly if its first and its last character are parentheses that match each
other. -/
theorem isWrapped_iff_closes (t : Text) :
    isWrapped t = true ↔ ∃ inner, t = '(' :: (inner ++ [')']) ∧ Closes 0 inner := by
  simp only [isWrapped_iff, ← isNested_iff_closes]

theorem isWrapped_stripParens (t : Text) : isWrapped (stripParens t) = false := by
  induction t using stripParens.induct with
  | case1 t hwrapped ih =>
      rw [stripParens, dif_pos hwrapped]
      exact ih
  | case2 t hbare =>
      rw [stripParens, dif_neg hbare]
      exact Bool.eq_false_iff.2 hbare

end Pairs

section Enclosing

variable {core : Text} {n : Nat}

theorem Encloses.of_trim {t : Text} (h : Encloses core n (Text.trim t)) : Encloses core n t := by
  obtain ⟨front, behind, ht, hfront, hbehind⟩ := Text.exists_trim t
  rw [ht]
  have hends : ∀ u, Encloses core n u → Encloses core n (u ++ behind) := by
    clear ht
    induction behind with
    | nil =>
        intro u hu
        rwa [List.append_nil]
    | cons c behind ih =>
        obtain ⟨hc, hrest⟩ := List.forall_mem_cons.1 hbehind
        intro u hu
        rw [List.append_cons]
        exact ih hrest _ (.behind hc hu)
  clear ht
  induction front with
  | nil => exact hends _ h
  | cons c front ih =>
      obtain ⟨hc, hrest⟩ := List.forall_mem_cons.1 hfront
      exact .before hc (ih hrest)

/-- Stripping takes nothing away but pairs of parentheses and the blanks in front of them and
behind. -/
theorem exists_encloses_stripParens (t : Text) : ∃ n, Encloses (stripParens t) n t := by
  induction t using stripParens.induct with
  | case1 t hwrapped ih =>
      obtain ⟨n, hinner⟩ := ih
      obtain ⟨u, rfl, hu⟩ := (isWrapped_iff t).1 hwrapped
      rw [unwrap_parens] at hinner
      rw [stripParens_parens hu]
      exact ⟨n + 1, .parens hinner.of_trim⟩
  | case2 t hbare =>
      rw [stripParens, dif_neg hbare]
      exact ⟨0, .core⟩

end Enclosing

section Grammar

variable {t : Text} {e : Expr}

theorem Grammatical.trim (h : Grammatical t e) : Grammatical (Text.trim t) e := by
  obtain ⟨hlength, ls, n, hls, hderived⟩ := h
  exact ⟨(Text.length_trim_le t).trans hlength, ls, n, splits_trim_iff.2 hls, hderived⟩

/-- The parentheses around an expression are the last step of its derivation. -/
theorem Grammatical.unwrap (h : Grammatical t e) (hwrapped : isWrapped t = true) :
    Grammatical (unwrap t) e := by
  have hlength := length_unwrap_lt hwrapped
  obtain ⟨u, rfl, hu⟩ := (isWrapped_iff t).1 hwrapped
  rw [unwrap_parens] at hlength ⊢
  obtain ⟨hshort, all, n, hall, hderived, hn⟩ := h
  obtain ⟨ls, rfl, hls⟩ := hall.parens_inv
  rw [hls.brackets_eq] at hu
  obtain ⟨m, hm, hinner⟩ := hderived.parens_inv rfl hu
  exact ⟨hlength.le.trans hshort, ls, m, splits_trim_iff.2 hls, hinner, hm.le.trans hn⟩

theorem Grammatical.stripParens (h : Grammatical t e) : Grammatical (stripParens t) e := by
  induction t using stripParens.induct with
  | case1 t hwrapped ih =>
      rw [Plural.stripParens, dif_pos hwrapped]
      exact ih (h.unwrap hwrapped)
  | case2 t hbare =>
      rw [Plural.stripParens, dif_neg hbare]
      exact h

/-- Without the parentheses around all of it an expression has the same tree.  What is taken away
are pairs of parentheses with the blanks beside them, and the text that is left does not begin and
end with two parentheses that match each other. -/
theorem compile_stripParens {c : Compiled} (h : compile t = .ok c) :
    compile (stripParens (Text.trim t)) = .ok ⟨stripParens (Text.trim t), c.tree⟩ ∧
      (∃ n, Encloses (stripParens (Text.trim t)) n t) ∧
      ∀ inner, Closes 0 inner → stripParens (Text.trim t) ≠ '(' :: (inner ++ [')']) := by
  have hgrammatical := grammatical_of_compile h
  refine ⟨compile_of_grammatical hgrammatical.trim.stripParens, ?_, fun inner hinner hwrapped => ?_⟩
  · obtain ⟨n, hn⟩ := exists_encloses_stripParens (Text.trim t)
    exact ⟨n, hn.of_trim⟩
  · have hbare := isWrapped_stripParens (Text.trim t)
    rw [(isWrapped_iff_closes _).2 ⟨inner, hwrapped, hinner⟩] at hbare
    cases hbare

/-- Two pairs with blanks between them surround a comparison whose sides have parentheses of their
own. -/
theorem compile_stripParens_comparison :
    ∃ c, compile "( ((n) ==(1)) )".toList = .ok c ∧
      stripParens (Text.trim "( ((n) ==(1)) )".toList) = "(n) ==(1)".toList ∧
      compile "(n) ==(1)".toList = .ok ⟨"(n) ==(1)".toList, c.tree⟩ ∧
      ∀ inner, Closes 0 inner → "(n) ==(1)".toList ≠ '(' :: (inner ++ [')']) := by
  have hcompile : compile "( ((n) ==(1)) )".toList =
      .ok ⟨"( ((n) ==(1)) )".toList, .binary .eq .quantity (.number 1)⟩ := by cbv
  have hstrip : stripParens (Text.trim "( ((n) ==(1)) )".toList) = "(n) ==(1)".toList := by cbv
  obtain ⟨hsame, -, hbare⟩ := compile_stripParens hcompile
  rw [hstrip] at hsame hbare
  exact ⟨_, hcompile, hstrip, hsame, hbare⟩

end Grammar

end Plural
end Phrasebook
