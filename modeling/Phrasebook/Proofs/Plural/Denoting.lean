import Phrasebook.Proofs.Plural.Brackets
import Phrasebook.Proofs.Plural.Reading
import Phrasebook.Proofs.Text.Cutting

/-!
# What texts denote

A text denotes the expression that is derived from its lexemes.  Here texts are taken apart and
put together at their blanks, parentheses and branch marks, and what they denote follows.

**Boundaries.**  A blank, a parenthesis or a branch mark ends every lexeme in front of it, so that
a text can be split on both sides of it (`Splits.append`, `Splits.append_inv`).
**Results.**
* `Denotes.unique`: a text denotes at most one expression.
* `denotes_trim_iff`: blanks at the ends do not matter.
* `Denotes.conditional_inv`, `Denotes.parens_inv`: the parts of a text denote the parts of its
  expression.
* `Denotes.conjunction`: what two conditions joined by the operator `&&` denote.
-/

namespace Phrasebook
namespace Plural

/-- The lexeme of a parenthesis or branch mark. -/
def mark? : Char → Option Lexeme
  | '(' => some .openParen
  | ')' => some .closeParen
  | '?' => some .question
  | ':' => some .colon
  | _ => none

/-- Does the character end every lexeme in front of it? -/
def isBoundary (c : Char) : Bool :=
  isBlank c || (mark? c).isSome

section Boundaries

variable {x : Char} {l : Lexeme} {a b rest : Text}

theorem mark?_cases (h : mark? x = some l) :
    (x = '(' ∧ l = .openParen) ∨ (x = ')' ∧ l = .closeParen) ∨ (x = '?' ∧ l = .question) ∨
      (x = ':' ∧ l = .colon) := by
  unfold mark? at h
  split at h <;> cases h <;> simp

theorem isBoundary_cases (h : isBoundary x = true) : isBlank x = true ∨ ∃ l, mark? x = some l := by
  rw [isBoundary, Bool.or_eq_true, Option.isSome_iff_exists] at h
  exact h

theorem read?_mark (h : mark? x = some l) (rest : Text) :
    Lexeme.read? x rest = some (l, rest) := by
  rcases mark?_cases h with ⟨rfl, rfl⟩ | ⟨rfl, rfl⟩ | ⟨rfl, rfl⟩ | ⟨rfl, rfl⟩ <;> rfl

theorem not_isBlank_mark (h : mark? x = some l) : isBlank x = false :=
  isBlank_of_read? (read?_mark h [])

/-- The characters of words lie among the printed ones of ASCII. -/
theorem not_isWordChar_of_isBlank (h : isBlank x = true) : isWordChar x = false := by
  rw [Bool.eq_false_iff]
  intro hword
  have hprinted : 48 ≤ x.toNat ∧ x.toNat ≤ 122 := by
    delta isWordChar Char.isAlphanum Char.isAlpha Char.isUpper Char.isLower Char.isDigit at hword
    simp only [Bool.or_eq_true, Bool.and_eq_true, decide_eq_true_eq, beq_iff_eq] at hword
    rcases hword with ((hupper | hlower) | hdigit) | rfl
    · exact ⟨Nat.le_trans (by decide) hupper.1, Nat.le_trans hupper.2 (by decide)⟩
    · exact ⟨Nat.le_trans (by decide) hlower.1, hlower.2⟩
    · exact ⟨hdigit.1, Nat.le_trans hdigit.2 (by decide)⟩
    · decide
  simp only [isBlank, Bool.or_eq_true, Bool.and_eq_true, decide_eq_true_eq, beq_iff_eq] at h
  omega

theorem isBoundary_not_word (h : isBoundary x = true) : isWordChar x = false := by
  rcases isBoundary_cases h with hblank | ⟨l, hl⟩
  · exact not_isWordChar_of_isBlank hblank
  · rcases mark?_cases hl with ⟨rfl, -⟩ | ⟨rfl, -⟩ | ⟨rfl, -⟩ | ⟨rfl, -⟩ <;> decide

theorem isBoundary_not_digit (h : isBoundary x = true) : isAsciiDigit x = false := by
  have hword := isBoundary_not_word h
  simp only [isWordChar, Char.isAlphanum, Bool.or_eq_false_iff] at hword
  exact hword.1.2

/-- No lexeme has a boundary in it but the one that a mark makes. -/
theorem Lexeme.toText_of_mem (hl : l.Fits rest) (hx : isBoundary x = true)
    (hm : x ∈ l.toText) : l.toText = [x] := by
  cases l with
  | number digits =>
      have hdigit := hl.2 x hm
      rw [isBoundary_not_digit hx] at hdigit
      cases hdigit
  | binary op =>
      cases op <;> simp only [Lexeme.toText, BinaryOp.toText, List.mem_cons, List.not_mem_nil,
        or_false, or_self] at hm ⊢
      all_goals first
        | (subst hm; rfl)
        | (subst hm; cases hx)
        | (rcases hm with rfl | rfl <;> cases hx)
  | _ =>
      rw [List.mem_singleton.1 hm]
      rfl

theorem Lexeme.fits_append_iff (hx : isBoundary x = true) :
    l.Fits (rest ++ x :: b) ↔ l.Fits rest := by
  cases l with
  | quantity =>
      cases rest with
      | nil =>
          refine ⟨fun _ c hc => (nomatch hc), fun _ c hc => ?_⟩
          obtain rfl : x = c := Option.some.inj hc
          exact isBoundary_not_word hx
      | cons d rest => exact Iff.rfl
  | _ => exact Iff.rfl

/-- What stands behind a boundary does not make a lexeme longer. -/
theorem Lexeme.isLongest_append_iff (hx : isBoundary x = true) :
    l.IsLongest (rest ++ x :: b) ↔ l.IsLongest rest := by
  constructor
  · rintro ⟨hfits, hlong⟩
    refine ⟨(Lexeme.fits_append_iff hx).1 hfits, fun m left hm he => ?_⟩
    refine hlong m (left ++ x :: b) ((Lexeme.fits_append_iff hx).2 hm) ?_
    rw [← List.append_assoc, he, List.append_assoc]
  · rintro ⟨hfits, hlong⟩
    refine ⟨(Lexeme.fits_append_iff hx).2 hfits, fun m left hm he => ?_⟩
    rw [← List.append_assoc] at he
    rcases List.append_eq_append_iff.1 he with ⟨between, hl, hleft⟩ | ⟨between, hm', hleft⟩
    · subst hleft
      exact hlong m between ((Lexeme.fits_append_iff hx).1 hm) hl.symm
    · cases between with
      | nil =>
          have hm₀ : m.Fits [] := by
            refine (Lexeme.fits_append_iff hx (b := b)).1 ?_
            rwa [List.nil_append, show x :: b = left from hleft]
          exact hlong m [] hm₀ (by rw [hm', List.append_nil, List.append_nil])
      | cons y between =>
          obtain ⟨rfl, -⟩ := List.cons.inj hleft
          have hlength := congrArg List.length hm'
          rw [Lexeme.toText_of_mem hm hx (by rw [hm']; simp)] at hlength
          have hpos := Lexeme.length_toText_pos hfits
          simp only [List.length_append, List.length_cons, List.length_nil] at hlength
          omega

end Boundaries

section Splitting

variable {x : Char} {l : Lexeme} {a b t : Text} {ls ms all : List Lexeme}

theorem splits_blank_iff (hx : isBlank x = true) : Splits (x :: b) ls ↔ Splits b ls := by
  refine ⟨fun h => ?_, Splits.blank hx⟩
  generalize ht : x :: b = t at h
  cases h with
  | nil => cases ht
  | blank _ h =>
      obtain ⟨rfl, rfl⟩ := List.cons.inj ht
      exact h
  | lexeme hlong _ =>
      have hread := Lexeme.read?_eq_some_iff.2 ⟨ht.symm, hlong⟩
      rw [isBlank_of_read? hread] at hx
      cases hx

theorem splits_mark_iff (hx : mark? x = some l) :
    Splits (x :: b) all ↔ ∃ ls, all = l :: ls ∧ Splits b ls := by
  constructor
  · intro h
    generalize ht : x :: b = t at h
    cases h with
    | nil => cases ht
    | blank hblank _ =>
        obtain ⟨rfl, rfl⟩ := List.cons.inj ht
        rw [not_isBlank_mark hx] at hblank
        cases hblank
    | lexeme hlong h =>
        have hread := Lexeme.read?_eq_some_iff.2 ⟨ht.symm, hlong⟩
        rw [read?_mark hx] at hread
        cases hread
        exact ⟨_, rfl, h⟩
  · rintro ⟨ls, rfl, h⟩
    obtain ⟨htext, hlong⟩ := Lexeme.read?_eq_some_iff.1 (read?_mark hx b)
    rw [← htext]
    exact .lexeme hlong h

theorem Splits.append (ha : Splits a ls) (hx : isBoundary x = true) (hb : Splits (x :: b) ms) :
    Splits (a ++ x :: b) (ls ++ ms) := by
  induction ha with
  | nil => exact hb
  | blank hblank _ ih => exact .blank hblank ih
  | lexeme hlong _ ih =>
      rw [List.append_assoc]
      exact .lexeme ((Lexeme.isLongest_append_iff hx).2 hlong) ih

theorem Splits.append_inv (h : Splits (a ++ x :: b) all) (hx : isBoundary x = true) :
    ∃ ls ms, all = ls ++ ms ∧ Splits a ls ∧ Splits (x :: b) ms := by
  generalize ht : a ++ x :: b = t at h
  induction h generalizing a with
  | nil => simp at ht
  | @blank c rest all hblank hrest ih =>
      cases a with
      | nil =>
          have hwhole : c :: rest = x :: b := ht.symm
          exact ⟨[], all, rfl, .nil, hwhole ▸ .blank hblank hrest⟩
      | cons d a =>
          obtain ⟨rfl, htail⟩ := List.cons.inj ht
          obtain ⟨ls, ms, rfl, ha, hb⟩ := ih htail
          exact ⟨ls, ms, rfl, .blank hblank ha, hb⟩
  | @lexeme l rest all hlong hrest ih =>
      rcases List.append_eq_append_iff.1 ht with ⟨between, hl, hbehind⟩ | ⟨between, rfl, rfl⟩
      · -- the lexeme reaches to the boundary, and so it begins there
        cases between with
        | nil =>
            rw [List.append_nil] at hl
            obtain ⟨ls, ms, rfl, ha, hb⟩ := ih (a := []) hbehind
            refine ⟨l :: ls, ms, rfl, ?_, hb⟩
            have hlong' : l.IsLongest [] := by
              refine (Lexeme.isLongest_append_iff hx (b := b)).1 ?_
              rwa [List.nil_append, show x :: b = rest from hbehind]
            have hsplit := Splits.lexeme hlong' ha
            rwa [List.append_nil, hl] at hsplit
        | cons y between =>
            obtain ⟨rfl, hrest'⟩ := List.cons.inj hbehind
            have hlone := Lexeme.toText_of_mem hlong.1 hx (by rw [hl]; simp)
            have hsplit := Splits.lexeme hlong hrest
            rw [hlone] at hl
            obtain ⟨rfl, rfl⟩ : a = [] ∧ between = [] := by
              have hlength := congrArg List.length hl
              simp only [List.length_append, List.length_cons, List.length_nil] at hlength
              exact ⟨List.length_eq_zero_iff.1 (by omega), List.length_eq_zero_iff.1 (by omega)⟩
            refine ⟨[], l :: all, rfl, .nil, ?_⟩
            rwa [hlone, ← show b = rest from hrest'] at hsplit
      · obtain ⟨ls, ms, rfl, ha, hb⟩ := ih rfl
        exact ⟨l :: ls, ms, rfl, .lexeme ((Lexeme.isLongest_append_iff hx).1 hlong) ha, hb⟩

/-- Some characters have no place in any expression. -/
theorem Splits.not_mem (h : Splits t ls) (hx : x ∈ ['s', ';']) : x ∉ t := by
  have hclass : isBlank x = false ∧ isAsciiDigit x = false ∧ ∀ l : Lexeme,
      (∀ digits, l ≠ .number digits) → x ∉ l.toText := by
    simp only [List.mem_cons, List.not_mem_nil, or_false] at hx
    rcases hx with rfl | rfl
    all_goals
      refine ⟨by decide, by decide, fun l hl => ?_⟩
      cases l with
      | number digits => exact absurd rfl (hl digits)
      | binary op => cases op <;> decide
      | _ => decide
  induction h with
  | nil => exact List.not_mem_nil
  | blank hc _ ih =>
      rw [List.mem_cons, not_or]
      refine ⟨?_, ih⟩
      rintro rfl
      rw [hclass.1] at hc
      cases hc
  | @lexeme l rest ls hlong _ ih =>
      rw [List.mem_append, not_or]
      refine ⟨?_, ih⟩
      cases l with
      | number digits =>
          intro hm
          have hdigit := hlong.1.2 x hm
          rw [hclass.2.1] at hdigit
          cases hdigit
      | _ => exact hclass.2.2 _ (fun _ => by simp)

end Splitting

/-- The text denotes the expression that is derived from its lexemes. -/
def Denotes (t : Text) (e : Expr) : Prop :=
  ∃ ls n, Splits t ls ∧ Derives .expression ls e n

section Denotations

variable {x : Char} {t : Text} {e : Expr}

theorem Denotes.unique {e' : Expr} (h : Denotes t e) (h' : Denotes t e') : e = e' := by
  obtain ⟨ls, n, hls, hderived⟩ := h
  obtain ⟨ms, m, hms, hderived'⟩ := h'
  obtain rfl := hls.unique hms
  exact hderived.unique hderived'

theorem denotes_of_compile {c : Compiled} (h : compile t = .ok c) : Denotes t c.tree := by
  obtain ⟨-, ls, n, hls, hderived, -⟩ := grammatical_of_compile h
  exact ⟨ls, n, hls, hderived⟩

theorem length_le_of_compile {c : Compiled} (h : compile t = .ok c) : t.length ≤ maxLength :=
  (grammatical_of_compile h).1

theorem splits_concat_iff {ls : List Lexeme} (hx : isBlank x = true) :
    Splits (t ++ [x]) ls ↔ Splits t ls := by
  have hboundary : isBoundary x = true := by rw [isBoundary, hx, Bool.true_or]
  constructor
  · intro h
    obtain ⟨ls, ms, rfl, ha, hb⟩ := h.append_inv hboundary
    obtain rfl := Splits.unique .nil ((splits_blank_iff hx).1 hb)
    rwa [List.append_nil]
  · intro h
    have hsplit := h.append hboundary (.blank hx .nil)
    rwa [List.append_nil] at hsplit

theorem denotes_cons_iff (hx : isBlank x = true) : Denotes (x :: t) e ↔ Denotes t e := by
  simp only [Denotes, splits_blank_iff hx]

theorem denotes_concat_iff (hx : isBlank x = true) : Denotes (t ++ [x]) e ↔ Denotes t e := by
  simp only [Denotes, splits_concat_iff hx]

theorem splits_trim_iff {ls : List Lexeme} : Splits (Text.trim t) ls ↔ Splits t ls := by
  obtain ⟨front, behind, ht, hfront, hbehind⟩ := Text.exists_trim t
  have hends : ∀ u, Splits (front ++ u) ls ↔ Splits u ls := by
    intro u
    clear ht
    induction front with
    | nil => rfl
    | cons c front ih =>
        rw [List.cons_append, splits_blank_iff (hfront c (List.mem_cons_self ..)),
          ih (fun d hd => hfront d (List.mem_cons_of_mem _ hd))]
  have hendsBehind : ∀ u, Splits (u ++ behind) ls ↔ Splits u ls := by
    intro u
    clear ht
    induction behind generalizing u with
    | nil => rw [List.append_nil]
    | cons c behind ih =>
        rw [List.append_cons, ih (fun d hd => hbehind d (List.mem_cons_of_mem _ hd)),
          splits_concat_iff (hbehind c (List.mem_cons_self ..))]
  rw [← hends (Text.trim t), ← hendsBehind (front ++ Text.trim t), ← ht]

theorem denotes_trim_iff : Denotes (Text.trim t) e ↔ Denotes t e := by
  simp only [Denotes, splits_trim_iff]

theorem Denotes.trim_ne_nil (h : Denotes t e) : Text.trim t ≠ [] := by
  intro htrim
  obtain ⟨ls, n, hls, hderived⟩ := denotes_trim_iff.2 h
  rw [htrim] at hls
  obtain rfl := Splits.unique .nil hls
  exact hderived.ne_nil rfl

theorem Denotes.conditional_inv {c v r : Text} (h : Denotes (c ++ '?' :: (v ++ ':' :: r)) e)
    (hc : isNested 0 0 (brackets c) = true) (hv : isNested 0 0 (brackets v) = true) :
    ∃ test ifTrue ifFalse, e = .conditional test ifTrue ifFalse ∧ Denotes c test ∧
      Denotes v ifTrue ∧ Denotes r ifFalse := by
  obtain ⟨all, n, hall, hderived⟩ := h
  obtain ⟨lc, rest, rfl, hlc, hrest⟩ := hall.append_inv (x := '?') rfl
  obtain ⟨behind, rfl, hbehind⟩ := (splits_mark_iff (x := '?') rfl).1 hrest
  obtain ⟨lv, last, rfl, hlv, hlast⟩ := hbehind.append_inv (x := ':') rfl
  obtain ⟨lr, rfl, hlr⟩ := (splits_mark_iff (x := ':') rfl).1 hlast
  rw [hlc.brackets_eq] at hc
  rw [hlv.brackets_eq] at hv
  obtain ⟨test, ifTrue, ifFalse, i, j, k, rfl, htest, htrue, hfalse⟩ :=
    hderived.conditional_inv hc hv
  exact ⟨test, ifTrue, ifFalse, rfl, ⟨lc, i, hlc, htest⟩, ⟨lv, j, hlv, htrue⟩, ⟨lr, k, hlr, hfalse⟩⟩

/-- The parentheses at the ends of a text are its first and its last lexeme. -/
theorem Splits.parens_inv {all : List Lexeme} (h : Splits ('(' :: (t ++ [')'])) all) :
    ∃ ls, all = .openParen :: ls ++ [.closeParen] ∧ Splits t ls := by
  obtain ⟨rest, rfl, hrest⟩ := (splits_mark_iff (x := '(') rfl).1 h
  obtain ⟨ls, close, rfl, hls, hclose⟩ := hrest.append_inv (x := ')') rfl
  obtain ⟨ms, rfl, hms⟩ := (splits_mark_iff (x := ')') rfl).1 hclose
  obtain rfl := Splits.unique .nil hms
  exact ⟨ls, rfl, hls⟩

theorem Denotes.parens_inv (h : Denotes ('(' :: (t ++ [')'])) e)
    (ht : isNested 1 1 (brackets t) = true) : Denotes t e := by
  obtain ⟨all, n, hall, hderived⟩ := h
  obtain ⟨ls, rfl, hls⟩ := hall.parens_inv
  rw [hls.brackets_eq] at ht
  obtain ⟨m, -, hinner⟩ := hderived.parens_inv rfl ht
  exact ⟨ls, m, hls, hinner⟩

/-- A condition in parentheses, as an operand of a conjunction. -/
theorem Splits.parens {ls rest : List Lexeme} {b : Text} (ht : Splits t ls) (hb : Splits b rest) :
    Splits ('(' :: (t ++ ')' :: b)) (.openParen :: (ls ++ .closeParen :: rest)) :=
  have hclose : Splits (')' :: b) (.closeParen :: rest) := (splits_mark_iff rfl).2 ⟨_, rfl, hb⟩
  (splits_mark_iff rfl).2 ⟨_, rfl, ht.append rfl hclose⟩

theorem Denotes.conjunction {c d : Text} {x y : Expr} (hc : Denotes c x) (hd : Denotes d y) :
    Denotes ('(' :: c ++ ") && (".toList ++ d ++ [')']) (.binary .and x y) := by
  obtain ⟨lc, i, hlc, hx⟩ := hc
  obtain ⟨ld, j, hld, hy⟩ := hd
  have hread : Lexeme.read? '&' ('&' :: ' ' :: '(' :: (d ++ [')'])) =
      some (.binary .and, ' ' :: '(' :: (d ++ [')'])) := rfl
  have hand := (Lexeme.read?_eq_some_iff.1 hread).2
  have hright : Splits (' ' :: '(' :: (d ++ [')'])) (.openParen :: (ld ++ [.closeParen])) :=
    .blank rfl (hld.parens .nil)
  have hmiddle := Splits.blank (c := ' ') rfl (.lexeme hand hright)
  have htext : '(' :: c ++ ") && (".toList ++ d ++ [')'] = '(' :: (c ++ ')' :: ' ' ::
      ((Lexeme.binary .and).toText ++ ' ' :: '(' :: (d ++ [')']))) := by
    rw [List.append_assoc, List.append_assoc]
    rfl
  have hoperand : ∀ {ls : List Lexeme} {z : Expr} {n k : Nat}, Derives .expression ls z n →
      k ≤ 7 → Derives (.level k) (.openParen :: ls ++ [.closeParen]) z (n + 1) :=
    fun h hk => (Derives.operand (.atom (.parens h))).loosen (Nat.le_refl 7) hk
  have hderived := @Derives.binary .and _ _ _ _ _ _ (hoperand hx (by decide))
    (hoperand hy (by decide))
  have hexpression := hderived.loosen (by decide) (show 1 ≤ BinaryOp.level .and by decide)
  rw [List.append_assoc] at hexpression
  exact ⟨_, _, htext ▸ hlc.parens hmiddle, .condition hexpression⟩

theorem denotes_digits {digits : Text} (hne : digits ≠ [])
    (h : ∀ c ∈ digits, isAsciiDigit c = true) :
    Denotes digits (.number (Nat.ofDigitChars 10 digits 0)) := by
  refine ⟨[.number digits], 0, ?_, ?_⟩
  · cases digits with
    | nil => exact absurd rfl hne
    | cons c rest =>
        obtain ⟨hc, hrest⟩ := List.forall_mem_cons.1 h
        obtain ⟨htake, hdrop⟩ := @takeWhile_digits rest [] hrest (fun _ hd => nomatch hd)
        rw [List.append_nil] at htake hdrop
        have hread : Lexeme.read? c rest = some (.number (c :: rest), []) := by
          rw [Lexeme.read?, if_pos hc, htake, hdrop]
        obtain ⟨htext, hlong⟩ := Lexeme.read?_eq_some_iff.1 hread
        have hsplit := Splits.lexeme hlong .nil
        rwa [htext] at hsplit
  · exact .condition ((Derives.operand (.atom (.number digits))).loosen (Nat.le_refl 7) (by decide))

end Denotations

end Plural
end Phrasebook
