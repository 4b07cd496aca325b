import Mathlib
import Phrasebook.Proofs.Plural.Reading

/-!
# Substituting the quantity

The quantity is bound when an expression is evaluated.  It might as well be written into the text:
then the text is an expression of the same shape, and its value is the same.

**Substitution.**  `substitute` writes a number in place of every `n` of a text, `Lexeme.fixed` and
`Expr.fixed` in place of the quantity of a lexeme and of an expression.
**Neighbours.**  Digits are lost if they stand beside other digits.  In what the grammar derives no
two operands are neighbours (`Derives.isPhrase`), so that the lexemes of the text stay apart
(`Splits.substitute`).
**Result.**  `compile_substitute`.
-/

namespace Phrasebook
namespace Plural

/-- The text with the digits of a number in place of every `n`. -/
def substitute (q : Nat) (t : Text) : Text :=
  t.flatMap fun c => if c = 'n' then decimalDigits q else [c]

/-- The lexeme with a number in place of the quantity. -/
def Lexeme.fixed (q : Nat) : Lexeme → Lexeme
  | .quantity => .number (decimalDigits q)
  | l => l

/-- The expression with a number in place of the quantity. -/
def Expr.fixed (q : Nat) : Expr → Expr
  | .number value => .number value
  | .quantity => .number q
  | .negation operand => .negation (operand.fixed q)
  | .binary op left right => .binary op (left.fixed q) (right.fixed q)
  | .conditional test ifTrue ifFalse =>
      .conditional (test.fixed q) (ifTrue.fixed q) (ifFalse.fixed q)

section Evaluation

/-- A fixed quantity is the one that the expression is evaluated for. -/
theorem Expr.evaluate_fixed (q : Nat) (m : Int) (e : Expr) :
    (e.fixed q).evaluate m = e.evaluate q := by
  induction e with
  | number value => rfl
  | quantity => rfl
  | negation operand ih => simp only [fixed, evaluate, ih]
  | binary op left right ihl ihr => simp only [fixed, evaluate, ihl, ihr]
  | conditional test ifTrue ifFalse iht ihx ihy => simp only [fixed, evaluate, iht, ihx, ihy]

end Evaluation

section Neighbours

/-- Can an operand begin with the lexeme? -/
def Lexeme.begins : Lexeme → Bool
  | .number _ | .quantity | .openParen | .negation => true
  | _ => false

/-- Can an operand end with the lexeme? -/
def Lexeme.ends : Lexeme → Bool
  | .number _ | .quantity | .closeParen => true
  | _ => false

/-- Does no operand begin where another one has just ended? -/
def Apart (l m : Lexeme) : Prop :=
  l.ends = true → m.begins = false

/-- Lexemes that begin and end like an operand and have operands apart. -/
structure IsPhrase (ls : List Lexeme) : Prop where
  begins : ∃ l ∈ ls.head?, l.begins = true
  ends : ∃ l ∈ ls.getLast?, l.ends = true
  apart : ls.IsChain Apart

variable {x : Lexeme} {ls ms : List Lexeme}

theorem IsPhrase.single (hbegins : x.begins = true) (hends : x.ends = true) : IsPhrase [x] :=
  ⟨⟨x, rfl, hbegins⟩, ⟨x, rfl, hends⟩, .singleton x⟩

/-- A lexeme that no operand ends with, in front of a phrase. -/
theorem IsPhrase.cons (hbegins : x.begins = true) (hends : x.ends = false) (h : IsPhrase ls) :
    IsPhrase (x :: ls) := by
  refine ⟨⟨x, rfl, hbegins⟩, ?_, ?_⟩
  · obtain ⟨l, hl, hlends⟩ := h.ends
    refine ⟨l, ?_, hlends⟩
    rw [List.getLast?_cons_of_ne_nil (List.ne_nil_of_mem (List.mem_of_mem_getLast? hl))]
    exact hl
  · refine List.isChain_cons.2 ⟨fun y _ hx => ?_, h.apart⟩
    rw [hends] at hx
    cases hx

/-- Two phrases with a lexeme between them that belongs to no operand. -/
theorem IsPhrase.join (hbegins : x.begins = false) (hends : x.ends = false) (hl : IsPhrase ls)
    (hm : IsPhrase ms) : IsPhrase (ls ++ x :: ms) := by
  obtain ⟨first, hfirst, hfirstBegins⟩ := hl.begins
  obtain ⟨last, hlast, hlastEnds⟩ := hm.ends
  have hls : ls ≠ [] := List.ne_nil_of_mem (List.mem_of_mem_head? hfirst)
  have hms : ms ≠ [] := List.ne_nil_of_mem (List.mem_of_mem_getLast? hlast)
  refine ⟨⟨first, ?_, hfirstBegins⟩, ⟨last, ?_, hlastEnds⟩, ?_⟩
  · rwa [List.head?_append_of_ne_nil _ hls]
  · rwa [List.getLast?_append_of_ne_nil _ (List.cons_ne_nil x ms),
      List.getLast?_cons_of_ne_nil hms]
  · refine List.isChain_append.2 ⟨hl.apart, List.isChain_cons.2 ⟨fun y _ hx => ?_, hm.apart⟩, ?_⟩
    · rw [hends] at hx
      cases hx
    · rintro y - z hz -
      obtain rfl : x = z := Option.some.inj hz
      exact hbegins

/-- A phrase in parentheses. -/
theorem IsPhrase.parens (h : IsPhrase ls) : IsPhrase (.openParen :: ls ++ [.closeParen]) := by
  refine ⟨⟨_, rfl, rfl⟩, ⟨.closeParen, List.getLast?_concat, rfl⟩, ?_⟩
  refine List.isChain_append.2 ⟨?_, .singleton _, ?_⟩
  · exact List.isChain_cons.2 ⟨nofun, h.apart⟩
  · rintro y - z hz -
    obtain rfl : Lexeme.closeParen = z := Option.some.inj hz
    rfl

/-- What the grammar derives is a phrase. -/
theorem Derives.isPhrase {c : Category} {e : Expr} {n : Nat} (h : Derives c ls e n) :
    IsPhrase ls := by
  induction h with
  | conditional _ _ _ iht iha ihb =>
      rw [List.append_assoc, List.cons_append]
      exact iht.join rfl rfl (iha.join rfl rfl ihb)
  | condition _ ih | tighter _ _ ih | operand _ ih | atom _ ih => exact ih
  | binary _ _ ihl ihr => exact ihl.join rfl rfl ihr
  | negation _ ih => exact ih.cons rfl rfl
  | number digits => exact .single rfl rfl
  | quantity => exact .single rfl rfl
  | parens _ ih => exact ih.parens

/-- The same rules derive the fixed expression from the fixed lexemes. -/
theorem Derives.fixed (q : Nat) {c : Category} {e : Expr} {n : Nat} (h : Derives c ls e n) :
    Derives c (ls.map (Lexeme.fixed q)) (e.fixed q) n := by
  induction h with
  | conditional _ _ _ iht iha ihb =>
      simp only [List.map_append, List.map_cons]
      exact .conditional iht iha ihb
  | condition _ ih => exact .condition ih
  | binary _ _ ihl ihr =>
      simp only [List.map_append, List.map_cons]
      exact .binary ihl ihr
  | tighter hk _ ih => exact .tighter hk ih
  | operand _ ih => exact .operand ih
  | negation _ ih => exact .negation ih
  | atom _ ih => exact .atom ih
  | number digits => exact .number digits
  | quantity =>
      have hnumber := Derives.number (decimalDigits q)
      rwa [decimalDigits, Nat.ofDigitChars_ten_toDigits] at hnumber
  | parens _ ih =>
      simp only [List.map_append, List.map_cons, List.map_nil]
      exact .parens ih

end Neighbours

section Texts

variable {q : Nat} {c : Char} {s t rest : Text} {l : Lexeme} {ls : List Lexeme}

theorem substitute_append (q : Nat) (s t : Text) :
    substitute q (s ++ t) = substitute q s ++ substitute q t :=
  List.flatMap_append

theorem substitute_cons_of_ne (hc : c ≠ 'n') (t : Text) :
    substitute q (c :: t) = c :: substitute q t := by
  rw [substitute, List.flatMap_cons, if_neg hc]
  rfl

theorem substitute_eq_self (h : 'n' ∉ t) : substitute q t = t := by
  induction t with
  | nil => rfl
  | cons c t ih =>
      rw [List.mem_cons, not_or] at h
      rw [substitute_cons_of_ne (Ne.symm h.1), ih h.2]

/-- A text begins as before, or with a digit in place of an `n`. -/
theorem head?_substitute (h : c ∈ (substitute q t).head?) :
    (c ∈ t.head? ∧ c ≠ 'n') ∨ (t.head? = some 'n' ∧ isAsciiDigit c = true) := by
  cases t with
  | nil => cases h
  | cons d t =>
      by_cases hd : d = 'n'
      · subst hd
        rw [substitute, List.flatMap_cons, if_pos rfl,
          List.head?_append_of_ne_nil _ (decimalDigits_ne_nil q)] at h
        exact .inr ⟨rfl, isAsciiDigit_of_mem_decimalDigits (List.mem_of_mem_head? h)⟩
      · rw [substitute_cons_of_ne hd] at h
        obtain rfl : d = c := Option.some.inj h
        exact .inl ⟨rfl, hd⟩

/-- Only the quantity is written with an `n`. -/
theorem substitute_toText (h : l.Fits rest) : substitute q l.toText = (l.fixed q).toText := by
  cases l with
  | quantity => exact List.append_nil _
  | number digits =>
      refine substitute_eq_self fun hn => ?_
      cases h.2 'n' hn
  | binary op => cases op <;> rfl
  | _ => rfl

theorem Lexeme.Fits.fixed (q : Nat) (h : l.Fits rest) : (l.fixed q).Fits (substitute q rest) := by
  cases l with
  | quantity =>
      exact ⟨decimalDigits_ne_nil q, fun d hd => isAsciiDigit_of_mem_decimalDigits hd⟩
  | number digits => exact h
  | _ => trivial

/-- Nothing that is substituted makes a lexeme longer, unless a digit comes to stand behind a
number. -/
theorem Lexeme.IsLongest.fixed (q : Nat) (h : l.IsLongest rest)
    (hnext : ∀ digits, l = .number digits → rest.head? ≠ some 'n') :
    (l.fixed q).IsLongest (substitute q rest) := by
  have hequals : rest.head? ≠ some '=' → (substitute q rest).head? ≠ some '=' := by
    intro hrest hhead
    rcases head?_substitute hhead with ⟨hequals, -⟩ | ⟨-, hdigit⟩
    · exact hrest hequals
    · cases hdigit
  have hends := h.endsBefore
  refine Lexeme.isLongest_iff.2 ⟨h.1.fixed q, ?_⟩
  cases l with
  | number digits =>
      intro c hc
      rcases head?_substitute hc with ⟨hc, -⟩ | ⟨hn, -⟩
      · exact hends c hc
      · exact absurd hn (hnext digits rfl)
  | quantity =>
      intro c hc
      rcases head?_substitute hc with ⟨hc, -⟩ | ⟨hn, -⟩
      · have hword := h.1 c hc
        simp only [isWordChar, Char.isAlphanum, Bool.or_eq_false_iff] at hword
        exact hword.1.2
      · cases h.1 'n' hn
  | negation => exact hequals hends
  | binary op =>
      cases op
      case lt | gt => exact hequals hends
      all_goals trivial
  | _ => trivial

theorem Splits.head?_eq_quantity (h : Splits t ls) (hn : t.head? = some 'n') :
    ls.head? = some .quantity := by
  cases h with
  | nil => cases hn
  | blank hc _ =>
      obtain rfl := Option.some.inj hn
      cases hc
  | @lexeme l rest _ hlong _ =>
      obtain ⟨behind, hbehind⟩ := List.head?_eq_some_iff.1 hn
      have hread := Lexeme.read?_eq_some_iff.2 ⟨hbehind, hlong⟩
      rw [Lexeme.read?, if_neg (by decide), if_pos rfl] at hread
      split at hread
      · cases hread
      · cases hread
        rfl

/-- Lexemes whose operands are apart stay the lexemes of the text. -/
theorem Splits.substitute (q : Nat) (h : Splits t ls) (hapart : ls.IsChain Apart) :
    Splits (substitute q t) (ls.map (Lexeme.fixed q)) := by
  induction h with
  | nil => exact .nil
  | @blank c rest _ hc _ ih =>
      have hne : c ≠ 'n' := by
        rintro rfl
        cases hc
      rw [substitute_cons_of_ne hne]
      exact .blank hc (ih hapart)
  | @lexeme l rest ls hlong hrest ih =>
      obtain ⟨hnext, hapart⟩ := List.isChain_cons.1 hapart
      rw [substitute_append, substitute_toText hlong.1, List.map_cons]
      refine .lexeme (hlong.fixed q ?_) (ih hapart)
      rintro digits rfl hn
      cases hnext _ (hrest.head?_eq_quantity hn) rfl

/-- Binding the quantity is substituting it: whatever is an expression stays one with the digits of
a number in place of every `n`, if it does not get too long, and for every quantity its outcome is
that of the expression for the number. -/
theorem compile_substitute {c : Compiled} (h : compile s = .ok c) (q : Nat)
    (hlength : (substitute q s).length ≤ maxLength) :
    ∃ d, compile (substitute q s) = .ok d ∧ ∀ m : Int, d.evaluate m = c.evaluate q := by
  obtain ⟨-, ls, n, hsplits, hderived, hn⟩ := grammatical_of_compile h
  have hgrammatical : Grammatical (substitute q s) (c.tree.fixed q) :=
    ⟨hlength, _, n, hsplits.substitute q hderived.isPhrase.apart, hderived.fixed q, hn⟩
  exact ⟨_, compile_of_grammatical hgrammatical, fun m => Expr.evaluate_fixed q m c.tree⟩

/-- The number comes to stand beside operators, blanks and parentheses, and the division by zero
that the expression comes upon stays one. -/
theorem compile_substitute_dozen :
    ∃ c, compile "n%10 ==2&&!(n<1) ? 24/(n-12) : n".toList = .ok c ∧
      c.evaluate 12 = .error (.divisionByZero .div "24".toList) ∧
      substitute 12 "n%10 ==2&&!(n<1) ? 24/(n-12) : n".toList =
        "12%10 ==2&&!(12<1) ? 24/(12-12) : 12".toList ∧
      ∃ d, compile (substitute 12 "n%10 ==2&&!(n<1) ? 24/(n-12) : n".toList) = .ok d ∧
        ∀ m : Int, d.evaluate m = .error (.divisionByZero .div "24".toList) := by
  have hcompile : compile "n%10 ==2&&!(n<1) ? 24/(n-12) : n".toList =
      .ok ⟨"n%10 ==2&&!(n<1) ? 24/(n-12) : n".toList, .conditional
        (.binary .and (.binary .eq (.binary .mod .quantity (.number 10)) (.number 2))
          (.negation (.binary .lt .quantity (.number 1))))
        (.binary .div (.number 24) (.binary .sub .quantity (.number 12))) .quantity⟩ := by
    cbv
  have htext : substitute 12 "n%10 ==2&&!(n<1) ? 24/(n-12) : n".toList =
      "12%10 ==2&&!(12<1) ? 24/(12-12) : 12".toList := by
    decide
  obtain ⟨d, hd, hsame⟩ := compile_substitute hcompile 12 (by rw [htext]; decide)
  exact ⟨_, hcompile, rfl, htext, d, hd, hsame⟩

end Texts

end Plural
end Phrasebook
