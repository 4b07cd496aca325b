import Phrasebook.Plural.Parse
import Phrasebook.Proofs.Number.Reading

/-!
# Splitting into lexemes

The text of a plural expression is split by longest match into blanks and lexemes.

**Relation.**  `Splits t ls` says so without an algorithm: every lexeme is the longest one that
fits at its place.  A number fits as a run of ASCII digits, the quantity only in front of a
character that cannot go on a word.
**Results.**
* `Lexeme.read?_eq_some_iff`: `Lexeme.read?` finds the longest lexeme.
* `Lexeme.isLongest_iff`: the next character tells whether a lexeme is the longest one.
* `splits_iff_tokensFrom`: `tokensFrom` finds the lexemes of a text.
* `standsIn_of_mem_tokensFrom`, `tokensFrom_error`: tokens and misplaced characters stand in the
  text at the positions that are given for them.
-/

namespace Phrasebook
namespace Plural

/-- Can the lexeme stand in front of the rest of a text? -/
def Lexeme.Fits (l : Lexeme) (rest : Text) : Prop :=
  match l with
  | .number digits => digits ≠ [] ∧ ∀ d ∈ digits, isAsciiDigit d = true
  | .quantity => ∀ c ∈ rest.head?, isWordChar c = false
  | _ => True

/-- Is the lexeme the longest one that fits where it stands? -/
def Lexeme.IsLongest (l : Lexeme) (rest : Text) : Prop :=
  l.Fits rest ∧
    ∀ m left, Lexeme.Fits m left → m.toText ++ left = l.toText ++ rest →
      m.toText.length ≤ l.toText.length

/-- The lexemes of a text, split by longest match; blanks say nothing. -/
inductive Splits : Text → List Lexeme → Prop
  | nil : Splits [] []
  | blank {c : Char} {rest : Text} {ls : List Lexeme} :
      isBlank c = true → Splits rest ls → Splits (c :: rest) ls
  | lexeme {l : Lexeme} {rest : Text} {ls : List Lexeme} :
      l.IsLongest rest → Splits rest ls → Splits (l.toText ++ rest) (l :: ls)

section Longest

theorem Lexeme.length_toText_pos {l : Lexeme} {rest : Text} (h : l.Fits rest) :
    0 < l.toText.length := by
  cases l with
  | number digits => exact List.length_pos_iff.2 h.1
  | binary op => cases op <;> simp [Lexeme.toText, BinaryOp.toText]
  | _ => simp [Lexeme.toText]

theorem Lexeme.fits_of_read? {c : Char} {rest left : Text} {l : Lexeme}
    (h : Lexeme.read? c rest = some (l, left)) : l.Fits left := by
  unfold Lexeme.read? at h
  split at h
  · rename_i hc
    cases h
    refine ⟨by simp, fun d hd => ?_⟩
    rcases List.mem_cons.1 hd with rfl | hd
    · exact hc
    · exact List.all_eq_true.1 List.all_takeWhile d hd
  · split at h
    · split at h
      · cases h
      · rename_i hany
        cases h
        intro d hd
        rw [Option.mem_def] at hd
        simpa [hd] using hany
    · unfold Lexeme.ofSymbol? at h
      split at h <;> first
        | (cases h; trivial)
        | cases h

/-- A run of digits at the head of a text is part of the number that is read there. -/
theorem length_le_of_digits {c : Char} {rest left digits : Text}
    (hd : ∀ d ∈ digits, isAsciiDigit d = true) (he : digits ++ left = c :: rest)
    (hc : isAsciiDigit c = true) :
    digits.length ≤ (c :: rest.takeWhile isAsciiDigit).length := by
  have hrun : (c :: rest).takeWhile isAsciiDigit = digits ++ left.takeWhile isAsciiDigit := by
    rw [← he, List.takeWhile_append_of_pos hd]
  rw [List.takeWhile_cons_of_pos hc] at hrun
  rw [hrun, List.length_append]
  exact Nat.le_add_right _ _

/-- Any lexeme that fits at the head of a text is at most as long as the one that is read. -/
theorem Lexeme.length_le_of_read? {c : Char} {rest left other : Text} {l m : Lexeme}
    (h : Lexeme.read? c rest = some (l, left)) (hm : m.Fits other)
    (he : m.toText ++ other = c :: rest) : m.toText.length ≤ l.toText.length := by
  have hpos := Lexeme.length_toText_pos (Lexeme.fits_of_read? h)
  cases m with
  | number digits =>
      have hc : isAsciiDigit c = true := by
        cases digits with
        | nil => exact absurd rfl hm.1
        | cons d ds =>
            have hdc : d = c := (List.cons.inj he).1
            exact hdc ▸ hm.2 d (List.mem_cons_self ..)
      have hlen := length_le_of_digits hm.2 he hc
      simp only [Lexeme.read?, hc, if_true, Option.some.injEq, Prod.mk.injEq] at h
      rw [← h.1]
      exact hlen
  | binary op =>
      cases op
      case or | and | eq | ne | le | ge =>
        obtain ⟨rfl, rfl⟩ := List.cons.inj he
        cases h
        exact Nat.le_refl _
      all_goals exact hpos
  | _ => exact hpos

/-- Behind the longest run of digits stands no digit. -/
theorem Lexeme.IsLongest.head_not_digit {digits rest : Text}
    (h : (Lexeme.number digits).IsLongest rest) : ∀ c ∈ rest.head?, isAsciiDigit c = false := by
  intro c hc
  cases rest with
  | nil => cases hc
  | cons d left =>
      obtain rfl : d = c := Option.some.inj hc
      refine Bool.eq_false_iff.2 fun hd => ?_
      have hlonger : (Lexeme.number (digits ++ [d])).Fits left := by
        refine ⟨by simp, fun x hx => ?_⟩
        rcases List.mem_append.1 hx with hx | hx
        · exact h.1.2 x hx
        · exact List.mem_singleton.1 hx ▸ hd
      have hlen := h.2 _ left hlonger (by simp [Lexeme.toText])
      simp only [Lexeme.toText, List.length_append, List.length_singleton] at hlen
      omega

theorem takeWhile_digits {digits rest : Text} (hd : ∀ d ∈ digits, isAsciiDigit d = true)
    (hr : ∀ c ∈ rest.head?, isAsciiDigit c = false) :
    (digits ++ rest).takeWhile isAsciiDigit = digits ∧
      (digits ++ rest).dropWhile isAsciiDigit = rest := by
  rw [List.takeWhile_append_of_pos hd, List.dropWhile_append_of_pos hd]
  cases rest with
  | nil => simp
  | cons c left => simp [hr c rfl]

/-- An operator of one character is not continued to one of two characters. -/
theorem Lexeme.IsLongest.not_equals {l m : Lexeme} {left : Text} (h : l.IsLongest ('=' :: left))
    (hm : m.Fits left) (he : m.toText = l.toText ++ ['=']) : False := by
  have hlen := h.2 m left hm (by rw [he]; simp)
  simp only [he, List.length_append, List.length_singleton] at hlen
  omega

/-- Three operators of one character could go on with an equals sign. -/
theorem Lexeme.ofSymbol?_alone {left : Text} (h : left.head? ≠ some '=') :
    Lexeme.ofSymbol? '!' left = some (.negation, left) ∧
      Lexeme.ofSymbol? '<' left = some (.binary .lt, left) ∧
      Lexeme.ofSymbol? '>' left = some (.binary .gt, left) := by
  refine ⟨?_, ?_, ?_⟩ <;> unfold Lexeme.ofSymbol? <;> split <;> simp_all

/-- Does no character behind the lexeme make it longer? -/
def Lexeme.EndsBefore (l : Lexeme) (rest : Text) : Prop :=
  match l with
  | .number _ => ∀ c ∈ rest.head?, isAsciiDigit c = false
  | .negation | .binary .lt | .binary .gt => rest.head? ≠ some '='
  | _ => True

theorem Lexeme.IsLongest.endsBefore {l : Lexeme} {rest : Text} (h : l.IsLongest rest) :
    l.EndsBefore rest := by
  have halone : ∀ m : Lexeme, m.toText = l.toText ++ ['='] → m.Fits rest.tail →
      rest.head? ≠ some '=' := by
    intro m hlm hm hhead
    cases rest with
    | nil => cases hhead
    | cons d tail =>
        obtain rfl : d = '=' := Option.some.inj hhead
        exact h.not_equals hm hlm
  cases l with
  | number digits => exact h.head_not_digit
  | negation => exact halone (.binary .ne) rfl trivial
  | binary op =>
      cases op
      case lt => exact halone (.binary .le) rfl trivial
      case gt => exact halone (.binary .ge) rfl trivial
      all_goals trivial
  | _ => trivial

/-- A lexeme is read where it fits and nothing behind it makes it longer. -/
theorem Lexeme.read?_of_endsBefore {c : Char} {rest left : Text} {l : Lexeme}
    (he : l.toText ++ left = c :: rest) (hfits : l.Fits left) (hends : l.EndsBefore left) :
    Lexeme.read? c rest = some (l, left) := by
  cases l with
  | number digits =>
      cases digits with
      | nil => exact absurd rfl hfits.1
      | cons d ds =>
          obtain ⟨rfl, rfl⟩ := List.cons.inj he
          have hds := takeWhile_digits
            (fun x hx => hfits.2 x (List.mem_cons_of_mem _ hx)) hends
          simp [Lexeme.read?, hfits.2 d (List.mem_cons_self ..), hds.1, hds.2]
  | quantity =>
      obtain ⟨rfl, rfl⟩ := List.cons.inj he
      have hany : left.head?.any isWordChar = false := by
        rw [Option.any_eq_false]
        exact fun c hc => by simp [hfits c hc]
      simp [Lexeme.read?, isAsciiDigit, hany]
  | openParen | closeParen | question | colon =>
      obtain ⟨rfl, rfl⟩ := List.cons.inj he
      rfl
  | negation =>
      obtain ⟨rfl, rfl⟩ := List.cons.inj he
      exact (ofSymbol?_alone hends).1
  | binary op =>
      cases op
      case lt =>
        obtain ⟨rfl, rfl⟩ := List.cons.inj he
        exact (ofSymbol?_alone hends).2.1
      case gt =>
        obtain ⟨rfl, rfl⟩ := List.cons.inj he
        exact (ofSymbol?_alone hends).2.2
      all_goals
        obtain ⟨rfl, rfl⟩ := List.cons.inj he
        rfl

/-- The lexeme that is read is the longest one that fits. -/
theorem Lexeme.read?_eq_some_iff {c : Char} {rest left : Text} {l : Lexeme} :
    Lexeme.read? c rest = some (l, left) ↔ l.toText ++ left = c :: rest ∧ l.IsLongest left := by
  constructor
  · intro h
    refine ⟨Lexeme.read?_append h, Lexeme.fits_of_read? h, fun m other hm he => ?_⟩
    exact Lexeme.length_le_of_read? h hm (he.trans (Lexeme.read?_append h))
  · rintro ⟨he, h⟩
    exact Lexeme.read?_of_endsBefore he h.1 h.endsBefore

/-- A lexeme that fits is the longest one if nothing behind it makes it longer. -/
theorem Lexeme.isLongest_iff {l : Lexeme} {rest : Text} :
    l.IsLongest rest ↔ l.Fits rest ∧ l.EndsBefore rest := by
  constructor
  · exact fun h => ⟨h.1, h.endsBefore⟩
  · rintro ⟨hfits, hends⟩
    obtain ⟨c, cs, htext⟩ := List.exists_cons_of_length_pos (Lexeme.length_toText_pos hfits)
    have he : l.toText ++ rest = c :: (cs ++ rest) := by rw [htext]; rfl
    exact (Lexeme.read?_eq_some_iff.1 (Lexeme.read?_of_endsBefore he hfits hends)).2

end Longest

section Splitting

/-- No lexeme begins with a blank. -/
theorem isBlank_of_read? {c : Char} {rest left : Text} {l : Lexeme}
    (h : Lexeme.read? c rest = some (l, left)) : isBlank c = false := by
  unfold Lexeme.read? at h
  split at h
  · rename_i hc
    exact isBlank_of_isAsciiDigit hc
  · split at h
    · rename_i hn
      subst hn
      decide
    · unfold Lexeme.ofSymbol? at h
      split at h <;> first
        | decide
        | cases h

theorem tokensFrom_blank {c : Char} (total : Nat) (rest : Text) (h : isBlank c = true) :
    tokensFrom total (c :: rest) = tokensFrom total rest := by
  rw [tokensFrom]
  simp [h]

theorem tokensFrom_lexeme {c : Char} {rest left : Text} {l : Lexeme} (total : Nat)
    (h : Lexeme.read? c rest = some (l, left)) :
    tokensFrom total (c :: rest) =
      (tokensFrom total left).map (⟨l, total - (rest.length + 1)⟩ :: ·) := by
  rw [tokensFrom]
  simp only [isBlank_of_read? h, Bool.false_eq_true, if_false]
  split
  · rename_i hnone
    rw [h] at hnone
    cases hnone
  · rename_i hsome
    rw [h] at hsome
    cases hsome
    rfl

/-- The lexemes of the tokens are what the text is split into. -/
theorem splits_of_tokensFrom {total : Nat} {t : Text} {tokens : List Token}
    (h : tokensFrom total t = .ok tokens) : Splits t (tokens.map Token.lexeme) := by
  fun_induction tokensFrom total t generalizing tokens with
  | case1 =>
      cases h
      exact .nil
  | case2 c rest hc ih => exact .blank hc (ih h)
  | case3 c rest hc hnone => cases h
  | case4 c rest hc l left hread ih =>
      cases hrest : tokensFrom total left with
      | error e =>
          rw [hrest] at h
          cases h
      | ok others =>
          rw [hrest] at h
          cases h
          obtain ⟨he, hlong⟩ := Lexeme.read?_eq_some_iff.1 hread
          rw [← he]
          exact .lexeme hlong (ih hrest)

theorem tokensFrom_of_splits {t : Text} {ls : List Lexeme} (total : Nat) (h : Splits t ls) :
    ∃ tokens, tokensFrom total t = .ok tokens ∧ tokens.map Token.lexeme = ls := by
  induction h with
  | nil => exact ⟨[], by rw [tokensFrom], rfl⟩
  | blank hc _ ih =>
      rw [tokensFrom_blank total _ hc]
      exact ih
  | @lexeme l rest ls hlong _ ih =>
      obtain ⟨tokens, htokens, hls⟩ := ih
      cases htext : l.toText with
      | nil =>
          have hpos := Lexeme.length_toText_pos hlong.1
          rw [htext] at hpos
          exact absurd hpos (Nat.lt_irrefl 0)
      | cons c cs =>
          have he : l.toText ++ rest = c :: (cs ++ rest) := by rw [htext]; rfl
          have hread := Lexeme.read?_eq_some_iff.2 ⟨he, hlong⟩
          refine ⟨⟨l, total - ((cs ++ rest).length + 1)⟩ :: tokens, ?_, by simp [hls]⟩
          rw [List.cons_append, tokensFrom_lexeme total hread, htokens]
          rfl

/-- A text has tokens exactly if it can be split. -/
theorem splits_iff_tokensFrom (total : Nat) {t : Text} {ls : List Lexeme} :
    Splits t ls ↔ ∃ tokens, tokensFrom total t = .ok tokens ∧ tokens.map Token.lexeme = ls := by
  constructor
  · exact tokensFrom_of_splits total
  · rintro ⟨tokens, htokens, rfl⟩
    exact splits_of_tokensFrom htokens

/-- A text is split in one way only. -/
theorem Splits.unique {t : Text} {ls ms : List Lexeme} (h : Splits t ls) (h' : Splits t ms) :
    ls = ms := by
  obtain ⟨tokens, htokens, rfl⟩ := tokensFrom_of_splits 0 h
  obtain ⟨tokens', htokens', rfl⟩ := tokensFrom_of_splits 0 h'
  rw [htokens] at htokens'
  cases htokens'
  rfl

end Splitting

section Positions

/-- Does a token stand in the source where it says? -/
def Token.StandsIn (token : Token) (source : Text) : Prop :=
  token.position < source.length ∧ token.lexeme.toText <+: source.drop token.position

/-- Every token stands where it says. -/
theorem standsIn_of_mem_tokensFrom {source t : Text} {tokens : List Token} {token : Token}
    (hs : t <:+ source) (h : tokensFrom source.length t = .ok tokens)
    (hm : token ∈ tokens) : token.StandsIn source := by
  fun_induction tokensFrom source.length t generalizing tokens with
  | case1 =>
      cases h
      cases hm
  | case2 c rest hc ih => exact ih ((List.suffix_cons c rest).trans hs) h hm
  | case3 c rest hc hnone => cases h
  | case4 c rest hc l left hread ih =>
      have he := Lexeme.read?_append hread
      cases hrest : tokensFrom source.length left with
      | error e =>
          rw [hrest] at h
          cases h
      | ok others =>
          rw [hrest] at h
          cases h
          rcases List.mem_cons.1 hm with rfl | hm
          · have hlen := hs.length_le
            have hdrop := List.suffix_iff_eq_drop.1 hs
            rw [List.length_cons] at hlen hdrop
            refine ⟨by simp only; omega, ?_⟩
            rw [← hdrop, ← he]
            exact List.prefix_append ..
          · exact ih (List.IsSuffix.trans ⟨l.toText, he⟩ hs) hrest hm

/-- The character that has no place in an expression stands where the fault says. -/
theorem tokensFrom_error {source t : Text} {fault : SyntaxFault} (hs : t <:+ source)
    (h : tokensFrom source.length t = .error fault) :
    ∃ c position, fault = .invalidCharacter c position ∧ source[position]? = some c := by
  fun_induction tokensFrom source.length t with
  | case1 => cases h
  | case2 c rest hc ih => exact ih ((List.suffix_cons c rest).trans hs) h
  | case3 c rest hc hnone =>
      cases h
      refine ⟨c, _, rfl, ?_⟩
      have hhead := congrArg List.head? (List.suffix_iff_eq_drop.1 hs)
      rw [List.head?_drop] at hhead
      exact hhead.symm
  | case4 c rest hc l left hread ih =>
      have he := Lexeme.read?_append hread
      cases hrest : tokensFrom source.length left with
      | error e =>
          rw [hrest] at h
          cases h
          exact ih (List.IsSuffix.trans ⟨l.toText, he⟩ hs) hrest
      | ok others =>
          rw [hrest] at h
          cases h

end Positions

end Plural
end Phrasebook
