import Phrasebook.Proofs.Outcome
import Phrasebook.Proofs.Plural.Grammar
import Phrasebook.Proofs.Plural.Lexing

/-!
# Reading follows the grammar

A text is read as a plural expression exactly if it is one.

**Soundness.**  `Goal.parse_sound`: what a goal reads is derived by the grammar, nested no
deeper than there is room for.
**Termination.**  `Goal.parse_of_steps`: every part of a reading takes a token, so that a number of
steps that grows with the tokens suffices, and more of them change nothing.
**Completeness.**  `Derives.completes`: what is derived is read, and `4 * tokens.length + 5`
steps suffice.  The levels group to the left, so that the operand of a level is read as the
beginning of a longer chain; the invariant speaks of the result of that chain.
**Faults.**  `Goal.parse_blames`: a reading that fails names only tokens that it was given.
**Result.**  `compile_eq_ok_iff` states all this of texts.
-/

namespace Phrasebook
namespace Plural

section Steps

-- The equations of a goal are made once, before the many proofs that rewrite with them.
attribute [local simp] Goal.parse

variable {fuel room : Nat} {tokens rest : List Token} {e : Expr}

/-- What reading an expression can do. -/
theorem Goal.parse_expression_ok
    (h : Goal.parse (fuel + 1) .expression room tokens = .ok (e, rest)) :
    ∃ test middle, Goal.parse fuel (.level 1) room tokens = .ok (test, middle) ∧
      ((e = test ∧ rest = middle) ∨
        ∃ p q inner front behind x y,
          middle = ⟨.question, p⟩ :: front ∧
          room = inner + 1 ∧
          Goal.parse fuel .expression inner front = .ok (x, ⟨.colon, q⟩ :: behind) ∧
          Goal.parse fuel .expression inner behind = .ok (y, rest) ∧
          e = .conditional test x y) := by
  rw [Goal.parse, bind_eq_ok_iff] at h
  obtain ⟨⟨test, middle⟩, htest, h⟩ := h
  refine ⟨test, middle, htest, ?_⟩
  dsimp only at h
  split at h
  · rename_i p front
    obtain ⟨inner, hroom, h⟩ := bind_eq_ok_iff.1 h
    obtain ⟨⟨x, colon⟩, hx, h⟩ := bind_eq_ok_iff.1 h
    dsimp only at h
    split at h
    · rename_i q behind
      obtain ⟨⟨y, left⟩, hy, h⟩ := bind_eq_ok_iff.1 h
      cases h
      cases room with
      | zero => cases hroom
      | succ less =>
          cases hroom
          exact .inr ⟨p, q, _, front, behind, x, y, rfl, rfl, hx, hy, rfl⟩
    · cases h
  · cases h
    exact .inl ⟨rfl, rfl⟩

/-- What reading a level can do. -/
theorem Goal.parse_level_ok {min : Nat}
    (h : Goal.parse (fuel + 1) (.level min) room tokens = .ok (e, rest)) :
    ∃ left middle, Goal.parse fuel .unary room tokens = .ok (left, middle) ∧
      Goal.parse fuel (.chain min left) room middle = .ok (e, rest) := by
  rw [Goal.parse, bind_eq_ok_iff] at h
  obtain ⟨⟨left, middle⟩, hleft, h⟩ := h
  exact ⟨left, middle, hleft, h⟩

/-- Do the tokens begin with no operator of the given level or a tighter one? -/
def Stops (min : Nat) (tokens : List Token) : Prop :=
  ∀ token ∈ tokens.head?, ∀ op, token.lexeme = .binary op → op.level < min

/-- What reading a chain can do. -/
theorem Goal.parse_chain_ok {min : Nat} {left : Expr}
    (h : Goal.parse (fuel + 1) (.chain min left) room tokens = .ok (e, rest)) :
    (e = left ∧ rest = tokens ∧ Stops min tokens) ∨
      ∃ op p front behind right,
        tokens = ⟨.binary op, p⟩ :: front ∧
        min ≤ op.level ∧
        Goal.parse fuel (.level (op.level + 1)) room front = .ok (right, behind) ∧
        Goal.parse fuel (.chain min (.binary op left right)) room behind = .ok (e, rest) := by
  unfold Goal.parse at h
  dsimp only at h
  split at h
  · rename_i op p front
    split at h
    · rename_i hlt
      cases h
      refine .inl ⟨rfl, rfl, ?_⟩
      intro token ht op' hop
      cases ht
      cases hop
      exact hlt
    · rename_i hge
      obtain ⟨⟨right, behind⟩, hright, h⟩ := bind_eq_ok_iff.1 h
      exact .inr ⟨op, p, front, behind, right, rfl, Nat.le_of_not_lt hge, hright, h⟩
  · rename_i hne
    cases h
    refine .inl ⟨rfl, rfl, ?_⟩
    intro token ht op hop
    cases tokens with
    | nil => cases ht
    | cons first others =>
        obtain rfl : first = token := Option.some.inj ht
        obtain ⟨lexeme, p⟩ := first
        cases hop
        exact absurd rfl (hne op p others)

/-- What reading an operand can do. -/
theorem Goal.parse_unary_ok
    (h : Goal.parse (fuel + 1) .unary room tokens = .ok (e, rest)) :
    (∃ p inner front operand, tokens = ⟨.negation, p⟩ :: front ∧ room = inner + 1 ∧
      Goal.parse fuel .unary inner front = .ok (operand, rest) ∧ e = .negation operand) ∨
      Goal.parse fuel .primary room tokens = .ok (e, rest) := by
  unfold Goal.parse at h
  dsimp only at h
  split at h
  · rename_i p front
    obtain ⟨inner, hroom, h⟩ := bind_eq_ok_iff.1 h
    obtain ⟨⟨operand, left⟩, hoperand, h⟩ := bind_eq_ok_iff.1 h
    cases h
    cases room with
    | zero => cases hroom
    | succ less =>
        cases hroom
        exact .inl ⟨p, _, front, operand, rfl, rfl, hoperand, rfl⟩
  · exact .inr h

/-- What reading the tightest part of an expression can do. -/
theorem Goal.parse_primary_ok
    (h : Goal.parse (fuel + 1) .primary room tokens = .ok (e, rest)) :
    (∃ p digits, tokens = ⟨.number digits, p⟩ :: rest ∧
      e = .number (Nat.ofDigitChars 10 digits 0)) ∨
      (∃ p, tokens = ⟨.quantity, p⟩ :: rest ∧ e = .quantity) ∨
      ∃ p q inner front, tokens = ⟨.openParen, p⟩ :: front ∧ room = inner + 1 ∧
        Goal.parse fuel .expression inner front = .ok (e, ⟨.closeParen, q⟩ :: rest) := by
  unfold Goal.parse at h
  dsimp only at h
  split at h
  · cases h
  · rename_i digits p front
    cases h
    exact .inl ⟨p, digits, rfl, rfl⟩
  · rename_i p front
    cases h
    exact .inr (.inl ⟨p, rfl, rfl⟩)
  · rename_i p front
    obtain ⟨inner, hroom, h⟩ := bind_eq_ok_iff.1 h
    obtain ⟨⟨x, close⟩, hx, h⟩ := bind_eq_ok_iff.1 h
    dsimp only at h
    split at h
    · rename_i q behind
      cases h
      cases room with
      | zero => cases hroom
      | succ less =>
          cases hroom
          exact .inr (.inr ⟨p, q, _, front, rfl, rfl, hx⟩)
    · cases h
  · cases h

theorem Goal.parse_condition {test : Expr} (hr : rest.head?.map Token.lexeme ≠ some .question)
    (htest : Goal.parse fuel (.level 1) room tokens = .ok (test, rest)) :
    Goal.parse (fuel + 1) .expression room tokens = .ok (test, rest) := by
  rw [Goal.parse, htest, ok_bind]
  dsimp only
  split
  · exact absurd rfl hr
  · rfl

theorem Goal.parse_conditional {front behind : List Token} {test x y : Expr} {p q : Nat}
    (htest : Goal.parse fuel (.level 1) (room + 1) tokens = .ok (test, ⟨.question, p⟩ :: front))
    (hx : Goal.parse fuel .expression room front = .ok (x, ⟨.colon, q⟩ :: behind))
    (hy : Goal.parse fuel .expression room behind = .ok (y, rest)) :
    Goal.parse (fuel + 1) .expression (room + 1) tokens = .ok (.conditional test x y, rest) := by
  rw [Goal.parse, htest]
  simp only [ok_bind, deeper, hx, hy]
  rfl

theorem Goal.parse_chain_end {min : Nat} {left : Expr} (h : Stops min rest) :
    Goal.parse (fuel + 1) (.chain min left) room rest = .ok (left, rest) := by
  unfold Goal.parse
  dsimp only
  split
  · rename_i op p front
    rw [if_pos (h _ rfl op rfl)]
  · rfl

theorem Goal.parse_chain_step {min : Nat} {op : BinaryOp} {front behind : List Token}
    {left right : Expr} {p : Nat} (hop : min ≤ op.level)
    (hright : Goal.parse fuel (.level (op.level + 1)) room front = .ok (right, behind)) :
    Goal.parse (fuel + 1) (.chain min left) room (⟨.binary op, p⟩ :: front) =
      Goal.parse fuel (.chain min (.binary op left right)) room behind := by
  rw [Goal.parse, if_neg (Nat.not_lt.2 hop), hright, ok_bind]

theorem Goal.parse_negation {operand : Expr} {p : Nat}
    (h : Goal.parse fuel .unary room tokens = .ok (operand, rest)) :
    Goal.parse (fuel + 1) .unary (room + 1) (⟨.negation, p⟩ :: tokens) =
      .ok (.negation operand, rest) := by
  rw [Goal.parse]
  simp only [deeper, ok_bind, h]
  rfl

theorem Goal.parse_atom (ht : tokens.head?.map Token.lexeme ≠ some .negation)
    (h : Goal.parse fuel .primary room tokens = .ok (e, rest)) :
    Goal.parse (fuel + 1) .unary room tokens = .ok (e, rest) := by
  unfold Goal.parse
  dsimp only
  split
  · exact absurd rfl ht
  · exact h

theorem Goal.parse_parens {p q : Nat}
    (h : Goal.parse fuel .expression room tokens = .ok (e, ⟨.closeParen, q⟩ :: rest)) :
    Goal.parse (fuel + 1) .primary (room + 1) (⟨.openParen, p⟩ :: tokens) = .ok (e, rest) := by
  rw [Goal.parse]
  simp only [deeper, ok_bind, h]
  rfl

end Steps

section Soundness

/-- Are the tokens in front of the rest derived, nested no deeper than there is room for? -/
def Reads (c : Category) (room : Nat) (tokens : List Token) (e : Expr) (rest : List Token) : Prop :=
  ∃ used n, tokens = used ++ rest ∧ Derives c (used.map Token.lexeme) e n ∧ n ≤ room

/-- What the result of a goal means.  A chain goes on with an operand that was derived at a
level from `min` on, and no operator that binds more tightly than that level follows it. -/
def Goal.Sound (room : Nat) (tokens : List Token) (e : Expr) (rest : List Token) : Goal → Prop
  | .expression => Reads .expression room tokens e rest
  | .level min => min ≤ 7 → Reads (.level min) room tokens e rest ∧ Stops min rest
  | .chain min left =>
      ∀ k front n, min ≤ k → k ≤ 7 → Derives (.level k) front left n → n ≤ room →
        Stops (k + 1) tokens →
        ∃ used i, tokens = used ++ rest ∧
          Derives (.level min) (front ++ used.map Token.lexeme) e i ∧ i ≤ room ∧ Stops min rest
  | .unary => Reads .unary room tokens e rest
  | .primary => Reads .primary room tokens e rest

theorem stops_seven (tokens : List Token) : Stops 7 tokens := by
  intro token _ op _
  have := (level_le op).2
  omega

theorem Stops.mono {j k : Nat} {tokens : List Token} (h : Stops j tokens) (hjk : j ≤ k) :
    Stops k tokens :=
  fun token ht op hop => Nat.lt_of_lt_of_le (h token ht op hop) hjk

/-- What a goal reads is what the grammar derives. -/
theorem Goal.parse_sound {fuel room : Nat} {goal : Goal} {tokens rest : List Token} {e : Expr}
    (h : goal.parse fuel room tokens = .ok (e, rest)) : goal.Sound room tokens e rest := by
  induction fuel generalizing room goal tokens rest e with
  | zero => cases h
  | succ fuel ih =>
      cases goal with
      | expression =>
          obtain ⟨test, middle, htest, hcase⟩ := Goal.parse_expression_ok h
          obtain ⟨⟨used, n, rfl, hderived, hn⟩, -⟩ := ih htest (by decide)
          rcases hcase with ⟨rfl, rfl⟩ | ⟨p, q, inner, front, behind, x, y, rfl, rfl, hx, hy, rfl⟩
          · exact ⟨used, n, rfl, .condition hderived, hn⟩
          · obtain ⟨usedx, i, rfl, dx, hi⟩ := ih hx
            obtain ⟨usedy, j, rfl, dy, hj⟩ := ih hy
            refine ⟨used ++ ⟨.question, p⟩ :: usedx ++ ⟨.colon, q⟩ :: usedy,
              max n (max i j + 1), by simp, ?_, by omega⟩
            simp only [List.map_append, List.map_cons]
            exact .conditional hderived dx dy
      | level min =>
          obtain ⟨left, middle, hleft, hchain⟩ := Goal.parse_level_ok h
          intro hmin
          obtain ⟨used, n, rfl, hleft, hn⟩ := ih hleft
          obtain ⟨more, i, rfl, he, hi, hstops⟩ :=
            ih hchain 7 _ n hmin (Nat.le_refl 7) (.operand hleft) hn
              ((stops_seven middle).mono (by decide))
          exact ⟨⟨used ++ more, i, by simp, by simpa using he, hi⟩, hstops⟩
      | chain min left =>
          intro k front n hmin hk hleft hn hstops
          rcases Goal.parse_chain_ok h with
            ⟨rfl, rfl, hstop⟩ | ⟨op, p, before, behind, right, rfl, hop, hright, hchain⟩
          · exact ⟨[], n, rfl, by simpa using hleft.loosen hk hmin, hn, hstop⟩
          · have hle : op.level ≤ k := Nat.lt_succ_iff.1 (hstops _ rfl op rfl)
            have h6 := (level_le op).2
            obtain ⟨⟨used, i, rfl, hright, hi⟩, hnext⟩ := ih hright (by omega)
            obtain ⟨more, j, rfl, he, hj, hstop⟩ :=
              ih hchain op.level _ _ hop (by omega)
                (.binary (hleft.loosen hk hle) hright) (by omega) hnext
            exact ⟨⟨.binary op, p⟩ :: used ++ more, j, by simp, by simpa using he, hj, hstop⟩
      | unary =>
          rcases Goal.parse_unary_ok h with
            ⟨p, inner, front, operand, rfl, rfl, hoperand, rfl⟩ | hprimary
          · obtain ⟨used, n, rfl, hoperand, hn⟩ := ih hoperand
            exact ⟨⟨.negation, p⟩ :: used, n + 1, rfl, .negation hoperand, by omega⟩
          · obtain ⟨used, n, rfl, hprimary, hn⟩ := ih hprimary
            exact ⟨used, n, rfl, .atom hprimary, hn⟩
      | primary =>
          rcases Goal.parse_primary_ok h with
            ⟨p, digits, rfl, rfl⟩ | ⟨p, rfl, rfl⟩ | ⟨p, q, inner, front, rfl, rfl, hinner⟩
          · exact ⟨[⟨.number digits, p⟩], 0, rfl, .number digits, Nat.zero_le _⟩
          · exact ⟨[⟨.quantity, p⟩], 0, rfl, .quantity, Nat.zero_le _⟩
          · obtain ⟨used, n, rfl, hinner, hn⟩ := ih hinner
            refine ⟨⟨.openParen, p⟩ :: used ++ [⟨.closeParen, q⟩], n + 1, by simp, ?_, by omega⟩
            simp only [List.map_append, List.map_cons, List.map_nil]
            exact .parens hinner

end Soundness

section Termination

theorem Reads.length_lt {c : Category} {room : Nat} {tokens rest : List Token} {e : Expr}
    (h : Reads c room tokens e rest) : rest.length < tokens.length := by
  obtain ⟨used, n, rfl, hderived, -⟩ := h
  have hused : used ≠ [] := by
    rintro rfl
    exact hderived.ne_nil rfl
  have hpos := List.length_pos_iff.2 hused
  rw [List.length_append]
  omega

/-- How many steps suffice to reach a goal. -/
def Goal.steps (tokens : List Token) : Goal → Nat
  | .expression => 4 * tokens.length + 5
  | .level _ => 4 * tokens.length + 4
  | .unary => 4 * tokens.length + 3
  | .chain _ _ | .primary => 4 * tokens.length + 2

/-- One more step than suffices changes nothing: every part of a reading takes a token. -/
theorem Goal.parse_succ {fuel : Nat} (goal : Goal) (room : Nat) {tokens : List Token}
    (h : goal.steps tokens ≤ fuel) :
    goal.parse (fuel + 1) room tokens = goal.parse fuel room tokens := by
  induction fuel generalizing goal room tokens with
  | zero => cases goal <;> cases h
  | succ fuel ih =>
      cases goal with
      | expression =>
          have hsteps : 4 * tokens.length + 4 ≤ fuel := Nat.le_of_succ_le_succ h
          rw [Goal.parse, Goal.parse, ih (.level 1) room hsteps]
          refine bind_congr_ok fun ⟨test, middle⟩ htest => ?_
          have hmiddle := ((Goal.parse_sound htest) (by decide)).1.length_lt
          dsimp only
          split
          · rename_i p front
            rw [List.length_cons] at hmiddle
            have hfront : 4 * front.length + 5 ≤ fuel := by omega
            refine bind_congr_ok fun inner _ => ?_
            rw [ih .expression inner hfront]
            refine bind_congr_ok fun ⟨x, left⟩ hx => ?_
            have hleft := (Goal.parse_sound hx).length_lt
            dsimp only
            split
            · rename_i q behind
              rw [List.length_cons] at hleft
              have hbehind : 4 * behind.length + 5 ≤ fuel := by omega
              rw [ih .expression inner hbehind]
            · rfl
          · rfl
      | level min =>
          have hsteps : 4 * tokens.length + 3 ≤ fuel := Nat.le_of_succ_le_succ h
          rw [Goal.parse, Goal.parse, ih .unary room hsteps]
          refine bind_congr_ok fun ⟨left, middle⟩ hleft => ?_
          have hmiddle := (Goal.parse_sound hleft).length_lt
          have hchain : 4 * middle.length + 2 ≤ fuel := by omega
          exact ih (.chain min left) room hchain
      | chain min left =>
          unfold Goal.parse
          dsimp only
          split
          · rename_i op p front
            have hsteps : 4 * (front.length + 1) + 1 ≤ fuel := Nat.le_of_succ_le_succ h
            have hfront : 4 * front.length + 4 ≤ fuel := by omega
            split
            · rfl
            · rw [ih (.level (op.level + 1)) room hfront]
              refine bind_congr_ok fun ⟨right, behind⟩ hright => ?_
              have h6 := (level_le op).2
              have hbehind := ((Goal.parse_sound hright) (by omega)).1.length_lt
              have hchain : 4 * behind.length + 2 ≤ fuel := by omega
              exact ih (.chain min (.binary op left right)) room hchain
          · rfl
      | unary =>
          unfold Goal.parse
          dsimp only
          split
          · rename_i p front
            have hsteps : 4 * (front.length + 1) + 2 ≤ fuel := Nat.le_of_succ_le_succ h
            have hfront : 4 * front.length + 3 ≤ fuel := by omega
            refine bind_congr_ok fun inner _ => ?_
            rw [ih .unary inner hfront]
          · exact ih .primary room (Nat.le_of_succ_le_succ h)
      | primary =>
          unfold Goal.parse
          dsimp only
          split
          · rfl
          · rfl
          · rfl
          · rename_i p front
            have hsteps : 4 * (front.length + 1) + 1 ≤ fuel := Nat.le_of_succ_le_succ h
            have hfront : 4 * front.length + 5 ≤ fuel := by omega
            refine bind_congr_ok fun inner _ => ?_
            rw [ih .expression inner hfront]
          · rfl

/-- A reading is never cut short: no number of steps changes what those that suffice give. -/
theorem Goal.parse_of_steps {fuel : Nat} (goal : Goal) (room : Nat) {tokens : List Token}
    (h : goal.steps tokens ≤ fuel) :
    goal.parse fuel room tokens = goal.parse (goal.steps tokens) room tokens := by
  induction h with
  | refl => rfl
  | step h ih => rw [Goal.parse_succ goal room h, ih]

end Termination

section Completeness

/-- Can an expression end in front of the tokens? -/
def Ends (tokens : List Token) : Prop :=
  ∀ token ∈ tokens.head?, token.lexeme = .colon ∨ token.lexeme = .closeParen

theorem Ends.stops {tokens : List Token} (h : Ends tokens) (k : Nat) : Stops k tokens := by
  intro token ht op hop
  rcases h token ht with hc | hc <;> rw [hc] at hop <;> cases hop

theorem Ends.ne_question {tokens : List Token} (h : Ends tokens) :
    tokens.head?.map Token.lexeme ≠ some .question := by
  intro hq
  obtain ⟨token, ht, hlexeme⟩ := Option.map_eq_some_iff.1 hq
  rcases h token ht with hc | hc <;> rw [hc] at hlexeme <;> cases hlexeme

/-- What it means that tokens of a category are read completely.  An operand of a level need not
be all of what is read: the result is that of the chain behind it. -/
def Completes (room : Nat) (e : Expr) (used : List Token) : Category → Prop
  | .expression =>
      ∀ rest fuel, Ends rest → 4 * (used ++ rest).length + 5 ≤ fuel →
        Goal.parse fuel .expression room (used ++ rest) = .ok (e, rest)
  | .level k =>
      ∀ min rest result, min ≤ k → Stops (k + 1) rest →
        (∀ fuel, 4 * rest.length + 2 ≤ fuel →
          Goal.parse fuel (.chain min e) room rest = result) →
        ∀ fuel, 4 * (used ++ rest).length + 4 ≤ fuel →
          Goal.parse fuel (.level min) room (used ++ rest) = result
  | .unary =>
      ∀ rest fuel, 4 * (used ++ rest).length + 3 ≤ fuel →
        Goal.parse fuel .unary room (used ++ rest) = .ok (e, rest)
  | .primary =>
      ∀ rest fuel, 4 * (used ++ rest).length + 2 ≤ fuel →
        Goal.parse fuel .primary room (used ++ rest) = .ok (e, rest)

theorem Completes.level_end {k room : Nat} {e : Expr} {used rest : List Token} {fuel : Nat}
    (h : Completes room e used (.level k)) (hr : Stops k rest)
    (hf : 4 * (used ++ rest).length + 4 ≤ fuel) :
    Goal.parse fuel (.level k) room (used ++ rest) = .ok (e, rest) := by
  refine h k rest _ (Nat.le_refl k) (hr.mono (Nat.le_succ k)) (fun fuel hfuel => ?_) fuel hf
  obtain ⟨less, rfl⟩ : ∃ less, fuel = less + 1 := ⟨fuel - 1, by omega⟩
  exact Goal.parse_chain_end hr

theorem map_lexeme_eq_append_cons {used : List Token} {l r : List Lexeme} {x : Lexeme}
    (h : used.map Token.lexeme = l ++ x :: r) :
    ∃ (front : List Token) (p : Nat) (behind : List Token), used = front ++ Token.mk x p :: behind ∧
      front.map Token.lexeme = l ∧ behind.map Token.lexeme = r := by
  obtain ⟨front, others, rfl, hfront, hothers⟩ := List.map_eq_append_iff.1 h
  obtain ⟨⟨y, p⟩, behind, rfl, hy, hbehind⟩ := List.map_eq_cons_iff.1 hothers
  obtain rfl : y = x := hy
  exact ⟨front, p, behind, rfl, hfront, hbehind⟩

section Constructors

variable {room p q : Nat} {e x y test : Expr} {used ut ua ub ul ur : List Token}

theorem Completes.conditional (ht : Completes (room + 1) test ut (.level 1))
    (hx : Completes room x ua .expression) (hy : Completes room y ub .expression) :
    Completes (room + 1) (.conditional test x y)
      (ut ++ ⟨.question, p⟩ :: ua ++ ⟨.colon, q⟩ :: ub) .expression := by
  intro rest fuel hends hfuel
  obtain ⟨less, rfl⟩ : ∃ less, fuel = less + 1 := ⟨fuel - 1, by omega⟩
  simp only [List.append_assoc, List.cons_append, List.length_append, List.length_cons]
    at hfuel ⊢
  have hquestion : Stops 1 (⟨.question, p⟩ :: (ua ++ ⟨.colon, q⟩ :: (ub ++ rest))) := by
    intro token ht op hop
    cases ht
    cases hop
  have hcolon : Ends (⟨.colon, q⟩ :: (ub ++ rest)) := by
    intro token ht
    cases ht
    exact .inl rfl
  have htest := ht.level_end hquestion (by simp; omega : _ ≤ less)
  have hfirst := hx _ less hcolon (by simp; omega)
  have hsecond := hy rest less hends (by simp; omega)
  exact Goal.parse_conditional htest hfirst hsecond

theorem Completes.condition (h : Completes room e used (.level 1)) :
    Completes room e used .expression := by
  intro rest fuel hends hfuel
  obtain ⟨less, rfl⟩ : ∃ less, fuel = less + 1 := ⟨fuel - 1, by omega⟩
  exact Goal.parse_condition hends.ne_question (h.level_end (hends.stops 1) (by omega))

/-- The operator in front of the right operand continues the chain that the left one begins. -/
theorem Completes.binary {op : BinaryOp} (hl : Completes room x ul (.level op.level))
    (hr : Completes room y ur (.level (op.level + 1))) :
    Completes room (.binary op x y) (ul ++ ⟨.binary op, p⟩ :: ur) (.level op.level) := by
  intro min rest result hmin hstops hchain fuel hfuel
  simp only [List.append_assoc, List.cons_append] at hfuel ⊢
  have hnext : Stops (op.level + 1) (⟨.binary op, p⟩ :: (ur ++ rest)) := by
    intro token ht op' hop
    cases ht
    cases hop
    exact Nat.lt_succ_self _
  refine hl min _ result hmin hnext (fun fuel hfuel => ?_) fuel hfuel
  obtain ⟨less, rfl⟩ : ∃ less, fuel = less + 1 := ⟨fuel - 1, by omega⟩
  simp only [List.length_cons, List.length_append] at hfuel
  have hright := hr.level_end hstops (by simp; omega : _ ≤ less)
  rw [Goal.parse_chain_step hmin hright]
  exact hchain less (by omega)

theorem Completes.tighter {k : Nat} (h : Completes room e used (.level (k + 1))) :
    Completes room e used (.level k) := by
  intro min rest result hmin hstops hchain fuel hfuel
  exact h min rest result (Nat.le_succ_of_le hmin) (hstops.mono (Nat.le_succ _)) hchain fuel hfuel

theorem Completes.operand (h : Completes room e used .unary) :
    Completes room e used (.level 7) := by
  intro min rest result hmin hstops hchain fuel hfuel
  obtain ⟨less, rfl⟩ : ∃ less, fuel = less + 1 := ⟨fuel - 1, by omega⟩
  rw [Goal.parse, h rest less (by omega), ok_bind]
  simp only [List.length_append] at hfuel
  exact hchain less (by omega)

theorem Completes.negation (h : Completes room e used .unary) :
    Completes (room + 1) (.negation e) (⟨.negation, p⟩ :: used) .unary := by
  intro rest fuel hfuel
  obtain ⟨less, rfl⟩ : ∃ less, fuel = less + 1 := ⟨fuel - 1, by omega⟩
  simp only [List.cons_append, List.length_cons] at hfuel
  exact Goal.parse_negation (h rest less (by omega))

theorem Completes.atom (hne : used ≠ []) (hhead : used.head?.map Token.lexeme ≠ some .negation)
    (h : Completes room e used .primary) : Completes room e used .unary := by
  intro rest fuel hfuel
  obtain ⟨less, rfl⟩ : ∃ less, fuel = less + 1 := ⟨fuel - 1, by omega⟩
  refine Goal.parse_atom ?_ (h rest less (by omega))
  cases used with
  | nil => exact absurd rfl hne
  | cons first others => exact hhead

theorem Completes.number (digits : Text) :
    Completes room (.number (Nat.ofDigitChars 10 digits 0)) [⟨.number digits, p⟩] .primary := by
  intro rest fuel hfuel
  obtain ⟨less, rfl⟩ : ∃ less, fuel = less + 1 := ⟨fuel - 1, by omega⟩
  rfl

theorem Completes.quantity : Completes room .quantity [⟨.quantity, p⟩] .primary := by
  intro rest fuel hfuel
  obtain ⟨less, rfl⟩ : ∃ less, fuel = less + 1 := ⟨fuel - 1, by omega⟩
  rfl

theorem Completes.parens (h : Completes room e used .expression) :
    Completes (room + 1) e (⟨.openParen, p⟩ :: used ++ [⟨.closeParen, q⟩]) .primary := by
  intro rest fuel hfuel
  obtain ⟨less, rfl⟩ : ∃ less, fuel = less + 1 := ⟨fuel - 1, by omega⟩
  simp only [List.append_assoc, List.cons_append, List.nil_append, List.length_append,
    List.length_cons] at hfuel ⊢
  have hclose : Ends (⟨.closeParen, q⟩ :: rest) := by
    intro token ht
    cases ht
    exact .inr rfl
  exact Goal.parse_parens (h _ less hclose (by simp; omega))

end Constructors

/-- What the grammar derives is what a goal reads. -/
theorem Derives.completes {c : Category} {ls : List Lexeme} {e : Expr} {n : Nat}
    (h : Derives c ls e n) {room : Nat} (hn : n ≤ room) {used : List Token}
    (hu : used.map Token.lexeme = ls) : Completes room e used c := by
  induction h generalizing room used with
  | @conditional t a b test x y i j k _ _ _ iht iha ihb =>
      obtain ⟨front, q, ub, rfl, hfront, hub⟩ := map_lexeme_eq_append_cons hu
      obtain ⟨ut, p, ua, rfl, hut, hua⟩ := map_lexeme_eq_append_cons hfront
      obtain ⟨inner, rfl⟩ : ∃ inner, room = inner + 1 := ⟨room - 1, by omega⟩
      exact .conditional (iht (by omega) hut) (iha (by omega) hua) (ihb (by omega) hub)
  | condition _ ih => exact .condition (ih hn hu)
  | @binary op l r x y i j _ _ ihl ihr =>
      obtain ⟨ul, p, ur, rfl, hul, hur⟩ := map_lexeme_eq_append_cons hu
      exact .binary (ihl (by omega) hul) (ihr (by omega) hur)
  | tighter _ _ ih => exact .tighter (ih hn hu)
  | operand _ ih => exact .operand (ih hn hu)
  | @negation ls e n _ ih =>
      obtain ⟨⟨_, p⟩, operand, rfl, rfl, hoperand⟩ := List.map_eq_cons_iff.1 hu
      obtain ⟨inner, rfl⟩ : ∃ inner, room = inner + 1 := ⟨room - 1, by omega⟩
      exact .negation (ih (Nat.le_of_succ_le_succ hn) hoperand)
  | atom hprimary ih =>
      refine .atom ?_ ?_ (ih hn hu)
      · rintro rfl
        exact hprimary.ne_nil hu.symm
      · rw [← List.head?_map, hu]
        exact hprimary.head?_ne_negation
  | number digits =>
      obtain ⟨⟨_, p⟩, others, rfl, rfl, hothers⟩ := List.map_eq_cons_iff.1 hu
      obtain rfl := List.map_eq_nil_iff.1 hothers
      exact .number digits
  | quantity =>
      obtain ⟨⟨_, p⟩, others, rfl, rfl, hothers⟩ := List.map_eq_cons_iff.1 hu
      obtain rfl := List.map_eq_nil_iff.1 hothers
      exact .quantity
  | @parens ls e n _ ih =>
      obtain ⟨front, q, behind, rfl, hfront, hbehind⟩ := map_lexeme_eq_append_cons hu
      obtain ⟨⟨_, p⟩, used, rfl, rfl, hused⟩ := List.map_eq_cons_iff.1 hfront
      obtain rfl := List.map_eq_nil_iff.1 hbehind
      obtain ⟨inner, rfl⟩ : ∃ inner, room = inner + 1 := ⟨room - 1, by omega⟩
      exact .parens (ih (Nat.le_of_succ_le_succ hn) hused)

/-- An expression is read from its tokens, with nothing left. -/
theorem Derives.parse_eq {tokens : List Token} {e : Expr} {n room : Nat}
    (h : Derives .expression (tokens.map Token.lexeme) e n) (hn : n ≤ room) :
    Goal.parse (4 * tokens.length + 5) .expression room tokens = .ok (e, []) := by
  have hread := h.completes hn rfl [] (4 * tokens.length + 5) (by simp [Ends]) (by simp)
  rwa [List.append_nil] at hread

/-- The grammar is not ambiguous. -/
theorem Derives.unique {ls : List Lexeme} {e e' : Expr} {n n' : Nat}
    (h : Derives .expression ls e n) (h' : Derives .expression ls e' n') : e = e' := by
  obtain ⟨tokens, rfl⟩ : ∃ tokens : List Token, tokens.map Token.lexeme = ls :=
    ⟨ls.map (⟨·, 0⟩), by simp [Function.comp_def]⟩
  have hread := h.parse_eq (Nat.le_max_left n n')
  rw [h'.parse_eq (Nat.le_max_right n n')] at hread
  cases hread
  rfl

end Completeness

section Faults

/-- Does a fault of a reading name nothing but tokens with a property? -/
def SyntaxFault.PointsAt (p : Token → Prop) : SyntaxFault → Prop
  | .unexpectedToken token => p token
  | .expectedColon found | .expectedClose found | .tooDeep found => ∀ token ∈ found, p token
  | .empty | .unexpectedEnd => True
  | .tooLong _ | .invalidCharacter _ _ | .notACategory => False

theorem SyntaxFault.PointsAt.mono {p q : Token → Prop} {fault : SyntaxFault}
    (h : fault.PointsAt p) (hpq : ∀ token, p token → q token) : fault.PointsAt q := by
  cases fault with
  | unexpectedToken token => exact hpq token h
  | expectedColon found | expectedClose found | tooDeep found =>
      exact fun token ht => hpq token (h token ht)
  | empty | unexpectedEnd => trivial
  | tooLong _ | invalidCharacter _ _ | notACategory => exact h

/-- Does an outcome, if it is a fault, name nothing but tokens with a property? -/
def BlamesOnly {α : Type} (p : Token → Prop) (outcome : Except SyntaxFault α) : Prop :=
  ∀ fault, outcome = .error fault → fault.PointsAt p

section Blaming

variable {α β : Type} {p q : Token → Prop} {x : Except SyntaxFault α}

theorem BlamesOnly.ok (a : α) : BlamesOnly p (.ok a : Except SyntaxFault α) := nofun

theorem BlamesOnly.error {fault : SyntaxFault} (h : fault.PointsAt p) :
    BlamesOnly p (.error fault : Except SyntaxFault α) := by
  rintro _ ⟨⟩
  exact h

theorem BlamesOnly.mono (h : BlamesOnly p x) (hpq : ∀ token, p token → q token) :
    BlamesOnly q x :=
  fun fault hx => (h fault hx).mono hpq

theorem BlamesOnly.bind {f : α → Except SyntaxFault β} (hx : BlamesOnly p x)
    (hf : ∀ a, x = .ok a → BlamesOnly p (f a)) : BlamesOnly p (x >>= f) := by
  cases x with
  | error e => exact .error (hx e rfl)
  | ok a => exact hf a rfl

end Blaming

theorem deeper_blames (room : Nat) (tokens : List Token) :
    BlamesOnly (· ∈ tokens) (deeper room tokens) := by
  cases room with
  | zero => exact .error fun token ht => List.mem_of_mem_head? ht
  | succ inner => exact .ok inner

theorem Reads.mem {c : Category} {room : Nat} {tokens rest : List Token} {e : Expr}
    (h : Reads c room tokens e rest) : ∀ token ∈ rest, token ∈ tokens := by
  obtain ⟨used, _, rfl, -, -⟩ := h
  exact fun token ht => List.mem_append_right _ ht

/-- A reading that fails names no tokens but those that it was given. -/
theorem Goal.parse_blames (fuel : Nat) (goal : Goal) (room : Nat) (tokens : List Token) :
    BlamesOnly (· ∈ tokens) (goal.parse fuel room tokens) := by
  induction fuel generalizing room goal tokens with
  | zero => exact .error trivial
  | succ fuel ih =>
      unfold Goal.parse
      cases goal with
      | expression =>
          refine (ih _ _ _).bind fun ⟨test, middle⟩ htest => ?_
          have hmiddle := ((Goal.parse_sound htest) (by decide)).1.mem
          dsimp only
          split
          · rename_i p front
            have hfront : ∀ token ∈ front, token ∈ tokens :=
              fun token ht => hmiddle token (List.mem_cons_of_mem _ ht)
            refine ((deeper_blames room front).mono hfront).bind fun inner _ => ?_
            refine ((ih _ _ _).mono hfront).bind fun ⟨x, left⟩ hx => ?_
            have hleft : ∀ token ∈ left, token ∈ tokens :=
              fun token ht => hfront token ((Goal.parse_sound hx).mem token ht)
            dsimp only
            split
            · rename_i q behind
              have hbehind : ∀ token ∈ behind, token ∈ tokens :=
                fun token ht => hleft token (List.mem_cons_of_mem _ ht)
              exact ((ih _ _ _).mono hbehind).bind fun _ _ => .ok _
            · exact .error fun token ht => hleft token (List.mem_of_mem_head? ht)
          · exact .ok _
      | level min =>
          refine (ih _ _ _).bind fun ⟨left, middle⟩ hleft => ?_
          exact (ih _ _ _).mono (Goal.parse_sound hleft).mem
      | chain min left =>
          dsimp only
          split
          · rename_i op p front
            split
            · exact .ok _
            · have hfront : ∀ token ∈ front, token ∈ Token.mk (.binary op) p :: front :=
                fun _ ht => List.mem_cons_of_mem _ ht
              refine ((ih _ _ _).mono hfront).bind fun ⟨right, behind⟩ hright => ?_
              have h6 := (level_le op).2
              have hbehind := ((Goal.parse_sound hright) (by omega)).1.mem
              exact (ih _ _ _).mono fun token ht => hfront token (hbehind token ht)
          · exact .ok _
      | unary =>
          dsimp only
          split
          · rename_i p front
            have hfront : ∀ token ∈ front, token ∈ Token.mk .negation p :: front :=
              fun _ ht => List.mem_cons_of_mem _ ht
            refine ((deeper_blames room front).mono hfront).bind fun inner _ => ?_
            exact ((ih _ _ _).mono hfront).bind fun _ _ => .ok _
          · exact ih _ _ _
      | primary =>
          dsimp only
          split
          · exact .error trivial
          · exact .ok _
          · exact .ok _
          · rename_i p front
            have hfront : ∀ token ∈ front, token ∈ Token.mk .openParen p :: front :=
              fun _ ht => List.mem_cons_of_mem _ ht
            refine ((deeper_blames room front).mono hfront).bind fun inner _ => ?_
            refine ((ih _ _ _).mono hfront).bind fun ⟨x, left⟩ hx => ?_
            have hleft := (Goal.parse_sound hx).mem
            dsimp only
            split
            · exact .ok _
            · exact .error fun token ht => hfront token (hleft token (List.mem_of_mem_head? ht))
          · exact .error (List.mem_cons_self ..)

/-- Does a fault in a source say only what is true of the source? -/
def SyntaxFault.LocatedIn (source : Text) : SyntaxFault → Prop
  | .tooLong length => length = source.length ∧ maxLength < length
  | .invalidCharacter c position => source[position]? = some c
  | fault => fault.PointsAt (Token.StandsIn · source)

theorem SyntaxFault.PointsAt.locatedIn {source : Text} {fault : SyntaxFault}
    (h : fault.PointsAt (Token.StandsIn · source)) : fault.LocatedIn source := by
  cases fault <;> first
    | exact h
    | exact h.elim

end Faults

section Texts

/-- Is a text an expression with the given tree? -/
def Grammatical (source : Text) (tree : Expr) : Prop :=
  source.length ≤ maxLength ∧
    ∃ ls n, Splits source ls ∧ Derives .expression ls tree n ∧ n ≤ maxDepth

theorem parseTokens_eq_ok_iff {tokens : List Token} {tree : Expr} :
    parseTokens tokens = .ok tree ↔
      ∃ n, Derives .expression (tokens.map Token.lexeme) tree n ∧ n ≤ maxDepth := by
  constructor
  · intro h
    unfold parseTokens at h
    split at h
    · cases h
    · obtain ⟨⟨e, rest⟩, hread, h⟩ := bind_eq_ok_iff.1 h
      obtain ⟨used, n, hused, hderived, hn⟩ := Goal.parse_sound hread
      dsimp only at h
      split at h
      · cases h
        rw [List.append_nil] at hused
        exact ⟨n, hused ▸ hderived, hn⟩
      · cases h
  · rintro ⟨n, hderived, hn⟩
    have hne : tokens.isEmpty = false := by
      cases tokens with
      | nil => exact absurd rfl hderived.ne_nil
      | cons => rfl
    unfold parseTokens
    rw [hne, hderived.parse_eq hn]
    rfl

theorem parseTokens_blames (tokens : List Token) :
    BlamesOnly (· ∈ tokens) (parseTokens tokens) := by
  unfold parseTokens
  split
  · exact .error trivial
  · refine (Goal.parse_blames _ _ _ _).bind fun ⟨e, rest⟩ hread => ?_
    have hrest := (Goal.parse_sound hread).mem
    dsimp only
    split
    · exact .ok _
    · exact .error (hrest _ (List.mem_cons_self ..))

theorem grammatical_iff_parseTokens {source : Text} {tokens : List Token}
    (hlen : source.length ≤ maxLength) (htokens : tokenize source = .ok tokens) (tree : Expr) :
    Grammatical source tree ↔ parseTokens tokens = .ok tree := by
  have hsplits := splits_of_tokensFrom htokens
  rw [parseTokens_eq_ok_iff]
  constructor
  · rintro ⟨-, ls, n, hls, hderived, hn⟩
    exact ⟨n, hls.unique hsplits ▸ hderived, hn⟩
  · rintro ⟨n, hderived, hn⟩
    exact ⟨hlen, _, n, hsplits, hderived, hn⟩

theorem not_grammatical_of_tokenize {source : Text} {fault : SyntaxFault}
    (h : tokenize source = .error fault) (tree : Expr) : ¬ Grammatical source tree := by
  rintro ⟨-, ls, -, hsplits, -, -⟩
  obtain ⟨tokens, hok, -⟩ := tokensFrom_of_splits source.length hsplits
  rw [tokenize, hok] at h
  cases h

/-- What compiling a text can do. -/
theorem compile_cases (source : Text) :
    (maxLength < source.length ∧ compile source = .error ⟨.tooLong source.length, source⟩) ∨
      (∃ fault, tokenize source = .error fault ∧ compile source = .error ⟨fault, source⟩) ∨
      ∃ tokens, source.length ≤ maxLength ∧ tokenize source = .ok tokens ∧
        ((∃ fault, parseTokens tokens = .error fault ∧ compile source = .error ⟨fault, source⟩) ∨
          ∃ tree, parseTokens tokens = .ok tree ∧ compile source = .ok ⟨source, tree⟩) := by
  unfold compile
  split
  · rename_i hlong
    exact .inl ⟨hlong, rfl⟩
  · rename_i hshort
    cases htokens : tokenize source with
    | error fault => exact .inr (.inl ⟨fault, rfl, rfl⟩)
    | ok tokens =>
        refine .inr (.inr ⟨tokens, Nat.le_of_not_lt hshort, rfl, ?_⟩)
        cases htree : parseTokens tokens with
        | error fault => exact .inl ⟨fault, rfl, by simp only [htree]⟩
        | ok tree => exact .inr ⟨tree, rfl, by simp only [htree]⟩

theorem grammatical_of_compile {source : Text} {c : Compiled} (h : compile source = .ok c) :
    Grammatical source c.tree := by
  rcases compile_cases source with ⟨-, he⟩ | ⟨fault, -, he⟩ | ⟨tokens, hlen, htokens, hcase⟩
  · cases he.symm.trans h
  · cases he.symm.trans h
  · rcases hcase with ⟨fault, -, he⟩ | ⟨tree, htree, hc⟩
    · cases he.symm.trans h
    · cases hc.symm.trans h
      exact (grammatical_iff_parseTokens hlen htokens tree).2 htree

theorem compile_of_grammatical {source : Text} {tree : Expr} (h : Grammatical source tree) :
    compile source = .ok ⟨source, tree⟩ := by
  rcases compile_cases source with ⟨hlong, -⟩ | ⟨fault, hfault, -⟩ | ⟨tokens, hlen, htokens, hcase⟩
  · exact absurd h.1 (Nat.not_le.2 hlong)
  · exact absurd h (not_grammatical_of_tokenize hfault tree)
  · have hparse := (grammatical_iff_parseTokens hlen htokens tree).1 h
    rcases hcase with ⟨fault, hfault, -⟩ | ⟨other, hother, hc⟩
    · cases hfault.symm.trans hparse
    · cases hother.symm.trans hparse
      exact hc

/-- A text has an expression exactly if it is short enough, can be split into lexemes, and the
grammar derives these without too deep a nesting.  Otherwise there is a fault, and it names only
what stands in the text. -/
theorem compile_eq_ok_iff (source : Text) :
    (∀ c, compile source = .ok c ↔ c.source = source ∧ Grammatical source c.tree) ∧
      ((∃ tree, Grammatical source tree) ∨
        ∃ fault, compile source = .error ⟨fault, source⟩ ∧ fault.LocatedIn source) := by
  have hfails : ∀ {e}, compile source = .error e → (∀ tree, ¬ Grammatical source tree) →
      ∀ c, compile source = .ok c ↔ c.source = source ∧ Grammatical source c.tree := by
    intro e he hno c
    rw [he]
    exact ⟨nofun, fun h => absurd h.2 (hno c.tree)⟩
  rcases compile_cases source with
    ⟨hlong, hc⟩ | ⟨fault, htokens, hc⟩ | ⟨tokens, hlen, htokens, hcase⟩
  · refine ⟨hfails hc fun tree h => ?_, .inr ⟨_, hc, rfl, hlong⟩⟩
    exact Nat.not_lt.2 h.1 hlong
  · obtain ⟨c, position, rfl, hat⟩ := tokensFrom_error (List.suffix_refl source) htokens
    exact ⟨hfails hc (not_grammatical_of_tokenize htokens), .inr ⟨_, hc, hat⟩⟩
  · have hiff := grammatical_iff_parseTokens hlen htokens
    rcases hcase with ⟨fault, hparse, hc⟩ | ⟨tree, hparse, hc⟩
    · refine ⟨hfails hc fun tree h => ?_, .inr ⟨fault, hc, ?_⟩⟩
      · rw [hiff, hparse] at h
        cases h
      · have hnamed := (parseTokens_blames tokens fault hparse).mono fun token ht =>
          standsIn_of_mem_tokensFrom (List.suffix_refl source) htokens ht
        exact hnamed.locatedIn
    · refine ⟨fun c => ?_, .inl ⟨tree, (hiff tree).2 hparse⟩⟩
      rw [hc, hiff, hparse]
      constructor
      · intro h
        cases h
        exact ⟨rfl, rfl⟩
      · rintro ⟨hsource, htree⟩
        cases c
        cases hsource
        cases htree
        rfl

end Texts

end Plural
end Phrasebook
