import Phrasebook.Plural.Nesting
import Phrasebook.Proofs.Plural.Brackets
import Phrasebook.Proofs.Text.Cutting

/-!
# Cutting outside parentheses

What the cuts at depth zero and the stripping of parentheses give on texts whose brackets are
nested.

**Cuts.**  A part that is nested is passed over as a whole, and the cut takes the branch mark
behind it (`cutTopLevel?_mark`).  All cuts of a text are repeated single cuts
(`splitTopLevel_eq`).
**Parentheses.**  A text is wrapped if it is a balanced text between parentheses
(`isWrapped_iff`).
-/

namespace Phrasebook
namespace Plural

section Cuts

variable {target : Char}

/-- The depth behind a text. -/
def depthBehind (depth : Int) (t : Text) : Int :=
  t.foldl depthAfter depth

theorem cutTopLevel?_append {depth : Int} {p : Text} (h : cutTopLevel? target depth p = none)
    (s : Text) : cutTopLevel? target depth (p ++ s) =
      (cutTopLevel? target (depthBehind depth p) s).map (fun cut => (p ++ cut.1, cut.2)) := by
  induction p generalizing depth with
  | nil =>
      rw [List.nil_append]
      exact Option.map_id'.symm
  | cons c p ih =>
      rw [cutTopLevel?] at h
      split at h
      · cases h
      · rename_i hc
        rw [Option.map_eq_none_iff] at h
        rw [List.cons_append, cutTopLevel?, if_neg hc, ih h, Option.map_map]
        rfl

/-- The step of one character; a branch mark does not stand at depth zero. -/
theorem isNested_cons {floor d : Nat} {c : Char} {p : Text}
    (h : isNested floor d (brackets (c :: p)) = true) :
    ∃ behind : Nat, depthAfter d c = behind ∧ isNested floor behind (brackets p) = true ∧
      (c = '?' ∨ c = ':' → 0 < d) := by
  rw [brackets_cons] at h
  unfold depthAfter
  by_cases hopen : c = '('
  · subst hopen
    exact ⟨d + 1, rfl, h, by simp⟩
  by_cases hclose : c = ')'
  · subst hclose
    obtain ⟨hd, hrest⟩ := isNested_closing.1 h
    refine ⟨d - 1, ?_, hrest, by simp⟩
    rw [if_neg hopen, if_pos rfl]
    omega
  rw [if_neg hopen, if_neg hclose]
  unfold Bracket.ofChar? at h
  rw [if_neg hopen, if_neg hclose] at h
  by_cases hbranch : c = '?' ∨ c = ':'
  · rw [if_pos hbranch] at h
    obtain ⟨hd, hrest⟩ := isNested_branch.1 h
    exact ⟨d, rfl, hrest, fun _ => hd⟩
  · rw [if_neg hbranch] at h
    exact ⟨d, rfl, h, fun hc => absurd hc hbranch⟩

theorem depthBehind_of_isNested {floor d : Nat} {p : Text}
    (h : isNested floor d (brackets p) = true) : depthBehind d p = floor := by
  induction p generalizing d with
  | nil =>
      have hd : d = floor := by simpa [isNested] using h
      rw [hd]
      rfl
  | cons c p ih =>
      obtain ⟨behind, hbehind, hrest, -⟩ := isNested_cons h
      rw [depthBehind, List.foldl_cons, hbehind]
      exact ih hrest

theorem cutTopLevel?_of_isNested {d : Nat} {p : Text} (htarget : target = '?' ∨ target = ':')
    (h : isNested 0 d (brackets p) = true) : cutTopLevel? target d p = none := by
  induction p generalizing d with
  | nil => rfl
  | cons c p ih =>
      obtain ⟨behind, hbehind, hrest, hbranch⟩ := isNested_cons h
      rw [cutTopLevel?, if_neg, hbehind, ih hrest]
      · rfl
      · rintro ⟨rfl, -, -, hd⟩
        have := hbranch htarget
        omega

theorem cutTopLevel?_mark {p : Text} (htarget : target = '?' ∨ target = ':')
    (h : isNested 0 0 (brackets p) = true) (s : Text) :
    cutTopLevel? target 0 (p ++ target :: s) = some (p, s) := by
  have hcut := cutTopLevel?_append (cutTopLevel?_of_isNested htarget h) (target :: s)
  rw [depthBehind_of_isNested h] at hcut
  refine hcut.trans ?_
  rcases htarget with rfl | rfl <;> simp [cutTopLevel?]

theorem splitTopLevel_eq (depth : Int) (t : Text) :
    splitTopLevel target depth t =
      match cutTopLevel? target depth t with
      | none => [t]
      | some (front, rest) => front :: splitTopLevel target 0 rest := by
  induction t generalizing depth with
  | nil => rfl
  | cons c t ih =>
      rw [splitTopLevel, cutTopLevel?]
      split
      · rfl
      · rw [ih]
        cases cutTopLevel? target (depthAfter depth c) t <;> rfl

end Cuts

section Parentheses

theorem exists_concat_cons {c x : Char} {t : Text} {p : Text → Prop} :
    (∃ u, c :: t = u ++ [x] ∧ p u) ↔
      (c = x ∧ t = [] ∧ p []) ∨ ∃ u, t = u ++ [x] ∧ p (c :: u) := by
  constructor
  · rintro ⟨u, hu, hp⟩
    cases u with
    | nil =>
        obtain ⟨rfl, rfl⟩ := List.cons.inj hu
        exact .inl ⟨rfl, rfl, hp⟩
    | cons d u =>
        obtain ⟨rfl, rfl⟩ := List.cons.inj hu
        exact .inr ⟨u, rfl, hp⟩
  · rintro (⟨rfl, rfl, hp⟩ | ⟨u, rfl, hp⟩)
    · exact ⟨[], rfl, hp⟩
    · exact ⟨c :: u, rfl, hp⟩

theorem isNested_closing_cons {d : Nat} {u : Text} :
    isNested 1 (d + 1) (brackets (')' :: u)) = true ↔
      0 < d ∧ isNested 1 d (brackets u) = true := by
  rw [brackets_cons, show d = d + 1 - 1 from rfl, ← Nat.succ_lt_succ_iff]
  exact isNested_closing

theorem isNested_inner_cons {d : Nat} {c : Char} {u : Text} (hopen : c ≠ '(') (hclose : c ≠ ')') :
    isNested 1 (d + 1) (brackets (c :: u)) = isNested 1 (d + 1) (brackets u) := by
  rw [brackets_cons, Bracket.ofChar?, if_neg hopen, if_neg hclose]
  split
  · exact Bool.true_and _
  · rfl

theorem closesAtEnd_iff (d : Nat) (t : Text) :
    closesAtEnd (d + 1) t = true ↔
      ∃ u, t = u ++ [')'] ∧ isNested 1 (d + 1) (brackets u) = true := by
  induction t generalizing d with
  | nil =>
      constructor
      · intro h
        cases h
      · rintro ⟨u, hu, -⟩
        simp at hu
  | cons c t ih =>
      rw [exists_concat_cons, closesAtEnd]
      by_cases hopen : c = '('
      · subst hopen
        rw [if_pos rfl, ih (d + 1)]
        refine ⟨.inr, ?_⟩
        rintro (⟨hc, -⟩ | h)
        · exact absurd hc (by decide)
        · exact h
      by_cases hclose : c = ')'
      · subst hclose
        rw [if_neg hopen, if_pos rfl]
        cases d with
        | zero =>
            -- at depth one the last character has to close the parenthesis
            cases t with
            | nil => simp [closesAtEnd, isNested]
            | cons x t =>
                rw [if_pos ⟨rfl, rfl⟩]
                constructor
                · intro h
                  cases h
                · rintro (⟨-, ht, -⟩ | ⟨u, -, hu⟩)
                  · cases ht
                  · exact absurd (isNested_closing_cons.1 hu).1 (Nat.lt_irrefl 0)
        | succ d =>
            rw [if_neg (by omega), Nat.add_sub_cancel, ih d]
            constructor
            · rintro ⟨u, ht, hu⟩
              exact .inr ⟨u, ht, isNested_closing_cons.2 ⟨Nat.succ_pos d, hu⟩⟩
            · rintro (⟨-, -, hnil⟩ | ⟨u, ht, hu⟩)
              · simp [isNested] at hnil
              · exact ⟨u, ht, (isNested_closing_cons.1 hu).2⟩
      · rw [if_neg hopen, if_neg hclose, ih d]
        simp only [isNested_inner_cons hopen hclose, hclose, false_and, false_or]

/-- Wrapped is what stands between parentheses and has its own parentheses in pairs. -/
theorem isWrapped_iff (t : Text) :
    isWrapped t = true ↔ ∃ u, t = '(' :: (u ++ [')']) ∧ isNested 1 1 (brackets u) = true := by
  constructor
  · intro h
    cases t with
    | nil => cases h
    | cons c t =>
        simp only [isWrapped, List.head?_cons, Bool.and_eq_true, beq_iff_eq, Option.some.injEq] at h
        obtain ⟨⟨rfl, -⟩, hcloses⟩ := h
        obtain ⟨u, rfl, hu⟩ := (closesAtEnd_iff 0 t).1 hcloses
        exact ⟨u, rfl, hu⟩
  · rintro ⟨u, rfl, hu⟩
    have hcloses : closesAtEnd 0 ('(' :: (u ++ [')'])) = true :=
      (closesAtEnd_iff 0 (u ++ [')'])).2 ⟨u, rfl, hu⟩
    have hlast : ('(' :: (u ++ [')'])).getLast? = some ')' := by
      rw [← List.cons_append, List.getLast?_concat]
    simp [isWrapped, hcloses, hlast]

theorem unwrap_parens (u : Text) : unwrap ('(' :: (u ++ [')'])) = Text.trim u := by
  rw [unwrap, List.drop_one, List.tail_cons, List.dropLast_concat]

theorem stripParens_parens {u : Text} (h : isNested 1 1 (brackets u) = true) :
    stripParens ('(' :: (u ++ [')'])) = stripParens (Text.trim u) := by
  rw [stripParens, dif_pos ((isWrapped_iff _).2 ⟨u, rfl, h⟩), unwrap_parens]

theorem stripParens_of_not_wrapped {t : Text} (h : isWrapped t = false) : stripParens t = t := by
  rw [stripParens, dif_neg (by rw [h]; exact Bool.false_ne_true)]

end Parentheses

end Plural
end Phrasebook
