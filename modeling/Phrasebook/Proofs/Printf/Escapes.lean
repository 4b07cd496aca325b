import Mathlib
import Phrasebook.Printf.Template
import Phrasebook.Proofs.Outcome

/-!
# Templates that take no argument

A directive for a percent sign or a line feed takes no argument, whatever stands in front of its
conversion.

**With arguments** every piece of such a template stands for one character, and the arguments are
not looked at (`formatTemplate_eq_ok`).
**Without arguments** only a directive with nothing in front of its conversion is replaced.
**Result.**  `formatTemplate_eq_iff`: the two agree exactly if all directives are of this kind.
-/

namespace Phrasebook
namespace Printf

section Formats

/-- A character as a format has it that shows the character. -/
def escaped (c : Char) : Text :=
  if c = '%' then ['%', '%'] else [c]

theorem Item.ofText_escaped (total : Nat) (c : Char) (rest : Text) :
    Item.ofText total (escaped c ++ rest) = .literal c :: Item.ofText total rest := by
  by_cases hc : c = '%'
  · rw [escaped, if_pos hc, hc, List.cons_append, List.singleton_append, Item.ofText, if_pos rfl,
      List.head?_cons, if_pos rfl, List.drop_one, List.tail_cons]
  · rw [escaped, if_neg hc, List.singleton_append, Item.ofText, if_neg hc]

theorem Item.ofText_flatMap_escaped (total : Nat) (t rest : Text) :
    Item.ofText total (t.flatMap escaped ++ rest) = t.map .literal ++ Item.ofText total rest := by
  induction t with
  | nil => rfl
  | cons c t ih =>
      rw [List.flatMap_cons, List.append_assoc, Item.ofText_escaped, ih, List.map_cons,
        List.cons_append]

variable [Machine]

theorem Item.applyAll_literals (t : Text) (items : List Item) (args : List Argument) :
    Item.applyAll (t.map .literal ++ items) args =
      (Item.applyAll items args).map fun shown => t ++ shown := by
  induction t with
  | nil =>
      rw [List.map_nil, List.nil_append]
      cases Item.applyAll items args <;> rfl
  | cons c t ih =>
      rw [List.map_cons, List.cons_append, Item.applyAll, ih]
      cases Item.applyAll items args <;> rfl

/-- A format of escaped characters shows these characters. -/
theorem applyFormat_escaped (t : Text) : applyFormat (t.flatMap escaped) [] = .ok t := by
  rw [applyFormat, ← List.append_nil (t.flatMap escaped), Item.ofText_flatMap_escaped,
    Item.applyAll_literals, Item.ofText]
  exact congrArg Except.ok (List.append_nil t)

end Formats

section Pieces

namespace Piece

/-- Does a piece take no argument?  A percent sign that begins no directive is not such a piece. -/
def TakesNothing : Piece → Prop
  | .literal c => c ≠ '%'
  | .directive d => d.conversion = '%' ∨ d.conversion = 'n'

/-- Does nothing stand in front of the conversion, if the piece is a directive? -/
def IsBare : Piece → Prop
  | .literal _ => True
  | .directive d => d.index = none ∧ d.modifiers = []

instance : DecidablePred TakesNothing
  | .literal _ => inferInstanceAs (Decidable (_ ≠ _))
  | .directive _ => inferInstanceAs (Decidable (_ ∨ _))

instance : DecidablePred IsBare
  | .literal _ => inferInstanceAs (Decidable True)
  | .directive _ => inferInstanceAs (Decidable (_ ∧ _))

/-- The character that a piece without argument stands for. -/
def character : Piece → Char
  | .literal c => c
  | .directive d => if d.conversion = '%' then '%' else '\n'

variable {p : Piece}

/-- A bare piece is replaced by its character. -/
theorem unfilled_of_isBare (h : p.TakesNothing) (hbare : p.IsBare) :
    p.unfilled = [p.character] := by
  cases p with
  | literal c => rfl
  | directive d =>
      obtain ⟨hindex, hmodifiers⟩ := hbare
      have hspec : d.spec = [d.conversion] := by rw [Directive.spec, hmodifiers, List.nil_append]
      rcases h with hpercent | hfeed
      · simp [unfilled, character, hindex, hspec, hpercent]
      · simp [unfilled, character, hindex, hspec, hfeed]

/-- A directive with anything in front of its conversion stays as it is. -/
theorem one_lt_length_unfilled (hbare : ¬p.IsBare) : 1 < p.unfilled.length := by
  cases p with
  | literal c => exact absurd trivial hbare
  | directive d =>
      have hkept : ∀ c, ¬(d.index = none ∧ d.spec = [c]) := by
        rintro c ⟨hindex, hspec⟩
        refine hbare ⟨hindex, ?_⟩
        have hlength := congrArg List.length hspec
        rw [Directive.spec, List.length_append] at hlength
        exact List.length_eq_zero_iff.1 (Nat.succ.inj hlength)
      have hspec : 0 < d.spec.length := by
        rw [Directive.spec, List.length_append]
        exact Nat.succ_pos _
      rw [unfilled, if_neg (hkept '%'), if_neg (hkept 'n'), Directive.toText]
      split <;> simp only [List.length_cons, List.length_append] <;> omega

theorem length_unfilled_pos (h : p.TakesNothing) : 0 < p.unfilled.length := by
  by_cases hbare : p.IsBare
  · rw [unfilled_of_isBare h hbare]
    exact Nat.one_pos
  · exact Nat.lt_of_succ_lt (one_lt_length_unfilled hbare)

end Piece

variable {pieces : List Piece}

/-- Pieces that take no argument become a format that takes none. -/
theorem assign_of_takesNothing (template : Text) (args : List Argument) (next : Nat)
    (h : ∀ p ∈ pieces, p.TakesNothing) :
    assign template args pieces next = .ok ((pieces.map Piece.character).flatMap escaped, []) := by
  induction pieces with
  | nil => rfl
  | cons p pieces ih =>
      obtain ⟨hp, hpieces⟩ := List.forall_mem_cons.1 h
      cases p with
      | literal c =>
          have hescaped : escaped c = [c] := if_neg hp
          rw [assign, ih hpieces, ok_bind, List.map_cons, List.flatMap_cons, Piece.character,
            hescaped]
          rfl
      | directive d =>
          rw [assign, ih hpieces, ok_bind, List.map_cons, List.flatMap_cons, Piece.character]
          by_cases hpercent : d.conversion = '%'
          · rw [if_pos hpercent, if_pos hpercent]
            rfl
          · rw [if_neg hpercent, if_neg hpercent, if_pos (hp.resolve_left hpercent)]
            rfl

theorem length_le_unfilled (h : ∀ p ∈ pieces, p.TakesNothing) :
    pieces.length ≤ (pieces.flatMap Piece.unfilled).length := by
  induction pieces with
  | nil => exact Nat.zero_le _
  | cons p pieces ih =>
      obtain ⟨hp, hpieces⟩ := List.forall_mem_cons.1 h
      have hfirst := Piece.length_unfilled_pos hp
      have hrest := ih hpieces
      rw [List.flatMap_cons, List.length_append, List.length_cons]
      omega

/-- Pieces that take no argument are replaced by one character each exactly if they are bare. -/
theorem unfilled_eq_iff (h : ∀ p ∈ pieces, p.TakesNothing) :
    pieces.flatMap Piece.unfilled = pieces.map Piece.character ↔ ∀ p ∈ pieces, p.IsBare := by
  constructor
  · intro heq p hp
    by_contra hbare
    -- a piece that stays as it is has more than one character, and no piece has none
    obtain ⟨front, back, rfl⟩ := List.append_of_mem hp
    have hfront := length_le_unfilled fun q hq => h q (List.mem_append_left _ hq)
    have hback := length_le_unfilled fun q hq =>
      h q (List.mem_append_right front (List.mem_cons_of_mem p hq))
    have hlong := Piece.one_lt_length_unfilled hbare
    have hlength := congrArg List.length heq
    simp only [List.flatMap_append, List.flatMap_cons, List.length_append, List.length_map,
      List.length_cons] at hlength
    omega
  · intro hbare
    have hall : pieces.map Piece.unfilled = pieces.map fun p => [p.character] :=
      List.map_congr_left fun p hp => Piece.unfilled_of_isBare (h p hp) (hbare p hp)
    rw [List.map_eq_flatMap, List.flatMap_def, hall, ← List.flatMap_def]

end Pieces

section Templates

variable {template : Text} {args : List Argument}

/-- A template that takes no argument shows the characters of its pieces, whatever it is given. -/
theorem formatTemplate_eq_ok [Machine] (hargs : args ≠ [])
    (h : ∀ p ∈ Piece.ofText template, p.TakesNothing) :
    formatTemplate template args = .ok ((Piece.ofText template).map Piece.character) := by
  obtain ⟨a, rest, rfl⟩ := List.exists_cons_of_ne_nil hargs
  rw [formatTemplate, assign_of_takesNothing template _ 0 h]
  simp only [applyFormat_escaped]

/-- A template that takes no argument reads the same with and without arguments exactly if nothing
stands in front of the conversions of its directives. -/
theorem formatTemplate_eq_iff [Machine] (hargs : args ≠ [])
    (h : ∀ p ∈ Piece.ofText template, p.TakesNothing) :
    formatTemplate template args = formatTemplate template [] ↔
      ∀ p ∈ Piece.ofText template, p.IsBare := by
  rw [formatTemplate_eq_ok hargs h, formatTemplate, Except.ok.injEq, ← unfilled_eq_iff h]
  exact eq_comm

theorem formatTemplate_eq_iff_discount :
    (∀ p ∈ Piece.ofText "50%% off%ntoday".toList, p.TakesNothing) ∧
      formatTemplate "50%% off%ntoday".toList [.integer 7] =
        formatTemplate "50%% off%ntoday".toList [] := by
  have hpieces : Piece.ofText "50%% off%ntoday".toList =
      "50".toList.map .literal ++ .directive ⟨none, [], '%'⟩ ::
        (" off".toList.map .literal ++ .directive ⟨none, [], 'n'⟩ ::
          "today".toList.map .literal) := by
    cbv
  have htakes : ∀ p ∈ Piece.ofText "50%% off%ntoday".toList, p.TakesNothing := by
    rw [hpieces]
    decide
  refine ⟨htakes, (formatTemplate_eq_iff (List.cons_ne_nil _ _) htakes).2 ?_⟩
  rw [hpieces]
  decide

/-- A percent sign with a width is one character with arguments and stays as it is without. -/
theorem formatTemplate_width :
    (∀ p ∈ Piece.ofText "%5%".toList, p.TakesNothing) ∧
      formatTemplate "%5%".toList [.integer 1] = .ok "%".toList ∧
      formatTemplate "%5%".toList [] = .ok "%5%".toList := by
  have hpieces : Piece.ofText "%5%".toList = [.directive ⟨none, ['5'], '%'⟩] := by cbv
  have htakes : ∀ p ∈ Piece.ofText "%5%".toList, p.TakesNothing := by
    rw [hpieces]
    decide
  refine ⟨htakes, ?_, ?_⟩
  · rw [formatTemplate_eq_ok (List.cons_ne_nil _ _) htakes, hpieces]
    rfl
  · rw [formatTemplate, hpieces]
    rfl

end Templates

end Printf
end Phrasebook
