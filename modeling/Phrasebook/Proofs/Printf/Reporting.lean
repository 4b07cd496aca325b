import Mathlib
import Phrasebook.Printf.Template
import Phrasebook.Proofs.Printf.Overflowing

/-!
# Failures of templates

A template that cannot be filled reports a missing argument or an argument that does not fit.
Other failures come through: they are about numbers alone, and do not name the template.

**Assignment.**  `Piece.place` is what one piece becomes, and `assign_cons` goes through the pieces.
They fail without a report only at the number of an argument that has too many digits.
**Formats.**  What is too large for a format comes through.  Everything else is reported with all
arguments, if these can be shown (`explain_eq_iff`).
**Result.**  `formatTemplate_unreported_iff`: a template without arguments is always filled, and the
failures that come through from one with arguments are those of `Unreported`.
-/

namespace Phrasebook

section Arguments

variable {a : Argument} {args : List Argument} {e : NumeralError}

theorem Argument.literal_eq_error_iff :
    a.literal = .error e ↔
      ∃ i, a = .integer i ∧ Nat.pow 10 digitLimit ≤ i.natAbs ∧ e = .tooLong := by
  cases a with
  | integer i =>
      rw [literal, textWith, writeNumeral_eq_error_iff]
      constructor
      · exact fun h => ⟨i, rfl, h⟩
      · rintro ⟨j, hj, h⟩
        cases hj
        exact h
  | text t | truth b | real x | nothing =>
      constructor
      · nofun
      · rintro ⟨i, hi, -⟩
        cases hi

/-- A list of arguments can be shown unless one of its numbers is too long. -/
theorem Argument.listLiteral_eq_error_iff :
    listLiteral args = .error e ↔
      ∃ i, Argument.integer i ∈ args ∧ Nat.pow 10 digitLimit ≤ i.natAbs ∧ e = .tooLong := by
  have hlong : ∀ d, args.mapM literal = .error d → ∃ i, Argument.integer i ∈ args ∧
      Nat.pow 10 digitLimit ≤ i.natAbs ∧ d = .tooLong := by
    intro d hd
    obtain ⟨a, hmem, ha⟩ := exists_of_mapM_eq_error hd
    obtain ⟨i, rfl, hi, hd⟩ := literal_eq_error_iff.1 ha
    exact ⟨i, hmem, hi, hd⟩
  constructor
  · intro h
    rcases bind_eq_error_iff.1 h with h | ⟨texts, -, h⟩
    · exact hlong e h
    · split at h <;> cases h
  · rintro ⟨i, hmem, hi, rfl⟩
    rw [listLiteral, bind_eq_error_iff]
    cases htexts : args.mapM literal with
    | error d =>
        obtain ⟨-, -, -, rfl⟩ := hlong d htexts
        exact .inl rfl
    | ok texts =>
        obtain ⟨g, hg, -⟩ := exists_of_mapM_eq_ok htexts
        have herror : literal (.integer i) = .error .tooLong :=
          literal_eq_error_iff.2 ⟨i, rfl, hi, rfl⟩
        rw [hg _ hmem] at herror
        cases herror

end Arguments

namespace Printf

section Assignment

variable {template : Text} {args : List Argument} {pieces front back : List Piece}
  {d : Directive} {next : Nat} {x : TemplateError}

/-- Is a failure one of the template and its arguments, and none that comes through from a
conversion or a numeral? -/
def TemplateError.IsReported : TemplateError → Prop
  | .missingArgument .. | .misfit .. => True
  | .tooLarge _ | .numeral _ => False

/-- Is the number of an argument that stands in a directive made of ASCII digits? -/
def Piece.IsNumbered : Piece → Prop
  | .literal _ => True
  | .directive d =>
      ∀ digits, d.index = some digits → digits ≠ [] ∧ ∀ c ∈ digits, isAsciiDigit c = true

theorem isAsciiDigit_of_indexOf? {t digits rest : Text} (h : indexOf? t = some (digits, rest)) :
    digits ≠ [] ∧ ∀ c ∈ digits, isAsciiDigit c = true := by
  unfold indexOf? at h
  split at h
  · split at h
    · cases h
    · rename_i first more hdigits
      split at h
      · cases h
      · cases h
        refine ⟨List.cons_ne_nil _ _, fun c hc => ?_⟩
        rw [← hdigits] at hc
        exact List.mem_takeWhile_imp hc
  · cases h

theorem isNumbered_of_ofText? {t rest : Text} (h : Directive.ofText? t = some (d, rest)) :
    (Piece.directive d).IsNumbered := by
  unfold Directive.ofText? at h
  split at h
  · rename_i digits behind hindex
    intro index hd
    rw [(specOf?_append h).1] at hd
    cases hd
    exact isAsciiDigit_of_indexOf? hindex
  · intro index hd
    rw [(specOf?_append h).1] at hd
    cases hd

theorem isNumbered_of_mem_ofText (t : Text) : ∀ p ∈ Piece.ofText t, p.IsNumbered := by
  fun_induction Piece.ofText t with
  | case1 => exact List.forall_mem_nil _
  | case2 t d rest h ih => exact List.forall_mem_cons.2 ⟨isNumbered_of_ofText? h, ih⟩
  | case3 t _ ih => exact List.forall_mem_cons.2 ⟨trivial, ih⟩
  | case4 c t hc ih => exact List.forall_mem_cons.2 ⟨trivial, ih⟩

/-- Does the directive take an argument? -/
def Directive.TakesArgument (d : Directive) : Prop :=
  d.conversion ≠ '%' ∧ d.conversion ≠ 'n'

theorem Directive.position_of_index_eq_none (h : d.index = none) :
    d.position next = .ok (next, next + 1) := by
  rw [Directive.position, h]

theorem Directive.position_of_index {digits : Text} (h : d.index = some digits) :
    d.position next = (readNumeral digits).map fun k => (k - 1, next) := by
  rw [Directive.position, h]

/-- Are the digits those of the argument that the directive takes, and too many of them? -/
def Directive.IsOverlong (d : Directive) (digits : Text) : Prop :=
  d.TakesArgument ∧ d.index = some digits ∧ digitLimit < digits.length

/-- What a piece gives to the format, the arguments that it takes, and the position of the next
argument in order. -/
def Piece.place (template : Text) (args : List Argument) :
    Piece → Nat → Except TemplateError (Text × List Argument × Nat)
  | .literal c, next => .ok ([c], [], next)
  | .directive d, next =>
      if d.conversion = '%' then .ok (['%', '%'], [], next)
      else if d.conversion = 'n' then .ok (['\n'], [], next)
      else
        match d.position next with
        | .error e => .error (.numeral e)
        | .ok (position, next) =>
            match args[position]? with
            | none => .error (.missingArgument template (position + 1) args.length)
            | some a => .ok ('%' :: d.spec, [a], next)

/-- Pieces are assigned their arguments one by one. -/
theorem assign_cons (p : Piece) :
    assign template args (p :: pieces) next =
      p.place template args next >>= fun q =>
        (assign template args pieces q.2.2).map fun r => (q.1 ++ r.1, q.2.1 ++ r.2) := by
  cases p with
  | literal c =>
      rw [assign, Piece.place, ok_bind]
      cases assign template args pieces next <;> rfl
  | directive d =>
      rw [assign, Piece.place]
      split
      · rw [ok_bind]
        cases assign template args pieces next <;> rfl
      split
      · rw [ok_bind]
        cases assign template args pieces next <;> rfl
      cases d.position next with
      | error e => rfl
      | ok q =>
          dsimp only
          cases args[q.1]? with
          | none => rfl
          | some a =>
              dsimp only
              rw [ok_bind]
              cases assign template args pieces q.2 <;> rfl

/-- A piece fails without a report only at a number that is too long. -/
theorem place_eq_error_iff {p : Piece} (hp : p.IsNumbered) :
    p.place template args next = .error x ∧ ¬x.IsReported ↔
      ∃ d digits, p = .directive d ∧ d.IsOverlong digits ∧
        x = .numeral (.tooManyDigits digits.length) := by
  cases p with
  | literal c =>
      refine ⟨fun h => (nomatch h.1), ?_⟩
      rintro ⟨d, digits, hd, -⟩
      cases hd
  | directive d =>
      constructor
      · rintro ⟨h, hx⟩
        rw [Piece.place] at h
        split at h
        · cases h
        rename_i hpercent
        split at h
        · cases h
        rename_i hfeed
        cases hindex : d.index with
        | none =>
            rw [Directive.position_of_index_eq_none hindex] at h
            dsimp only at h
            split at h
            · cases h
              exact absurd trivial hx
            · cases h
        | some digits =>
            obtain ⟨hne, hdigits⟩ := hp digits hindex
            rw [Directive.position_of_index hindex] at h
            rcases Nat.lt_or_ge digitLimit digits.length with hlong | hshort
            · rw [readNumeral_of_digitLimit_lt hdigits hlong] at h
              cases h
              exact ⟨d, digits, rfl, ⟨⟨hpercent, hfeed⟩, hindex, hlong⟩, rfl⟩
            · rw [readNumeral_of_isAsciiDigit hne hdigits hshort] at h
              dsimp only [Except.map] at h
              split at h
              · cases h
                exact absurd trivial hx
              · cases h
      · rintro ⟨d', digits, hd, ⟨⟨hpercent, hfeed⟩, hindex, hlong⟩, rfl⟩
        cases hd
        refine ⟨?_, fun h => h⟩
        rw [Piece.place, if_neg hpercent, if_neg hfeed, Directive.position_of_index hindex,
          readNumeral_of_digitLimit_lt (hp digits hindex).2 hlong]
        rfl

/-- The pieces of a template fail without a report at the first number that is too long, if all
pieces in front of it get their arguments. -/
theorem assign_eq_error_iff (hpieces : ∀ p ∈ pieces, p.IsNumbered) :
    assign template args pieces next = .error x ∧ ¬x.IsReported ↔
      ∃ front d digits back assigned, pieces = front ++ .directive d :: back ∧
        assign template args front next = .ok assigned ∧ d.IsOverlong digits ∧
          x = .numeral (.tooManyDigits digits.length) := by
  constructor
  · rintro ⟨h, hx⟩
    -- by induction on the pieces; a piece in front of the failing one joins the assigned part
    induction pieces generalizing next with
    | nil => cases h
    | cons p pieces ih =>
        obtain ⟨hp, hpieces⟩ := List.forall_mem_cons.1 hpieces
        rw [assign_cons] at h
        rcases bind_eq_error_iff.1 h with h | ⟨q, hq, h⟩
        · obtain ⟨d, digits, rfl, hlong, rfl⟩ := (place_eq_error_iff hp).1 ⟨h, hx⟩
          exact ⟨[], d, digits, pieces, _, rfl, rfl, hlong, rfl⟩
        · obtain ⟨front, d, digits, back, assigned, rfl, hfront, hlong, rfl⟩ :=
            ih hpieces (map_eq_error_iff.1 h)
          refine ⟨p :: front, d, digits, back, (q.1 ++ assigned.1, q.2.1 ++ assigned.2), rfl, ?_,
            hlong, rfl⟩
          rw [assign_cons, hq, ok_bind, hfront]
          rfl
  · rintro ⟨front, d, digits, back, assigned, rfl, hfront, hlong, rfl⟩
    refine ⟨?_, fun h => h⟩
    induction front generalizing next assigned with
    | nil =>
        have hd := hpieces _ (List.mem_append_right [] (List.mem_cons_self ..))
        rw [List.nil_append, assign_cons,
          ((place_eq_error_iff hd).2 ⟨d, digits, rfl, hlong, rfl⟩).1]
        rfl
    | cons p front ih =>
        rw [assign_cons] at hfront
        obtain ⟨q, hq, hrest⟩ := bind_eq_ok_iff.1 hfront
        obtain ⟨r, hr, -⟩ := map_eq_ok_iff.1 hrest
        rw [List.cons_append, assign_cons, hq, ok_bind,
          ih r (fun p hp => hpieces p (List.mem_cons_of_mem _ hp)) hr]
        rfl

end Assignment

section Templates

variable {template : Text} {args : List Argument} {x : TemplateError}

theorem explain_of_isExcess {e : ConversionError} (he : e.family.IsExcess) :
    explain template args e = .tooLarge e := by
  cases hfamily : e.family with
  | overflow | memory => simp only [explain, hfamily]
  | kind | value =>
      rw [hfamily] at he
      exact he.elim

theorem explain_of_listLiteral_eq_ok {e : ConversionError} (he : ¬e.family.IsExcess) {shown : Text}
    (hshown : Argument.listLiteral args = .ok shown) :
    explain template args e = .misfit template shown e := by
  cases hfamily : e.family with
  | overflow | memory =>
      rw [hfamily] at he
      exact absurd trivial he
  | kind | value => simp only [explain, hfamily, hshown]

theorem explain_of_listLiteral_eq_error {e : ConversionError} (he : ¬e.family.IsExcess)
    {d : NumeralError} (hshown : Argument.listLiteral args = .error d) :
    explain template args e = .numeral d := by
  cases hfamily : e.family with
  | overflow | memory =>
      rw [hfamily] at he
      exact absurd trivial he
  | kind | value => simp only [explain, hfamily, hshown]

/-- A failure comes through if it says that something is too large, or if its message has to show
a number with too many digits. -/
theorem explain_eq_iff {e : ConversionError} :
    explain template args e = x ∧ ¬x.IsReported ↔
      e.family.IsExcess ∧ x = .tooLarge e ∨
        ¬e.family.IsExcess ∧ x = .numeral .tooLong ∧
          ∃ i, Argument.integer i ∈ args ∧ Nat.pow 10 digitLimit ≤ i.natAbs := by
  by_cases he : e.family.IsExcess
  · rw [explain_of_isExcess he]
    constructor
    · exact fun h => .inl ⟨he, h.1.symm⟩
    · rintro (⟨-, rfl⟩ | ⟨hnot, -⟩)
      · exact ⟨rfl, fun h => h⟩
      · exact absurd he hnot
  · constructor
    · rintro ⟨h, hx⟩
      cases hshown : Argument.listLiteral args with
      | ok shown =>
          rw [← h, explain_of_listLiteral_eq_ok he hshown] at hx
          exact absurd trivial hx
      | error d =>
          obtain ⟨i, hi, hlong, rfl⟩ := Argument.listLiteral_eq_error_iff.1 hshown
          rw [explain_of_listLiteral_eq_error he hshown] at h
          exact .inr ⟨he, h.symm, i, hi, hlong⟩
    · rintro (⟨hexcess, -⟩ | ⟨-, rfl, i, hi, hlong⟩)
      · exact absurd hexcess he
      · have hshown := Argument.listLiteral_eq_error_iff.2 ⟨i, hi, hlong, rfl⟩
        exact ⟨explain_of_listLiteral_eq_error he hshown, fun h => h⟩

/-- With arguments a template fails at its assignment or at the format that it becomes. -/
theorem formatTemplate_eq_error_iff [Machine] (hargs : args ≠ []) :
    formatTemplate template args = .error x ↔
      assign template args (Piece.ofText template) 0 = .error x ∨
        ∃ format taken e, assign template args (Piece.ofText template) 0 = .ok (format, taken) ∧
          applyFormat format taken = .error e ∧ explain template args e = x := by
  obtain ⟨a, rest, rfl⟩ := List.exists_cons_of_ne_nil hargs
  rw [formatTemplate]
  cases hassign : assign template (a :: rest) (Piece.ofText template) 0 with
  | error y => simp
  | ok q =>
      obtain ⟨format, taken⟩ := q
      cases hformat : applyFormat format taken with
      | error e => simp [hformat]
      | ok t => simp [hformat]

/-- The failures that come through from a template with its arguments: the number of an argument
that has too many digits, a field that is too large, and a message that cannot be written because
it has to show a number with too many digits. -/
inductive Unreported [Machine] (template : Text) (args : List Argument) : TemplateError → Prop
  | number {front back : List Piece} {d : Directive} {digits : Text}
      {assigned : Text × List Argument}
      (hpieces : Piece.ofText template = front ++ .directive d :: back)
      (hfront : assign template args front 0 = .ok assigned) (hlong : d.IsOverlong digits) :
      Unreported template args (.numeral (.tooManyDigits digits.length))
  | field {format : Text} {taken rest : List Argument} {s : FieldSpec} {e : ConversionError}
      (hassign : assign template args (Piece.ofText template) 0 = .ok (format, taken))
      (hreach : Reaches (Item.ofText format.length format) taken s rest)
      (hexceeds : s.Exceeds rest e) : Unreported template args (.tooLarge e)
  | message {format : Text} {taken : List Argument} {e : ConversionError} {i : Int}
      (hassign : assign template args (Piece.ofText template) 0 = .ok (format, taken))
      (hformat : applyFormat format taken = .error e) (he : ¬e.family.IsExcess)
      (hi : Argument.integer i ∈ args) (hlong : Nat.pow 10 digitLimit ≤ i.natAbs) :
      Unreported template args (.numeral .tooLong)

/-- A template without arguments is filled.  With arguments it fails without a report exactly at a
failure that comes through. -/
theorem formatTemplate_unreported_iff [Machine] :
    (∃ t, formatTemplate template [] = .ok t) ∧
      (formatTemplate template args = .error x ∧ ¬x.IsReported ↔
        args ≠ [] ∧ Unreported template args x) := by
  refine ⟨⟨_, rfl⟩, ?_⟩
  constructor
  · rintro ⟨h, hx⟩
    have hargs : args ≠ [] := by
      rintro rfl
      cases h
    refine ⟨hargs, ?_⟩
    rcases (formatTemplate_eq_error_iff hargs).1 h with h | ⟨format, taken, e, hassign, hformat, h⟩
    · obtain ⟨front, d, digits, back, assigned, hpieces, hfront, hlong, rfl⟩ :=
        (assign_eq_error_iff (isNumbered_of_mem_ofText template)).1 ⟨h, hx⟩
      exact .number hpieces hfront hlong
    · rcases explain_eq_iff.1 ⟨h, hx⟩ with ⟨he, rfl⟩ | ⟨he, rfl, i, hi, hlong⟩
      · obtain ⟨s, rest, hreach, hexceeds⟩ := overflows_applyAll_iff.1 ⟨hformat, he⟩
        exact .field hassign hreach hexceeds
      · exact .message hassign hformat he hi hlong
  · rintro ⟨hargs, h⟩
    rw [formatTemplate_eq_error_iff hargs]
    cases h with
    | number hpieces hfront hlong =>
        obtain ⟨hassign, hx⟩ := (assign_eq_error_iff (isNumbered_of_mem_ofText template)).2
          ⟨_, _, _, _, _, hpieces, hfront, hlong, rfl⟩
        exact ⟨.inl hassign, hx⟩
    | field hassign hreach hexceeds =>
        obtain ⟨hformat, he⟩ := overflows_applyAll_iff.2 ⟨_, _, hreach, hexceeds⟩
        obtain ⟨hexplain, hx⟩ := explain_eq_iff.2 (.inl ⟨he, rfl⟩)
        exact ⟨.inr ⟨_, _, _, hassign, hformat, hexplain⟩, hx⟩
    | message hassign hformat he hi hlong =>
        obtain ⟨hexplain, hx⟩ := explain_eq_iff.2 (.inr ⟨he, rfl, _, hi, hlong⟩)
        exact ⟨.inr ⟨_, _, _, hassign, hformat, hexplain⟩, hx⟩

/-- A number that is no character comes through. -/
theorem formatTemplate_unreported_character :
    formatTemplate "%c".toList [.integer 0x110000] = .error (.tooLarge .characterOutOfRange) ∧
      ¬(TemplateError.tooLarge .characterOutOfRange).IsReported := by
  refine ⟨?_, fun h => h⟩
  have hpieces : Piece.ofText "%c".toList = [.directive ⟨none, [], 'c'⟩] := by cbv
  have hassign : assign "%c".toList [.integer 0x110000] [.directive ⟨none, [], 'c'⟩] 0 =
      .ok ("%c".toList, [.integer 0x110000]) := rfl
  have hformat : applyFormat "%c".toList [.integer 0x110000] = .error .characterOutOfRange := by
    rw [applyFormat]
    change Item.applyAll (Item.ofText 2 ['%', 'c']) _ = _
    rw [Item.ofText_letter (by decide) (by decide), Item.ofText]
    rfl
  rw [formatTemplate, hpieces, hassign]
  simp only [hformat]
  rfl

end Templates

end Printf
end Phrasebook
