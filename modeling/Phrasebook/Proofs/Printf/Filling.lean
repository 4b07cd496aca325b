import Mathlib
import Phrasebook.Proofs.Printf.Escapes
import Phrasebook.Proofs.Printf.Reporting

/-!
# Filling templates

A template of texts, escapes and bare directives is filled part by part.  A directive without a
number takes the argument that comes next in order, however many numbered directives stand between.

**Parts.**  `Part` lists what such a template is made of, and `Part.slot?` is what a part becomes: a
text, or an argument with the way in which it is shown.
**Assignment.**  Pieces are assigned what their parts become, or an argument is missing
(`assign_parts`, `assign_parts_missing`).
**Showing.**  The format shows these texts and arguments one after the other, or an argument is no
number (`applyAll_slots`, `applyAll_slots_misfit`).
**Result.**  `formatTemplate_parts`: the texts of the parts make up the filled template.  If a part
has none, the failure is reported.
-/

namespace Phrasebook

/-- Is the argument a text, or a whole number that can be written? -/
def Argument.IsPlain : Argument → Prop
  | .text _ => True
  | .integer i => (decimalDigits i.natAbs).length ≤ digitLimit
  | _ => False

namespace Printf

section Parts

/-- What a bare directive shows: any argument, or numbers only. -/
inductive Kind
  | text
  | number
deriving DecidableEq

/-- The letter of a bare directive. -/
def Kind.letter : Kind → Char
  | .text => 's'
  | .number => 'd'

/-- The text that a bare directive shows for an argument. -/
def Kind.shown? : Kind → Argument → Option Text
  | .text, .text t => some t
  | .text, .integer i | .number, .integer i => some (integerText i)
  | _, _ => none

/-- A part of a template; the position of an argument is counted from zero. -/
inductive Part
  | literal (t : Text) (ht : '%' ∉ t)
  | percent
  | feed
  | next (kind : Kind)
  | numbered (position : Nat) (hposition : (decimalDigits (position + 1)).length ≤ digitLimit)
      (kind : Kind)

/-- A part as it stands in a template. -/
def Part.toText : Part → Text
  | .literal t _ => t
  | .percent => ['%', '%']
  | .feed => ['%', 'n']
  | .next kind => ['%', kind.letter]
  | .numbered position _ kind => '%' :: decimalDigits (position + 1) ++ ['$', kind.letter]

/-- Does a part take the argument that comes next in order? -/
def Part.isNext : Part → Bool
  | .next _ => true
  | _ => false

/-- What a part of a template becomes. -/
inductive Slot
  | literal (t : Text)
  | field (kind : Kind) (a : Argument)

/-- The text that is shown for a part. -/
def Slot.shown? : Slot → Option Text
  | .literal t => some t
  | .field kind a => kind.shown? a

/-- What a part becomes behind the given parts, if there is an argument for it. -/
def Part.slot? (args : List Argument) (front : List Part) : Part → Option Slot
  | .literal t _ => some (.literal t)
  | .percent => some (.literal ['%'])
  | .feed => some (.literal ['\n'])
  | .next kind => args[front.countP isNext]?.map (.field kind)
  | .numbered position _ kind => args[position]?.map (.field kind)

/-- What the parts of a template become behind the given parts. -/
def slots (args : List Argument) (front parts : List Part) : List (Option Slot) :=
  parts.mapIdx fun i p => p.slot? args (front ++ parts.take i)

/-- The texts that are shown for the parts of a template, where there is one. -/
def readings (args : List Argument) (parts : List Part) : List (Option Text) :=
  (slots args [] parts).map fun slot => slot.bind Slot.shown?

end Parts

section Reading

/-- The pieces of a part. -/
def Part.pieces : Part → List Piece
  | .literal t _ => t.map .literal
  | .percent => [.directive ⟨none, [], '%'⟩]
  | .feed => [.directive ⟨none, [], 'n'⟩]
  | .next kind => [.directive ⟨none, [], kind.letter⟩]
  | .numbered position _ kind =>
      [.directive ⟨some (decimalDigits (position + 1)), [], kind.letter⟩]

variable {d : Directive} {rest t : Text}

theorem Piece.ofText_literal (ht : '%' ∉ t) (rest : Text) :
    Piece.ofText (t ++ rest) = t.map .literal ++ Piece.ofText rest := by
  induction t with
  | nil => rfl
  | cons c t ih =>
      rw [List.mem_cons, not_or] at ht
      rw [List.cons_append, Piece.ofText, if_neg (Ne.symm ht.1), ih ht.2, List.map_cons,
        List.cons_append]

theorem Piece.ofText_directive (h : Directive.ofText? t = some (d, rest)) :
    Piece.ofText ('%' :: t) = .directive d :: Piece.ofText rest := by
  rw [Piece.ofText, if_pos rfl]
  split
  · rename_i d' rest' h'
    rw [h] at h'
    cases h'
    rfl
  · rename_i h'
    rw [h] at h'
    cases h'

theorem specOf?_letter (index : Option Text) (kind : Kind) (rest : Text) :
    specOf? index (kind.letter :: rest) = some (⟨index, [], kind.letter⟩, rest) := by
  cases kind <;> rfl

theorem indexOf?_decimalDigits (position : Nat) (rest : Text) :
    indexOf? (decimalDigits (position + 1) ++ '$' :: rest) =
      some (decimalDigits (position + 1), rest) := by
  have hall : ∀ c ∈ decimalDigits (position + 1), isAsciiDigit c = true :=
    fun c hc => isAsciiDigit_of_mem_decimalDigits hc
  have hdrop : (decimalDigits (position + 1) ++ '$' :: rest).dropWhile isAsciiDigit =
      '$' :: rest := by
    rw [List.dropWhile_append_of_pos hall]
    rfl
  have htake : (decimalDigits (position + 1) ++ '$' :: rest).takeWhile isAsciiDigit =
      decimalDigits (position + 1) := by
    rw [List.takeWhile_append_of_pos hall, List.takeWhile_cons_of_neg (by decide),
      List.append_nil]
  obtain ⟨first, more, hdigits, hfirst⟩ := decimalDigits_succ_eq_cons position
  rw [indexOf?, hdrop, htake, hdigits]
  exact if_neg hfirst

/-- The pieces of a template are those of its parts. -/
theorem Piece.ofText_part (p : Part) (rest : Text) :
    Piece.ofText (p.toText ++ rest) = p.pieces ++ Piece.ofText rest := by
  cases p with
  | literal t ht => exact Piece.ofText_literal ht rest
  | percent | feed => exact Piece.ofText_directive rfl
  | next kind =>
      refine Piece.ofText_directive ?_
      cases kind <;> rfl
  | numbered position hposition kind =>
      have hread : Directive.ofText? (decimalDigits (position + 1) ++ '$' :: kind.letter :: rest) =
          some (⟨some (decimalDigits (position + 1)), [], kind.letter⟩, rest) := by
        rw [Directive.ofText?, indexOf?_decimalDigits]
        exact specOf?_letter _ kind rest
      exact (congrArg Piece.ofText (List.append_assoc ..)).trans (Piece.ofText_directive hread)

theorem Piece.ofText_parts (parts : List Part) :
    Piece.ofText (parts.flatMap Part.toText) = parts.flatMap Part.pieces := by
  induction parts with
  | nil => rw [List.flatMap_nil, List.flatMap_nil, Piece.ofText]
  | cons p parts ih => rw [List.flatMap_cons, List.flatMap_cons, Piece.ofText_part, ih]

end Reading

section Assignment

variable {template : Text} {args : List Argument} {front : List Part} {p : Part}
  {pieces : List Piece} {slot : Slot}

/-- The place of a slot in the format. -/
def Slot.format : Slot → Text
  | .literal t => t.flatMap escaped
  | .field kind _ => ['%', kind.letter]

/-- The argument that a slot takes. -/
def Slot.taken : Slot → List Argument
  | .literal _ => []
  | .field _ a => [a]

theorem flatMap_escaped_of_not_mem {t : Text} (ht : '%' ∉ t) : t.flatMap escaped = t := by
  induction t with
  | nil => rfl
  | cons c t ih =>
      rw [List.mem_cons, not_or] at ht
      rw [List.flatMap_cons, escaped, if_neg (Ne.symm ht.1), ih ht.2, List.singleton_append]

theorem assign_literals (t : Text) (pieces : List Piece) (next : Nat) :
    assign template args (t.map .literal ++ pieces) next =
      (assign template args pieces next).map fun r => (t ++ r.1, r.2) := by
  induction t with
  | nil =>
      rw [List.map_nil, List.nil_append]
      cases assign template args pieces next <;> rfl
  | cons c t ih =>
      rw [List.map_cons, List.cons_append, assign_cons, Piece.place, ok_bind, ih]
      cases assign template args pieces next <;> rfl

theorem position_decimalDigits {position : Nat}
    (hposition : (decimalDigits (position + 1)).length ≤ digitLimit) (kind : Kind) (next : Nat) :
    Directive.position ⟨some (decimalDigits (position + 1)), [], kind.letter⟩ next =
      .ok (position, next) := by
  rw [Directive.position_of_index rfl, readNumeral_decimalDigits hposition]
  rfl

theorem place_letter {index : Option Text} {kind : Kind} {next position behind : Nat} {a : Argument}
    (hposition : Directive.position ⟨index, [], kind.letter⟩ next = .ok (position, behind))
    (ha : args[position]? = some a) :
    Piece.place template args (.directive ⟨index, [], kind.letter⟩) next =
      .ok (['%', kind.letter], [a], behind) := by
  have hpercent : kind.letter ≠ '%' := by cases kind <;> decide
  have hfeed : kind.letter ≠ 'n' := by cases kind <;> decide
  rw [Piece.place, if_neg hpercent, if_neg hfeed, hposition]
  simp only [ha]
  rfl

theorem place_letter_missing {index : Option Text} {kind : Kind} {next position behind : Nat}
    (hposition : Directive.position ⟨index, [], kind.letter⟩ next = .ok (position, behind))
    (ha : args[position]? = none) :
    Piece.place template args (.directive ⟨index, [], kind.letter⟩) next =
      .error (.missingArgument template (position + 1) args.length) := by
  have hpercent : kind.letter ≠ '%' := by cases kind <;> decide
  have hfeed : kind.letter ≠ 'n' := by cases kind <;> decide
  rw [Piece.place, if_neg hpercent, if_neg hfeed, hposition]
  simp only [ha]

/-- A part with its slot. -/
theorem assign_part (h : p.slot? args front = some slot) :
    assign template args (p.pieces ++ pieces) (front.countP Part.isNext) =
      (assign template args pieces ((front ++ [p]).countP Part.isNext)).map fun r =>
        (slot.format ++ r.1, slot.taken ++ r.2) := by
  rw [List.countP_append]
  cases p with
  | literal t ht =>
      cases h
      rw [Part.pieces, assign_literals, Slot.format, flatMap_escaped_of_not_mem ht]
      rfl
  | percent | feed =>
      cases h
      rw [Part.pieces, List.singleton_append, assign_cons, Piece.place]
      rfl
  | next kind =>
      obtain ⟨a, ha, rfl⟩ := Option.map_eq_some_iff.1 h
      rw [Part.pieces, List.singleton_append, assign_cons, place_letter rfl ha]
      rfl
  | numbered position hposition kind =>
      obtain ⟨a, ha, rfl⟩ := Option.map_eq_some_iff.1 h
      rw [Part.pieces, List.singleton_append, assign_cons,
        place_letter (position_decimalDigits hposition kind _) ha]
      rfl

/-- A part without a slot. -/
theorem assign_part_missing (h : p.slot? args front = none) :
    ∃ needed, assign template args (p.pieces ++ pieces) (front.countP Part.isNext) =
      .error (.missingArgument template needed args.length) := by
  cases p with
  | literal | percent | feed => cases h
  | next kind =>
      refine ⟨front.countP Part.isNext + 1, ?_⟩
      rw [Part.pieces, List.singleton_append, assign_cons,
        place_letter_missing rfl (Option.map_eq_none_iff.1 h)]
      rfl
  | numbered position hposition kind =>
      refine ⟨position + 1, ?_⟩
      rw [Part.pieces, List.singleton_append, assign_cons,
        place_letter_missing (position_decimalDigits hposition kind _)
          (Option.map_eq_none_iff.1 h)]
      rfl

theorem slots_cons (args : List Argument) (front : List Part) (p : Part) (parts : List Part) :
    slots args front (p :: parts) = p.slot? args front :: slots args (front ++ [p]) parts := by
  rw [slots, List.mapIdx_cons, List.take_zero, List.append_nil, slots]
  simp only [List.take_succ_cons, List.append_assoc, List.singleton_append]

/-- The parts of a template with their slots. -/
theorem assign_parts {parts : List Part} {found : List Slot}
    (h : slots args front parts = found.map some) :
    assign template args (parts.flatMap Part.pieces) (front.countP Part.isNext) =
      .ok (found.flatMap Slot.format, found.flatMap Slot.taken) := by
  -- the next argument in order is the one behind those that the parts in front have taken
  induction parts generalizing front found with
  | nil =>
      cases found with
      | nil => rfl
      | cons slot found => cases h
  | cons p parts ih =>
      rw [slots_cons] at h
      obtain ⟨slot, behind, rfl, hslot, hbehind⟩ := List.map_eq_cons_iff.1 h.symm
      rw [List.flatMap_cons, assign_part hslot.symm, ih hbehind.symm, List.flatMap_cons,
        List.flatMap_cons]
      rfl

/-- The parts of a template of which one has no slot. -/
theorem assign_parts_missing {parts : List Part} (h : none ∈ slots args front parts) :
    ∃ needed, assign template args (parts.flatMap Part.pieces) (front.countP Part.isNext) =
      .error (.missingArgument template needed args.length) := by
  induction parts generalizing front with
  | nil => cases h
  | cons p parts ih =>
      rw [slots_cons] at h
      cases hslot : p.slot? args front with
      | none => exact assign_part_missing hslot
      | some slot =>
          have hbehind := (List.mem_cons.1 h).resolve_left fun hnone => by
            rw [hslot] at hnone
            cases hnone
          obtain ⟨needed, hneeded⟩ := ih hbehind
          refine ⟨needed, ?_⟩
          rw [List.flatMap_cons, assign_part hslot, hneeded]
          rfl

end Assignment

section Showing

variable {kind : Kind} {a : Argument} {rest taken : List Argument} {position total : Nat}
  {slot : Slot} {t format : Text}

/-- The field of a directive with nothing in front of its letter. -/
def bareField : Field :=
  ⟨false, false, false, false, false, 0, none⟩

theorem pad_bareField (c : Content) : bareField.pad c = c.sign ++ c.marker ++ c.body := by
  simp only [Field.pad, bareField, Nat.zero_sub, List.replicate_zero, List.nil_append,
    Bool.false_and, Bool.false_eq_true, if_false]

theorem convert_bareField [Machine] {c : Char} {shown : Content}
    (h : content bareField c position a = .ok shown) :
    convert bareField c position a = .ok (shown.sign ++ shown.marker ++ shown.body) := by
  have hfits : ¬Machine.fieldWidth < bareField.width := Nat.not_lt_zero _
  rw [convert, h, ok_bind, if_neg hfits, pad_bareField]
  rfl

theorem content_text_bareField (h : a.display = .ok t) :
    content bareField 's' position a = .ok ⟨false, [], [], t⟩ := by
  change (liftNumeral a.display).map bareField.textContent = _
  rw [h]
  rfl

theorem content_decimal_bareField {i : Int} (hi : (decimalDigits i.natAbs).length ≤ digitLimit) :
    content bareField 'd' position (.integer i) =
      .ok ⟨true, if i < 0 then ['-'] else [], [], decimalDigits i.natAbs⟩ := by
  have hsign : bareField.signText (decide (i < 0)) = if i < 0 then ['-'] else [] := by
    simp only [Field.signText, decide_eq_true_eq]
    rfl
  have hdigits : padZeros (bareField.precision.getD 0) (decimalDigits i.natAbs) =
      decimalDigits i.natAbs := by
    change padZeros 0 (decimalDigits i.natAbs) = _
    rw [padZeros, Nat.zero_sub, List.replicate_zero, List.nil_append]
  rw [content_decimal (by decide), convertDecimal, decimalValue, ok_bind, checkPrecision,
    if_neg (by decide), ok_bind, writeNumeral_eq_ok hi, liftNumeral, ok_bind,
    Field.integerContent, hsign, hdigits]
  rfl

/-- A plain argument of the right kind is shown by its text. -/
theorem convert_of_shown [Machine] (ha : a.IsPlain) (h : kind.shown? a = some t) :
    convert bareField kind.letter position a = .ok t := by
  cases a with
  | text u =>
      cases kind with
      | number => cases h
      | text =>
          cases h
          exact convert_bareField (content_text_bareField rfl)
  | integer i =>
      cases kind with
      | text =>
          cases h
          have hdisplay : Argument.display (.integer i) = .ok (integerText i) :=
            writeNumeral_eq_ok ha
          exact convert_bareField (content_text_bareField hdisplay)
      | number =>
          cases h
          rw [Kind.letter, convert_bareField (content_decimal_bareField ha), integerText_eq,
            List.append_nil]
  | truth b | real x | nothing => exact ha.elim

/-- A text is no number. -/
theorem convert_of_not_shown [Machine] (ha : a.IsPlain) (h : kind.shown? a = none) :
    convert bareField kind.letter position a = .error (.realRequired kind.letter a.kind) := by
  cases a with
  | text u =>
      cases kind with
      | text => cases h
      | number => rfl
  | integer i => cases kind <;> cases h
  | truth b | real x | nothing => exact ha.elim

theorem apply_bareField [Machine] (c : Char) (position : Nat) (a : Argument)
    (rest : List Argument) :
    FieldSpec.apply ⟨[], .absent, .absent, some (c, position)⟩ (a :: rest) =
      (convert bareField c position a).map fun t => (t, rest) :=
  FieldSpec.Takes.apply_eq ⟨0, none, a :: rest, rfl, rfl, rfl, rfl⟩

theorem Item.ofText_kind (kind : Kind) (total : Nat) (format : Text) :
    Item.ofText total ('%' :: kind.letter :: format) =
      .field ⟨[], .absent, .absent, some (kind.letter, total - format.length - 1)⟩ ::
        Item.ofText total format := by
  cases kind <;> exact Item.ofText_letter (by decide) (by decide) total format

/-- Is the argument that a slot takes, if it takes one, plain? -/
def Slot.IsPlain : Slot → Prop
  | .literal _ => True
  | .field _ a => a.IsPlain

/-- A slot with its text. -/
theorem applyAll_slot [Machine] (hplain : slot.IsPlain) (h : slot.shown? = some t) :
    Item.applyAll (Item.ofText total (slot.format ++ format)) (slot.taken ++ taken) =
      (Item.applyAll (Item.ofText total format) taken).map fun shown => t ++ shown := by
  cases slot with
  | literal u =>
      cases h
      rw [Slot.format, Item.ofText_flatMap_escaped, Item.applyAll_literals]
      rfl
  | field kind a =>
      change Item.applyAll (Item.ofText total ('%' :: kind.letter :: format)) (a :: taken) = _
      rw [Item.ofText_kind, Item.applyAll, apply_bareField, convert_of_shown hplain h]
      change (Item.applyAll (Item.ofText total format) taken >>= fun tail => pure (t ++ tail)) = _
      cases Item.applyAll (Item.ofText total format) taken <;> rfl

/-- A slot without a text. -/
theorem applyAll_slot_misfit [Machine] (hplain : slot.IsPlain) (h : slot.shown? = none) :
    ∃ c kind, Item.applyAll (Item.ofText total (slot.format ++ format)) (slot.taken ++ taken) =
      .error (.realRequired c kind) := by
  cases slot with
  | literal u => cases h
  | field kind a =>
      refine ⟨kind.letter, a.kind, ?_⟩
      change Item.applyAll (Item.ofText total ('%' :: kind.letter :: format)) (a :: taken) = _
      rw [Item.ofText_kind, Item.applyAll, apply_bareField, convert_of_not_shown hplain h]
      rfl

/-- The format shows the texts of the slots. -/
theorem applyAll_slots [Machine] {found : List Slot} {texts : List Text}
    (hplain : ∀ slot ∈ found, slot.IsPlain) (h : found.map Slot.shown? = texts.map some) :
    Item.applyAll (Item.ofText total (found.flatMap Slot.format)) (found.flatMap Slot.taken) =
      .ok texts.flatten := by
  induction found generalizing texts with
  | nil =>
      cases texts with
      | nil => rw [List.flatMap_nil, Item.ofText]; rfl
      | cons t texts => cases h
  | cons slot found ih =>
      obtain ⟨hslot, hfound⟩ := List.forall_mem_cons.1 hplain
      obtain ⟨t, behind, rfl, ht, hbehind⟩ := List.map_eq_cons_iff.1 h.symm
      rw [List.flatMap_cons, List.flatMap_cons, applyAll_slot hslot ht.symm,
        ih hfound hbehind.symm, List.flatten_cons]
      rfl

/-- The format fails at the first slot without a text. -/
theorem applyAll_slots_misfit [Machine] {found : List Slot} (hplain : ∀ slot ∈ found, slot.IsPlain)
    (h : none ∈ found.map Slot.shown?) :
    ∃ c kind, Item.applyAll (Item.ofText total (found.flatMap Slot.format))
      (found.flatMap Slot.taken) = .error (.realRequired c kind) := by
  induction found with
  | nil => cases h
  | cons slot found ih =>
      obtain ⟨hslot, hfound⟩ := List.forall_mem_cons.1 hplain
      rw [List.flatMap_cons, List.flatMap_cons]
      cases hshown : slot.shown? with
      | none => exact applyAll_slot_misfit hslot hshown
      | some t =>
          have hbehind := (List.mem_cons.1 h).resolve_left fun hnone => by
            rw [hshown] at hnone
            cases hnone
          obtain ⟨c, kind, hmisfit⟩ := ih hfound hbehind
          refine ⟨c, kind, ?_⟩
          rw [applyAll_slot hslot hshown, hmisfit]
          rfl

end Showing

section Results

variable {args : List Argument} {front parts : List Part}

theorem eq_map_some_or_mem {α : Type} (xs : List (Option α)) :
    (∃ found : List α, xs = found.map some) ∨ none ∈ xs := by
  induction xs with
  | nil => exact .inl ⟨[], rfl⟩
  | cons x xs ih =>
      cases x with
      | none => exact .inr List.mem_cons_self
      | some a =>
          rcases ih with ⟨found, rfl⟩ | hnone
          · exact .inl ⟨a :: found, rfl⟩
          · exact .inr (List.mem_cons_of_mem _ hnone)

/-- A slot takes one of the arguments. -/
theorem isPlain_of_mem_slots (hplain : ∀ a ∈ args, a.IsPlain) {slot : Slot}
    (h : some slot ∈ slots args front parts) : slot.IsPlain := by
  obtain ⟨i, hi, hslot⟩ := List.mem_mapIdx.1 h
  cases hpart : parts[i] with
  | literal t ht =>
      rw [hpart] at hslot
      cases hslot
      trivial
  | percent | feed =>
      rw [hpart] at hslot
      cases hslot
      trivial
  | next kind | numbered position hposition kind =>
      rw [hpart] at hslot
      obtain ⟨a, ha, rfl⟩ := Option.map_eq_some_iff.1 hslot
      exact hplain a (List.mem_of_getElem? ha)

/-- With plain arguments the message about an argument of the wrong kind can be written. -/
theorem isReported_explain_of_isPlain (hplain : ∀ a ∈ args, a.IsPlain) (template : Text) (c : Char)
    (kind : String) : (explain template args (.realRequired c kind)).IsReported := by
  by_contra hx
  rcases explain_eq_iff.1 ⟨rfl, hx⟩ with ⟨he, -⟩ | ⟨-, -, i, hi, hlong⟩
  · exact he
  · have hshort := (length_decimalDigits_le_iff (by decide)).1 (hplain _ hi)
    exact absurd hshort (Nat.not_lt.2 hlong)

section Outcomes

variable {found : List Slot}

theorem isPlain_of_mem_found (hplain : ∀ a ∈ args, a.IsPlain)
    (hfound : slots args [] parts = found.map some) : ∀ slot ∈ found, slot.IsPlain :=
  fun _ hslot => isPlain_of_mem_slots hplain (hfound ▸ List.mem_map_of_mem hslot)

theorem assign_found (hfound : slots args [] parts = found.map some) :
    assign (parts.flatMap Part.toText) args (Piece.ofText (parts.flatMap Part.toText)) 0 =
      .ok (found.flatMap Slot.format, found.flatMap Slot.taken) := by
  rw [Piece.ofText_parts]
  exact assign_parts hfound

variable [Machine]

/-- All parts have a slot, and all slots a text. -/
theorem formatTemplate_shown (hargs : args ≠ []) (hplain : ∀ a ∈ args, a.IsPlain)
    (hfound : slots args [] parts = found.map some) {texts : List Text}
    (htexts : found.map Slot.shown? = texts.map some) :
    formatTemplate (parts.flatMap Part.toText) args = .ok texts.flatten := by
  obtain ⟨a, rest, rfl⟩ := List.exists_cons_of_ne_nil hargs
  have hformat : applyFormat (found.flatMap Slot.format) (found.flatMap Slot.taken) =
      .ok texts.flatten := applyAll_slots (isPlain_of_mem_found hplain hfound) htexts
  rw [formatTemplate, assign_found hfound]
  simp only [hformat]

/-- All parts have a slot, but a slot has no text. -/
theorem formatTemplate_misfit (hargs : args ≠ []) (hplain : ∀ a ∈ args, a.IsPlain)
    (hfound : slots args [] parts = found.map some) (hnone : none ∈ found.map Slot.shown?) :
    ∃ e, formatTemplate (parts.flatMap Part.toText) args = .error e ∧ e.IsReported := by
  obtain ⟨c, kind, hmisfit⟩ := applyAll_slots_misfit (isPlain_of_mem_found hplain hfound) hnone
  have herror := (formatTemplate_eq_error_iff hargs).2
    (.inr ⟨_, _, _, assign_found hfound, hmisfit, rfl⟩)
  exact ⟨_, herror, isReported_explain_of_isPlain hplain _ _ _⟩

/-- A part has no slot. -/
theorem formatTemplate_missing (hargs : args ≠ []) (hnone : none ∈ slots args [] parts) :
    ∃ e, formatTemplate (parts.flatMap Part.toText) args = .error e ∧ e.IsReported := by
  have hassign : ∃ needed, assign (parts.flatMap Part.toText) args
      (Piece.ofText (parts.flatMap Part.toText)) 0 =
        .error (.missingArgument (parts.flatMap Part.toText) needed args.length) := by
    rw [Piece.ofText_parts]
    exact assign_parts_missing hnone
  obtain ⟨needed, hneeded⟩ := hassign
  exact ⟨_, (formatTemplate_eq_error_iff hargs).2 (.inl hneeded), trivial⟩

end Outcomes

/-- A template of texts, escapes and bare directives shows the texts of its parts one after the
other, and surplus arguments are ignored.  If a part has no text, because its argument is missing or
is no number, the failure is reported. -/
theorem formatTemplate_parts [Machine] (hargs : args ≠ []) (hplain : ∀ a ∈ args, a.IsPlain) :
    (∀ texts : List Text, readings args parts = texts.map some →
      formatTemplate (parts.flatMap Part.toText) args = .ok texts.flatten) ∧
    (none ∈ readings args parts →
      ∃ e, formatTemplate (parts.flatMap Part.toText) args = .error e ∧ e.IsReported) := by
  rcases eq_map_some_or_mem (slots args [] parts) with ⟨found, hfound⟩ | hnone
  · have hreadings : readings args parts = found.map Slot.shown? := by
      rw [readings, hfound, List.map_map]
      rfl
    rw [hreadings]
    exact ⟨fun texts htexts => formatTemplate_shown hargs hplain hfound htexts,
      formatTemplate_misfit hargs hplain hfound⟩
  · have hreadings : none ∈ readings args parts := List.mem_map.2 ⟨none, hnone, rfl⟩
    refine ⟨fun texts htexts => ?_, fun _ => formatTemplate_missing hargs hnone⟩
    -- the part without a slot has no text either
    rw [htexts] at hreadings
    exact absurd hreadings (by simp)

/-- A directive with a number stands between two without, and takes the argument of the second. -/
theorem formatTemplate_parts_mixed :
    (∀ a ∈ [.text "100%s".toList, .integer (-7)], Argument.IsPlain a) ∧
      formatTemplate "%s%%: %2$s%n(%d)".toList [.text "100%s".toList, .integer (-7)] =
        .ok "100%s%: -7\n(-7)".toList ∧
      ∃ e, formatTemplate "%1$d".toList [.text "100%s".toList, .integer (-7)] = .error e ∧
        e.IsReported := by
  have hplain : ∀ a ∈ [.text "100%s".toList, .integer (-7)], Argument.IsPlain a := by
    intro a ha
    rcases List.mem_pair.1 ha with rfl | rfl
    · trivial
    · exact (by decide : (decimalDigits 7).length ≤ digitLimit)
  have hshort : (decimalDigits (1 + 1)).length ≤ digitLimit := by decide
  have hreadings : readings [.text "100%s".toList, .integer (-7)]
      [.next .text, .percent, .literal ": ".toList (by decide), .numbered 1 hshort .text, .feed,
        .literal ['('] (by decide), .next .number, .literal [')'] (by decide)] =
      ["100%s".toList, ['%'], ": ".toList, "-7".toList, ['\n'], ['('], "-7".toList, [')']].map
        some := rfl
  have hmisfit : none ∈ readings [.text "100%s".toList, .integer (-7)]
      [.numbered 0 (by decide) .number] := List.mem_cons_self
  exact ⟨hplain, (formatTemplate_parts (List.cons_ne_nil _ _) hplain).1 _ hreadings,
    (formatTemplate_parts (List.cons_ne_nil _ _) hplain).2 hmisfit⟩

end Results

end Printf
end Phrasebook
