import Phrasebook.Text.Blank

/-!
# Cutting and trimming

What the cutting functions give on a text that is put together from known parts.

**Cuts.**  The cut at a character takes the part without that character away.
**Trimming.**  A text that neither begins nor ends with a blank is trimmed.
**Parts.**  Whatever is cut out of a text stands in it without a gap.
-/

namespace Phrasebook
namespace Text

section Cuts

variable {c x : Char} {front rest : Text}

theorem after?_append (h : c ∉ front) : after? c (front ++ c :: rest) = some rest := by
  induction front with
  | nil => exact if_pos rfl
  | cons x front ih =>
      rw [List.mem_cons, not_or] at h
      rw [List.cons_append, after?, if_neg (Ne.symm h.1), ih h.2]

theorem after?_of_not_mem (h : c ∉ front) : after? c front = none := by
  induction front with
  | nil => rfl
  | cons x front ih =>
      rw [List.mem_cons, not_or] at h
      rw [after?, if_neg (Ne.symm h.1), ih h.2]

theorem before_of_not_mem_append (h : c ∉ front) (t : Text) :
    before c (front ++ t) = front ++ before c t := by
  have hall : ∀ x ∈ front, (x != c) = true := by
    intro x hx
    rw [bne_iff_ne]
    rintro rfl
    exact h hx
  exact List.takeWhile_append_of_pos hall

theorem before_append (h : c ∉ front) : before c (front ++ c :: rest) = front := by
  rw [before_of_not_mem_append h, before, List.takeWhile_cons_of_neg (by simp), List.append_nil]

theorem before_of_not_mem (h : c ∉ front) : before c front = front := by
  simpa [before] using before_of_not_mem_append h []

/-- A text does not begin with more of a word for what stands behind a character that is not in the
word. -/
theorem startsWith_append_cons {word : Text} (h : c ∉ word) :
    startsWith (front ++ c :: rest) word = startsWith front word := by
  induction front generalizing word with
  | nil =>
      cases word with
      | nil => rfl
      | cons x word =>
          have hx : (x == c) = false := beq_eq_false_iff_ne.2 fun hxc => h (by simp [hxc])
          simp [startsWith, List.isPrefixOf, hx]
  | cons y front ih =>
      cases word with
      | nil => rfl
      | cons x word =>
          have hrest := ih (List.not_mem_of_not_mem_cons h)
          exact congrArg (fun b => x == y && b) hrest

theorem splitOn_cons_of_ne (h : x ≠ c) (t : Text) :
    splitOn c (x :: t) = (x :: (splitOn c t).headD []) :: (splitOn c t).tail := by
  rw [splitOn, if_neg h]
  cases hsplit : splitOn c t with
  | nil => exact absurd hsplit (splitOn_ne_nil c t)
  | cons part parts => rfl

theorem splitOn_append_cons (front rest : Text) :
    splitOn c (front ++ c :: rest) = splitOn c front ++ splitOn c rest := by
  induction front with
  | nil => simp [splitOn]
  | cons x front ih =>
      by_cases h : x = c
      · simp [splitOn, h, ih]
      · rw [List.cons_append, splitOn_cons_of_ne h, splitOn_cons_of_ne h, ih]
        cases hsplit : splitOn c front with
        | nil => exact absurd hsplit (splitOn_ne_nil c front)
        | cons part parts => simp

theorem splitOn_of_not_mem (h : c ∉ front) : splitOn c front = [front] := by
  induction front with
  | nil => rfl
  | cons x front ih =>
      rw [List.mem_cons, not_or] at h
      rw [splitOn_cons_of_ne (Ne.symm h.1), ih h.2]
      rfl

theorem not_mem_of_mem_splitOn {part t : Text} (h : part ∈ splitOn c t) : c ∉ part := by
  induction t generalizing part with
  | nil =>
      rw [List.mem_singleton.1 h]
      exact List.not_mem_nil
  | cons x t ih =>
      by_cases hx : x = c
      · rw [splitOn, if_pos hx] at h
        rcases List.mem_cons.1 h with rfl | h
        · exact List.not_mem_nil
        · exact ih h
      · rw [splitOn_cons_of_ne hx] at h
        have hparts := splitOn_ne_nil c t
        cases hsplit : splitOn c t with
        | nil => exact absurd hsplit hparts
        | cons first parts =>
            rw [hsplit] at h ih
            rcases List.mem_cons.1 h with rfl | h
            · rw [List.mem_cons, not_or]
              exact ⟨Ne.symm hx, ih List.mem_cons_self⟩
            · exact ih (List.mem_cons_of_mem first h)

theorem not_mem_before (c : Char) (t : Text) : c ∉ before c t :=
  fun h => absurd (List.all_eq_true.1 List.all_takeWhile c h) (by simp)

/-- A text is its part in front of a character, alone or with the character behind it. -/
theorem eq_before_or (c : Char) (t : Text) :
    t = before c t ∨ ∃ rest, t = before c t ++ c :: rest := by
  by_cases h : c ∈ t
  · obtain ⟨front, rest, rfl, hfront⟩ := List.eq_append_cons_of_mem h
    exact .inr ⟨rest, by rw [before_append hfront]⟩
  · exact .inl (before_of_not_mem h).symm

theorem exists_splitOn_eq_cons (c : Char) (t : Text) :
    ∃ parts, splitOn c t = before c t :: parts := by
  have hfirst := splitOn_of_not_mem (not_mem_before c t)
  rcases eq_before_or c t with ht | ⟨rest, ht⟩
  · exact ⟨[], by rwa [← ht] at hfirst ⊢⟩
  · have hsplit : splitOn c t = splitOn c (before c t) ++ splitOn c rest :=
      (congrArg (splitOn c) ht).trans (splitOn_append_cons _ rest)
    exact ⟨splitOn c rest, by rw [hsplit, hfirst, List.singleton_append]⟩

theorem intercalate_splitOn (c : Char) (t : Text) : [c].intercalate (splitOn c t) = t := by
  induction t with
  | nil => rfl
  | cons x t ih =>
      by_cases hx : x = c
      · rw [splitOn, if_pos hx, List.intercalate_cons_of_ne_nil (splitOn_ne_nil c t), ih, hx]
        rfl
      · rw [splitOn_cons_of_ne hx, List.intercalate_cons_cons_left]
        cases hsplit : splitOn c t with
        | nil => exact absurd hsplit (splitOn_ne_nil c t)
        | cons part parts => rw [List.headD_cons, List.tail_cons, ← hsplit, ih]

theorem splitOn_injective (c : Char) : Function.Injective (splitOn c) := by
  intro t t' h
  rw [← intercalate_splitOn c t, h, intercalate_splitOn]

/-- A text with more parts behind those of another one goes on behind it. -/
theorem exists_of_splitOn_eq_append {t part : Text} {parts : List Text}
    (h : splitOn c t = splitOn c front ++ part :: parts) :
    ∃ rest, t = front ++ c :: rest ∧ splitOn c rest = part :: parts := by
  have happend : ∀ firsts : List Text, firsts ≠ [] →
      [c].intercalate (firsts ++ part :: parts) =
        [c].intercalate firsts ++ c :: [c].intercalate (part :: parts) := by
    intro firsts hne
    induction firsts with
    | nil => exact absurd rfl hne
    | cons first firsts ih =>
        cases firsts with
        | nil => simp
        | cons second firsts =>
            rw [List.cons_append, List.cons_append, List.intercalate_cons_cons,
              ← List.cons_append, ih (List.cons_ne_nil second firsts), List.intercalate_cons_cons]
            simp
  have ht : t = front ++ c :: [c].intercalate (part :: parts) := by
    rw [← intercalate_splitOn c t, h, happend _ (splitOn_ne_nil c front), intercalate_splitOn]
  refine ⟨_, ht, ?_⟩
  rw [ht, splitOn_append_cons] at h
  exact List.append_cancel_left h

theorem dropSuffix_append (front ending : Text) : dropSuffix (front ++ ending) ending = front := by
  have hends : (front ++ ending).endsWith ending = true :=
    List.isSuffixOf_iff_suffix.2 (List.suffix_append front ending)
  rw [dropSuffix, if_pos hends, List.length_append, Nat.add_sub_cancel, List.take_left]

theorem dropSuffix_of_not_suffix {t ending : Text} (h : ¬ ending <:+ t) :
    dropSuffix t ending = t :=
  if_neg fun hends => h (List.isSuffixOf_iff_suffix.1 hends)

theorem dropSuffix_concat_of_ne {c d : Char} (h : c ≠ d) (t ending : Text) :
    dropSuffix (t ++ [c]) (ending ++ [d]) = t ++ [c] := by
  refine dropSuffix_of_not_suffix ?_
  rintro ⟨front, heq⟩
  have hlast := congrArg List.getLast? heq
  rw [← List.append_assoc, List.getLast?_concat, List.getLast?_concat] at hlast
  exact h (Option.some.inj hlast).symm

theorem beforeLast?_concat (front : Text) : beforeLast? c (front ++ [c]) = some front := by
  induction front with
  | nil => simp [beforeLast?]
  | cons x front ih => rw [List.cons_append, beforeLast?, ih]

end Cuts

section Trimming

theorem trimStart_eq_self {t : Text} (h : ∀ c ∈ t.head?, isBlank c = false) :
    trimStart t = t := by
  cases t with
  | nil => rfl
  | cons c t => exact List.dropWhile_cons_of_neg (by simp [h c rfl])

theorem trimEnd_eq_self {t : Text} (h : ∀ c ∈ t.getLast?, isBlank c = false) :
    trimEnd t = t := by
  have hhead : ∀ c ∈ t.reverse.head?, isBlank c = false := by
    rwa [List.head?_reverse]
  have hstart : t.reverse.dropWhile isBlank = t.reverse := trimStart_eq_self hhead
  rw [trimEnd, hstart, List.reverse_reverse]

theorem trimStart_append_cons {c : Char} (h : isBlank c = false) (t rest : Text) :
    trimStart (t ++ c :: rest) = trimStart t ++ c :: rest := by
  have hrest : (c :: rest).dropWhile isBlank = c :: rest :=
    List.dropWhile_cons_of_neg (by simp [h])
  rw [trimStart, trimStart, List.dropWhile_append, hrest]
  split
  · rename_i hempty
    rw [List.isEmpty_iff.1 hempty, List.nil_append]
  · rfl

theorem trim_eq_self {t : Text} (hhead : ∀ c ∈ t.head?, isBlank c = false)
    (hlast : ∀ c ∈ t.getLast?, isBlank c = false) : trim t = t := by
  rw [trim, trimStart_eq_self hhead, trimEnd_eq_self hlast]

theorem trim_cons_concat {c d : Char} (hc : isBlank c = false) (hd : isBlank d = false)
    (middle : Text) : trim (c :: (middle ++ [d])) = c :: (middle ++ [d]) := by
  refine trim_eq_self (fun x hx => ?_) (fun x hx => ?_)
  · cases hx
    exact hc
  · rw [← List.cons_append, List.getLast?_concat] at hx
    cases hx
    exact hd

theorem trim_of_forall_mem {t : Text} (h : ∀ c ∈ t, isBlank c = false) : trim t = t :=
  trim_eq_self (fun c hc => h c (List.mem_of_mem_head? hc))
    fun c hc => h c (List.mem_of_mem_getLast? hc)

theorem head?_dropWhile_isBlank (t : Text) :
    ∀ c ∈ (t.dropWhile isBlank).head?, isBlank c = false := by
  intro c hc
  have hfirst := List.head?_dropWhile_not isBlank t
  rw [Option.mem_def.1 hc] at hfirst
  simpa using hfirst

theorem trim_map {f : Char → Char} (h : ∀ c, isBlank (f c) = isBlank c) (t : Text) :
    trim (t.map f) = (trim t).map f := by
  have hblank : isBlank ∘ f = isBlank := funext h
  rw [trim, trim, trimEnd, trimEnd, trimStart, trimStart, List.dropWhile_map, hblank,
    ← List.map_reverse, List.dropWhile_map, hblank, List.map_reverse]

theorem trim_trim (t : Text) : trim (trim t) = trim t := by
  have hend : trimEnd (trimStart t) <+: trimStart t := by
    rw [trimEnd, ← List.reverse_suffix, List.reverse_reverse]
    exact List.dropWhile_suffix _
  refine trim_eq_self (fun c hc => ?_) (fun c hc => ?_)
  · obtain ⟨behind, hbehind⟩ := hend
    refine head?_dropWhile_isBlank t c ?_
    have hfirst : (trim t ++ behind).head? = some c := by
      rw [List.head?_append, Option.mem_def.1 hc]
      rfl
    exact (congrArg List.head? hbehind).symm.trans hfirst
  · rw [trim, trimEnd, List.getLast?_reverse] at hc
    exact head?_dropWhile_isBlank _ c hc

theorem trim_cons_of_isBlank {c : Char} (h : isBlank c = true) (t : Text) :
    trim (c :: t) = trim t := by
  rw [trim, trim, trimStart, trimStart, List.dropWhile_cons_of_pos h]

theorem trimEnd_concat_of_isBlank {c : Char} (h : isBlank c = true) (t : Text) :
    trimEnd (t ++ [c]) = trimEnd t := by
  rw [trimEnd, trimEnd, List.reverse_concat, List.dropWhile_cons_of_pos h]

theorem trim_concat_of_isBlank {c : Char} (h : isBlank c = true) (t : Text) :
    trim (t ++ [c]) = trim t := by
  induction t with
  | nil =>
      rw [List.nil_append, trim_cons_of_isBlank h]
  | cons d t ih =>
      by_cases hd : isBlank d = true
      · rw [List.cons_append, trim_cons_of_isBlank hd, trim_cons_of_isBlank hd, ih]
      · have hstart : ∀ u : Text, trimStart (d :: u) = d :: u :=
          fun u => List.dropWhile_cons_of_neg hd
        rw [trim, trim, List.cons_append, hstart, hstart, ← List.cons_append,
          trimEnd_concat_of_isBlank h]

/-- What trimming takes away is blank. -/
theorem exists_trim (t : Text) :
    ∃ front behind, t = front ++ trim t ++ behind ∧ (∀ c ∈ front, isBlank c = true) ∧
      ∀ c ∈ behind, isBlank c = true := by
  refine ⟨t.takeWhile isBlank, ((trimStart t).reverse.takeWhile isBlank).reverse, ?_,
    List.all_eq_true.1 List.all_takeWhile, fun c hc => ?_⟩
  · have hend : trimEnd (trimStart t) ++ ((trimStart t).reverse.takeWhile isBlank).reverse =
        trimStart t := by
      rw [trimEnd, ← List.reverse_append, List.takeWhile_append_dropWhile, List.reverse_reverse]
    rw [List.append_assoc, trim, hend, trimStart, List.takeWhile_append_dropWhile]
  · exact List.all_eq_true.1 List.all_takeWhile c (List.mem_reverse.1 hc)

/-- What is cut from the end is one character over and over. -/
theorem exists_trimCharEnd (c : Char) (t : Text) :
    ∃ count, t = trimCharEnd c t ++ List.replicate count c := by
  have hsame : ∀ x ∈ t.reverse.takeWhile (· == c), x = c := fun x hx =>
    beq_iff_eq.1 (List.all_eq_true.1 List.all_takeWhile x hx)
  have hends := List.takeWhile_append_dropWhile (p := (· == c)) (l := t.reverse)
  refine ⟨(t.reverse.takeWhile (· == c)).length, ?_⟩
  rw [trimCharEnd, ← List.reverse_replicate, ← List.reverse_append,
    ← List.eq_replicate_of_mem hsame, hends, List.reverse_reverse]

theorem trimCharEnd_append_replicate (c : Char) (t : Text) (count : Nat) :
    trimCharEnd c (t ++ List.replicate count c) = trimCharEnd c t := by
  rw [trimCharEnd, trimCharEnd, List.reverse_append, List.reverse_replicate,
    List.dropWhile_append_of_pos (by simp)]

theorem getLast?_trimCharEnd_ne (c : Char) (t : Text) : (trimCharEnd c t).getLast? ≠ some c := by
  rw [trimCharEnd, List.getLast?_reverse]
  intro h
  have hfalse := List.head?_dropWhile_not (· == c) t.reverse
  rw [h] at hfalse
  simp at hfalse

end Trimming

section Parts

variable {c : Char} {t rest : Text}

theorem isInfix_trim (t : Text) : trim t <:+: t := by
  obtain ⟨front, behind, h, -, -⟩ := exists_trim t
  exact ⟨front, behind, h.symm⟩

theorem isInfix_of_mem_splitOn {part : Text} (h : part ∈ splitOn c t) : part <:+: t := by
  induction t generalizing part with
  | nil =>
      obtain rfl := List.mem_singleton.1 h
      exact List.infix_rfl
  | cons x t ih =>
      by_cases hx : x = c
      · rw [splitOn, if_pos hx] at h
        rcases List.mem_cons.1 h with rfl | h
        · exact List.nil_infix
        · exact (ih h).trans (List.suffix_cons x t).isInfix
      · rw [splitOn_cons_of_ne hx] at h
        obtain ⟨parts, hsplit⟩ := exists_splitOn_eq_cons c t
        rw [hsplit] at h ih
        rcases List.mem_cons.1 h with rfl | h
        · exact (List.prefix_cons_inj x |>.2 (List.takeWhile_prefix _)).isInfix
        · exact (ih (List.mem_cons_of_mem _ h)).trans (List.suffix_cons x t).isInfix

theorem not_mem_of_all {p : Char → Bool} (h : t.all p = true) (hc : p c = false) : c ∉ t := by
  intro hmem
  rw [List.all_eq_true.1 h c hmem] at hc
  cases hc

theorem isInfix_before (c : Char) (t : Text) : before c t <:+: t :=
  List.IsPrefix.isInfix <| List.takeWhile_prefix _

theorem isSuffix_of_after? (h : after? c t = some rest) : rest <:+ t := by
  induction t with
  | nil => cases h
  | cons x t ih =>
      rw [after?] at h
      split at h
      · cases h
        exact List.suffix_cons x _
      · exact (ih h).trans (List.suffix_cons x t)

theorem isInfix_dropSuffix (t ending : Text) : dropSuffix t ending <:+: t := by
  unfold dropSuffix
  split
  · exact List.IsPrefix.isInfix <| List.take_prefix _ t
  · exact List.infix_rfl

end Parts

end Text
end Phrasebook
