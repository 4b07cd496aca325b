import Phrasebook.Text.Escape

/-!
# Reading back what was escaped

**One character.**  Whatever stands behind it, an escaped character is read as one.
**Texts.**  `unescape_escape`: a payload gives back the text that was written.
**Cuts.**  `unescape_append`: a payload may be read in parts, if it is cut behind an even run of
backslashes.  There is no other place where it may (`unescape_boundaries`).
-/

namespace Phrasebook
namespace Text

theorem unescape_cons_of_ne {c : Char} (h : c ≠ '\\') (rest : Text) :
    unescape (c :: rest) = c :: unescape rest := by
  cases rest with
  | nil => rfl
  | cons d rest =>
      rw [unescape, if_neg]
      exact fun hc => h hc.1

theorem unescape_of_not_mem {t : Text} (h : '\\' ∉ t) : unescape t = t := by
  induction t with
  | nil => rfl
  | cons c t ih =>
      rw [List.mem_cons, not_or] at h
      rw [unescape_cons_of_ne (Ne.symm h.1), ih h.2]

theorem unescape_escapeChar_append (c : Char) (rest : Text) :
    unescape (escapeChar c ++ rest) = c :: unescape rest := by
  unfold escapeChar
  -- one case for each escape; the escape stands for the character by its own meaning
  repeat' split
  · rename_i h
    rcases h with rfl | rfl <;> rfl
  iterate 7
    rename_i h
    subst h
    rfl
  · rename_i h _ _ _ _ _ _ _
    exact unescape_cons_of_ne (fun hc => h (.inl hc)) rest

theorem unescape_escape_append (s t : Text) : unescape (escape s ++ t) = s ++ unescape t := by
  induction s with
  | nil => rfl
  | cons c s ih =>
      rw [escape_cons, List.append_assoc, unescape_escapeChar_append, ih, List.cons_append]

theorem unescape_escape (t : Text) : unescape (escape t) = t := by
  have h := unescape_escape_append t []
  rwa [List.append_nil, unescape, List.append_nil] at h

section Cuts

/-- The number of backslashes at the end of a text. -/
def backslashes (t : Text) : Nat :=
  (t.reverse.takeWhile (· == '\\')).length

/-- Does the text end in an even run of backslashes, so that none of them waits for a second
character? -/
def IsClosed (t : Text) : Prop :=
  backslashes t % 2 = 0

instance (t : Text) : Decidable (IsClosed t) :=
  inferInstanceAs (Decidable (_ = _))

theorem backslashes_le (t : Text) : backslashes t ≤ t.length := by
  have h : (t.reverse.takeWhile (· == '\\')).length ≤ t.reverse.length :=
    List.IsPrefix.length_le <| List.takeWhile_prefix _
  rwa [List.length_reverse] at h

/-- The run at the end grows at its front only if it is the whole text. -/
theorem backslashes_cons (c : Char) (t : Text) :
    backslashes (c :: t) =
      if backslashes t = t.length ∧ c = '\\' then t.length + 1 else backslashes t := by
  have happend : backslashes (c :: t) =
      (if backslashes t = t.length then t.reverse ++ [c].takeWhile (· == '\\')
        else t.reverse.takeWhile (· == '\\')).length := by
    rw [backslashes, List.reverse_cons, List.takeWhile_append, List.length_reverse]
    rfl
  rw [happend]
  by_cases hall : backslashes t = t.length
  · by_cases hc : c = '\\' <;> simp [hall, hc]
  · rw [if_neg hall, if_neg fun h => hall h.1]
    rfl

theorem backslashes_cons_of_ne {c : Char} (h : c ≠ '\\') (t : Text) :
    backslashes (c :: t) = backslashes t := by
  rw [backslashes_cons, if_neg fun hc => h hc.2]

theorem isClosed_escape_iff (d : Char) (t : Text) : IsClosed ('\\' :: d :: t) ↔ IsClosed t := by
  have hle := backslashes_le t
  rw [IsClosed, IsClosed, backslashes_cons, backslashes_cons, List.length_cons]
  by_cases hall : backslashes t = t.length ∧ d = '\\'
  · rw [if_pos hall, if_pos ⟨rfl, rfl⟩]
    omega
  · rw [if_neg hall, if_neg (by omega)]

theorem isClosed_concat {c : Char} (h : c ≠ '\\') (t : Text) : IsClosed (t ++ [c]) := by
  rw [IsClosed, backslashes, List.reverse_concat, List.takeWhile_cons_of_neg (by simpa using h)]
  rfl

/-- A text may be cut at every place that does not part a backslash from its character. -/
theorem unescape_append {s : Text} (h : IsClosed s) (t : Text) :
    unescape (s ++ t) = unescape s ++ unescape t := by
  induction s using unescape.induct with
  | case1 => rfl
  | case2 c =>
      have hc : c ≠ '\\' := by
        rintro rfl
        exact absurd h (by decide)
      exact unescape_cons_of_ne hc t
  | case3 c d rest hescape ih =>
      obtain ⟨rfl, hd⟩ := hescape
      have hrest : IsClosed rest := (isClosed_escape_iff d rest).1 h
      rw [List.cons_append, List.cons_append, unescape, if_pos ⟨rfl, hd⟩, ih hrest, unescape,
        if_pos ⟨rfl, hd⟩, List.cons_append]
  | case4 c d rest hplain ih =>
      have hrest : IsClosed (d :: rest) := by
        have hle := backslashes_le rest
        rw [IsClosed, backslashes_cons, if_neg] at h
        · exact h
        · rintro ⟨hall, rfl⟩
          have hd : d = '\n' := by simpa using hplain
          rw [hd, backslashes_cons_of_ne (by decide), List.length_cons] at hall
          omega
      rw [List.cons_append, List.cons_append, unescape, if_neg hplain, ← List.cons_append,
        ih hrest, unescape, if_neg hplain, List.cons_append]

theorem backslashes_concat (t : Text) : backslashes (t ++ ['\\']) = backslashes t + 1 := by
  rw [backslashes, List.reverse_concat, List.takeWhile_cons_of_pos (by decide), List.length_cons]
  rfl

/-- The character that waits stands behind a place where the text may be cut. -/
theorem exists_isClosed_of_not {t : Text} (h : ¬ IsClosed t) :
    ∃ front, IsClosed front ∧ t = front ++ ['\\'] := by
  rcases List.eq_nil_or_concat t with rfl | ⟨front, c, rfl⟩
  · exact absurd rfl h
  · rw [List.concat_eq_append] at h ⊢
    by_cases hc : c = '\\'
    · subst hc
      refine ⟨front, ?_, rfl⟩
      rw [IsClosed, backslashes_concat] at h
      rw [IsClosed]
      omega
    · exact absurd (isClosed_concat hc front) h

/-- A backslash that waits takes the next character with it. -/
theorem unescape_append_ne {s : Text} (h : ¬ IsClosed s) :
    unescape (s ++ ['n']) ≠ unescape s ++ unescape ['n'] := by
  obtain ⟨front, hfront, rfl⟩ := exists_isClosed_of_not h
  rw [List.append_assoc, unescape_append hfront, unescape_append hfront, List.append_assoc]
  intro heq
  exact absurd (List.append_cancel_left heq) (by decide)

/-- A text is read in parts exactly if it is cut where no backslash waits for a second
character.  What was escaped is such a part, and is read back. -/
theorem unescape_boundaries :
    (∀ s, IsClosed s ↔ ∀ t, unescape (s ++ t) = unescape s ++ unescape t) ∧
      ∀ s, IsClosed (escape s) ∧ unescape (escape s) = s := by
  have hcut : ∀ s, IsClosed s ↔ ∀ t, unescape (s ++ t) = unescape s ++ unescape t :=
    fun s => ⟨unescape_append, fun h =>
      Decidable.byContradiction fun hopen => unescape_append_ne hopen (h ['n'])⟩
  refine ⟨hcut, fun s => ⟨(hcut (escape s)).2 fun t => ?_, unescape_escape s⟩⟩
  rw [unescape_escape_append, unescape_escape]

theorem unescape_append_flatten {s : Text} {chunks : List Text} (hs : IsClosed s)
    (h : ∀ chunk ∈ chunks, IsClosed chunk) :
    unescape (s ++ chunks.flatten) = unescape s ++ (chunks.map unescape).flatten := by
  induction chunks generalizing s with
  | nil => rw [List.flatten_nil, List.append_nil, List.map_nil, List.flatten_nil, List.append_nil]
  | cons chunk chunks ih =>
      obtain ⟨hchunk, hrest⟩ := List.forall_mem_cons.1 h
      rw [List.flatten_cons, unescape_append hs, ih hchunk hrest, List.map_cons, List.flatten_cons]

theorem unescape_ne_nil {t : Text} (h : t ≠ []) : unescape t ≠ [] := by
  cases t with
  | nil => exact absurd rfl h
  | cons c t =>
      cases t with
      | nil => exact List.cons_ne_nil _ _
      | cons d t =>
          rw [unescape]
          split <;> exact List.cons_ne_nil _ _

end Cuts

end Text
end Phrasebook
