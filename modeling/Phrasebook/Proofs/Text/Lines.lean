import Phrasebook.Text.Lines

/-!
# Lines of a text

**Joined lines.**  A text that is joined from lines by line feeds has these lines, except that an
empty last one does not show.
**Ends of lines.**  `Text.HasLines` says where a text falls into lines, without normal form.
`Text.lines` is what it has (`hasLines_iff`).
-/

namespace Phrasebook
namespace Text

variable {front rest : Text} {line : Text} {joined : List Text}

theorem normalizeLineEnds_cons {c : Char} (h : c ≠ '\r') (t : Text) :
    normalizeLineEnds (c :: t) = c :: normalizeLineEnds t := by
  rw [normalizeLineEnds.eq_3 c t fun _ hc _ => h hc, if_neg h]

theorem normalizeLineEnds_append (h : '\r' ∉ front) (t : Text) :
    normalizeLineEnds (front ++ t) = front ++ normalizeLineEnds t := by
  induction front with
  | nil => rfl
  | cons c front ih =>
      rw [List.mem_cons, not_or] at h
      rw [List.cons_append, normalizeLineEnds_cons (Ne.symm h.1), ih h.2, List.cons_append]

theorem normalizeLineEnds_eq_self {t : Text} (h : '\r' ∉ t) : normalizeLineEnds t = t := by
  simpa [normalizeLineEnds] using normalizeLineEnds_append h []

theorem feedLines_append_cons (h : '\n' ∉ front) (rest : Text) :
    feedLines (front ++ '\n' :: rest) = front :: feedLines rest := by
  induction front with
  | nil => rw [List.nil_append, feedLines, if_pos rfl]
  | cons c front ih =>
      rw [List.mem_cons, not_or] at h
      rw [List.cons_append, feedLines, if_neg (Ne.symm h.1), ih h.2]

theorem feedLines_of_not_mem (h : '\n' ∉ line) :
    feedLines line = if line = [] then [] else [line] := by
  induction line with
  | nil => rfl
  | cons c line ih =>
      rw [List.mem_cons, not_or] at h
      rw [feedLines, if_neg (Ne.symm h.1), ih h.2, if_neg (List.cons_ne_nil c line)]
      by_cases hline : line = [] <;> simp [hline]

/-- Is there no end of a line in the text? -/
def IsOneLine (t : Text) : Prop :=
  '\n' ∉ t ∧ '\r' ∉ t

instance (t : Text) : Decidable (IsOneLine t) := inferInstanceAs (Decidable (_ ∧ _))

theorem isOneLine_append {s t : Text} : IsOneLine (s ++ t) ↔ IsOneLine s ∧ IsOneLine t := by
  simp only [IsOneLine, List.mem_append, not_or]
  exact and_and_and_comm

theorem isOneLine_cons {c : Char} {t : Text} :
    IsOneLine (c :: t) ↔ IsOneLine [c] ∧ IsOneLine t :=
  isOneLine_append (s := [c])

theorem mem_joined {c : Char} (h : c ∈ ['\n'].intercalate joined) :
    c = '\n' ∨ ∃ line ∈ joined, c ∈ line := by
  induction joined with
  | nil => cases h
  | cons line joined ih =>
      cases joined with
      | nil => exact .inr ⟨line, List.mem_cons_self, by simpa using h⟩
      | cons next joined =>
          rw [List.intercalate_cons_cons, List.mem_append, List.mem_append] at h
          rcases h with (hline | hfeed) | hrest
          · exact .inr ⟨line, List.mem_cons_self, hline⟩
          · exact .inl (List.mem_singleton.1 hfeed)
          · exact (ih hrest).imp_right fun ⟨other, hother, hc⟩ =>
              ⟨other, List.mem_cons_of_mem line hother, hc⟩

theorem lines_joined (h : ∀ line ∈ joined, IsOneLine line) :
    lines (['\n'].intercalate joined) = joined ∨
      joined = lines (['\n'].intercalate joined) ++ [[]] := by
  have hreturn : '\r' ∉ ['\n'].intercalate joined := by
    intro hmem
    rcases mem_joined hmem with heq | ⟨line, hline, hc⟩
    · cases heq
    · exact (h line hline).2 hc
  rw [lines, normalizeLineEnds_eq_self hreturn]
  clear hreturn
  induction joined with
  | nil => exact .inl rfl
  | cons line joined ih =>
      obtain ⟨hline, hjoined⟩ := List.forall_mem_cons.1 h
      cases joined with
      | nil =>
          rw [List.intercalate_singleton, feedLines_of_not_mem hline.1]
          split
          · rename_i hempty
            exact .inr (by rw [hempty]; rfl)
          · exact .inl rfl
      | cons next joined =>
          rw [List.intercalate_cons_cons, List.append_assoc, List.singleton_append,
            feedLines_append_cons hline.1]
          rcases ih hjoined with heq | heq
          · exact .inl (congrArg (line :: ·) heq)
          · exact .inr (congrArg (line :: ·) heq)

section Ends

variable {t : Text} {ls : List Text}

/-- The lines of a text: a line ends at a line feed, at the pair of a carriage return and a line
feed, at another carriage return, or at the end of the text, and at nothing else. -/
inductive HasLines : Text → List Text → Prop
  | nil : HasLines [] []
  | last {line : Text} (hline : IsOneLine line) (hne : line ≠ []) : HasLines line [line]
  | feed {line rest : Text} {ls : List Text} (hline : IsOneLine line) (hrest : HasLines rest ls) :
      HasLines (line ++ '\n' :: rest) (line :: ls)
  | pair {line rest : Text} {ls : List Text} (hline : IsOneLine line) (hrest : HasLines rest ls) :
      HasLines (line ++ '\r' :: '\n' :: rest) (line :: ls)
  | carriage {line rest : Text} {ls : List Text} (hline : IsOneLine line)
      (hnext : rest.head? ≠ some '\n') (hrest : HasLines rest ls) :
      HasLines (line ++ '\r' :: rest) (line :: ls)

theorem normalizeLineEnds_return (h : t.head? ≠ some '\n') :
    normalizeLineEnds ('\r' :: t) = '\n' :: normalizeLineEnds t := by
  have hpair : ∀ rest, '\r' = '\r' → t = '\n' :: rest → False := by
    rintro rest - rfl
    exact h rfl
  rw [normalizeLineEnds.eq_3 _ _ hpair, if_pos rfl]

theorem HasLines.lines_eq (h : HasLines t ls) : lines t = ls := by
  induction h with
  | nil => rfl
  | last hline hne =>
      rw [lines, normalizeLineEnds_eq_self hline.2, feedLines_of_not_mem hline.1, if_neg hne]
  | @feed line rest ls hline _ ih =>
      rw [lines, normalizeLineEnds_append hline.2, normalizeLineEnds_cons (by decide),
        feedLines_append_cons hline.1]
      exact congrArg (line :: ·) ih
  | @pair line rest ls hline _ ih =>
      rw [lines, normalizeLineEnds_append hline.2, normalizeLineEnds, feedLines_append_cons hline.1]
      exact congrArg (line :: ·) ih
  | @carriage line rest ls hline hnext _ ih =>
      rw [lines, normalizeLineEnds_append hline.2, normalizeLineEnds_return hnext,
        feedLines_append_cons hline.1]
      exact congrArg (line :: ·) ih

/-- One more character in front of a text either ends an empty line or belongs to the first one. -/
theorem HasLines.cons {c : Char} (h : HasLines t ls) (hc : IsOneLine [c]) :
    ∃ ls, HasLines (c :: t) ls := by
  have hline : ∀ {line : Text}, IsOneLine line → IsOneLine (c :: line) :=
    fun h => isOneLine_cons.2 ⟨hc, h⟩
  cases h with
  | nil => exact ⟨_, .last hc (List.cons_ne_nil c [])⟩
  | last h _ => exact ⟨_, .last (hline h) (List.cons_ne_nil c _)⟩
  | feed h hrest => exact ⟨_, .feed (hline h) hrest⟩
  | pair h hrest => exact ⟨_, .pair (hline h) hrest⟩
  | carriage h hnext hrest => exact ⟨_, .carriage (hline h) hnext hrest⟩

theorem exists_hasLines (t : Text) : ∃ ls, HasLines t ls := by
  have hempty : IsOneLine [] := ⟨List.not_mem_nil, List.not_mem_nil⟩
  induction t using normalizeLineEnds.induct with
  | case1 => exact ⟨[], .nil⟩
  | case2 rest ih =>
      obtain ⟨ls, hls⟩ := ih
      exact ⟨[] :: ls, .pair hempty hls⟩
  | case3 c rest hpair ih =>
      obtain ⟨ls, hls⟩ := ih
      by_cases hfeed : c = '\n'
      · subst hfeed
        exact ⟨[] :: ls, .feed hempty hls⟩
      · by_cases hreturn : c = '\r'
        · subst hreturn
          refine ⟨[] :: ls, .carriage hempty (fun hnext => ?_) hls⟩
          obtain ⟨behind, hbehind⟩ := List.head?_eq_some_iff.1 hnext
          exact hpair behind rfl hbehind
        · exact hls.cons ⟨by simpa using Ne.symm hfeed, by simpa using Ne.symm hreturn⟩

/-- A text has the lines that it is read as, and no other ones. -/
theorem hasLines_iff : HasLines t ls ↔ lines t = ls := by
  constructor
  · exact HasLines.lines_eq
  · rintro rfl
    obtain ⟨ls, hls⟩ := exists_hasLines t
    rwa [hls.lines_eq]

example : lines "a\r\nb\rc\u2028d\n".toList = ["a".toList, "b".toList, "c\u2028d".toList] := by
  decide

end Ends

end Text
end Phrasebook
