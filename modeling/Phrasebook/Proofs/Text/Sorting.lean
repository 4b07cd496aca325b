import Mathlib.Data.List.Basic
import Mathlib.Data.List.Induction
import Phrasebook.Text.Basic

/-!
# Distinct and sorted texts

**Repetitions.**  `eraseDups` keeps the first of equal texts in its place.
**Order.**  `Text.le` is a linear order, so that sorting distinct texts puts them in strictly
ascending order.
-/

namespace Phrasebook

section Repetitions

/-- What is left of a list without repetitions stands in the order of the first positions. -/
theorem eraseDups_pairwise (texts : List Text) :
    texts.eraseDups.Pairwise fun t u => texts.idxOf t < texts.idxOf u := by
  -- by induction from the end, so that no member moves
  induction texts using List.reverseRecOn with
  | nil => exact List.Pairwise.nil
  | append_singleton texts last ih =>
      have hfront : texts.eraseDups.Pairwise fun t u =>
          (texts ++ [last]).idxOf t < (texts ++ [last]).idxOf u := by
        refine ih.imp_of_mem fun ht hu hlt => ?_
        rw [List.mem_eraseDups] at ht hu
        rwa [List.idxOf_append_of_mem ht, List.idxOf_append_of_mem hu]
      rw [List.eraseDups_append]
      by_cases hlast : last ∈ texts
      · simpa [List.removeAll, hlast] using hfront
      · have hnew : ([last].removeAll texts).eraseDups = [last] := by
          simp [List.removeAll, hlast, List.eraseDups_cons]
        rw [hnew, List.pairwise_append]
        refine ⟨hfront, List.pairwise_singleton _ _, fun t ht u hu => ?_⟩
        rw [List.mem_eraseDups] at ht
        rw [List.mem_singleton.1 hu, List.idxOf_append_of_mem ht,
          List.idxOf_append_of_notMem hlast]
        exact Nat.lt_add_right _ (List.idxOf_lt_length_of_mem ht)

theorem nodup_eraseDups (texts : List Text) : texts.eraseDups.Nodup := by
  refine (eraseDups_pairwise texts).imp fun hlt heq => ?_
  rw [heq] at hlt
  exact Nat.lt_irrefl _ hlt

end Repetitions

namespace Text

theorem le_cons (x y : Char) (s t : Text) :
    le (x :: s) (y :: t) = true ↔ x.toNat < y.toNat ∨ x = y ∧ le s t = true := by
  rw [le]
  split
  · rename_i h
    subst h
    simp
  · rename_i h
    simp [h]

theorem le_trans (s t u : Text) (hst : le s t = true) (htu : le t u = true) : le s u = true := by
  induction s generalizing t u with
  | nil => rfl
  | cons x s ih =>
      cases t with
      | nil => cases hst
      | cons y t =>
          cases u with
          | nil => cases htu
          | cons z u =>
              rw [le_cons] at hst htu ⊢
              rcases hst with hxy | ⟨rfl, hst⟩ <;> rcases htu with hyz | ⟨rfl, htu⟩
              · exact .inl (Nat.lt_trans hxy hyz)
              · exact .inl hxy
              · exact .inl hyz
              · exact .inr ⟨rfl, ih t u hst htu⟩

theorem le_total (s t : Text) : (le s t || le t s) = true := by
  rw [Bool.or_eq_true]
  induction s generalizing t with
  | nil => exact .inl rfl
  | cons x s ih =>
      cases t with
      | nil => exact .inr rfl
      | cons y t =>
          rw [le_cons, le_cons]
          rcases Nat.lt_trichotomy x.toNat y.toNat with h | h | h
          · exact .inl (.inl h)
          · have hxy : x = y := Char.toNat_inj.1 h
            exact (ih t).imp (fun hst => .inr ⟨hxy, hst⟩) fun hts => .inr ⟨hxy.symm, hts⟩
          · exact .inr (.inl h)

/-- Does the first text stand in front of the second one? -/
def Lt (s t : Text) : Prop :=
  le s t = true ∧ s ≠ t

theorem lt_of_le_of_ne {s t : Text} (hle : le s t = true) (hne : s ≠ t) : s < t := by
  induction s generalizing t with
  | nil =>
      cases t with
      | nil => exact absurd rfl hne
      | cons y t => exact List.nil_lt_cons y t
  | cons x s ih =>
      cases t with
      | nil => cases hle
      | cons y t =>
          rw [List.cons_lt_cons_iff]
          rcases (le_cons x y s t).1 hle with hxy | ⟨rfl, hst⟩
          · exact .inl hxy
          · exact .inr ⟨rfl, ih hst fun h => hne (by rw [h])⟩

/-- The order of texts is the lexicographic order of their characters. -/
theorem Lt.lt {s t : Text} (h : Lt s t) : s < t :=
  lt_of_le_of_ne h.1 h.2

theorem pairwise_sorted (texts : List Text) :
    (texts.eraseDups.mergeSort le).Pairwise Lt := by
  refine (List.pairwise_mergeSort le_trans le_total _).and ?_
  exact (List.mergeSort_perm _ le).nodup_iff.2 (nodup_eraseDups texts)

end Text
end Phrasebook
