import Mathlib.Tactic.Choose

/-!
# Outcomes

A computation that may fail is taken apart at its steps: it yields a value exactly if every step
yields one.
-/

namespace Phrasebook

universe u v w

variable {ε : Type u} {α : Type v} {β : Type v}

theorem bind_eq_ok_iff {x : Except ε α} {f : α → Except ε β} {b : β} :
    (x >>= f) = .ok b ↔ ∃ a, x = .ok a ∧ f a = .ok b := by
  cases x with
  | error e => simp [bind, Except.bind]
  | ok a => simp [bind, Except.bind]

theorem bind_eq_error_iff {x : Except ε α} {f : α → Except ε β} {e : ε} :
    (x >>= f) = .error e ↔ x = .error e ∨ ∃ a, x = .ok a ∧ f a = .error e := by
  cases x with
  | error d => simp [bind, Except.bind]
  | ok a => simp [bind, Except.bind]

/-- Two continuations that agree on the values that there are give one outcome. -/
theorem bind_congr_ok {x : Except ε α} {f g : α → Except ε β}
    (h : ∀ a, x = .ok a → f a = g a) : (x >>= f) = (x >>= g) := by
  cases x with
  | error e => rfl
  | ok a => exact h a rfl

@[simp] theorem ok_bind (a : α) (f : α → Except ε β) : (Except.ok a >>= f) = f a := rfl

theorem map_eq_ok_iff {x : Except ε α} {f : α → β} {b : β} :
    x.map f = .ok b ↔ ∃ a, x = .ok a ∧ f a = b := by
  cases x with
  | error d => simp [Except.map]
  | ok a => simp [Except.map]

theorem map_eq_error_iff {x : Except ε α} {f : α → β} {e : ε} :
    x.map f = .error e ↔ x = .error e := by
  cases x with
  | error d => simp [Except.map]
  | ok a => simp [Except.map]

theorem toOption_eq_some_iff {x : Except ε α} {a : α} : x.toOption = some a ↔ x = .ok a := by
  cases x with
  | error e => constructor <;> intro h <;> cases h
  | ok b =>
      constructor
      · exact fun h => congrArg Except.ok (Option.some.inj h)
      · exact fun h => congrArg some (Except.ok.inj h)

theorem mapError_eq_ok_iff {δ : Type w} {x : Except ε α} {f : ε → δ} {a : α} :
    x.mapError f = .ok a ↔ x = .ok a := by
  cases x with
  | error e => constructor <;> intro h <;> cases h
  | ok b =>
      constructor
      · exact fun h => congrArg Except.ok (Except.ok.inj h)
      · exact fun h => congrArg Except.ok (Except.ok.inj h)

theorem mapError_eq_error_iff {δ : Type w} {x : Except ε α} {f : ε → δ} {d : δ} :
    x.mapError f = .error d ↔ ∃ e, x = .error e ∧ f e = d := by
  cases x with
  | error e =>
      constructor
      · exact fun h => ⟨e, rfl, Except.error.inj h⟩
      · rintro ⟨e, h, rfl⟩
        cases h
        rfl
  | ok a =>
      constructor
      · intro h
        cases h
      · rintro ⟨e, h, -⟩
        cases h

theorem mapError_injective {δ : Type w} {f : ε → δ} (hf : Function.Injective f) :
    Function.Injective (Except.mapError f : Except ε α → Except δ α) := by
  intro x y h
  cases x with
  | error d =>
      cases y with
      | error e => exact congrArg Except.error (hf (Except.error.inj h))
      | ok b => cases h
  | ok a =>
      cases y with
      | error e => cases h
      | ok b => exact congrArg Except.ok (Except.ok.inj h)

/-- Computations one after the other that all yield a value. -/
theorem mapM_eq_ok_map {f : α → Except ε β} {g : α → β} {xs : List α}
    (h : ∀ x ∈ xs, f x = .ok (g x)) : xs.mapM f = .ok (xs.map g) := by
  induction xs with
  | nil => rfl
  | cons x xs ih =>
      obtain ⟨hx, hxs⟩ := List.forall_mem_cons.1 h
      rw [List.mapM_cons, hx, ok_bind, ih hxs]
      rfl

theorem mapM_congr {f g : α → Except ε β} {xs : List α} (h : ∀ x ∈ xs, f x = g x) :
    xs.mapM f = xs.mapM g := by
  induction xs with
  | nil => rfl
  | cons x xs ih =>
      obtain ⟨hx, hxs⟩ := List.forall_mem_cons.1 h
      rw [List.mapM_cons, List.mapM_cons, hx, ih hxs]

/-- Where an error does not end the sequence, functions that differ at this error only agree. -/
theorem mapM_congr_of_ne_error {f g : α → Except ε β} {xs : List α} {e : ε}
    (h : xs.mapM f ≠ .error e) (hfg : ∀ x, f x ≠ .error e → g x = f x) :
    xs.mapM g = xs.mapM f := by
  induction xs with
  | nil => rfl
  | cons x xs ih =>
      rw [List.mapM_cons] at h
      have hx : f x ≠ .error e := fun hx => h (bind_eq_error_iff.2 (.inl hx))
      rw [List.mapM_cons, List.mapM_cons, hfg x hx]
      refine bind_congr_ok fun b hb => ?_
      rw [ih]
      exact fun hrest => h (bind_eq_error_iff.2 (.inr ⟨b, hb, bind_eq_error_iff.2 (.inl hrest)⟩))

theorem mapM_cons_eq_ok_iff {f : α → Except ε β} {x : α} {xs : List α} {bs : List β} :
    (x :: xs).mapM f = .ok bs ↔ ∃ b rest, f x = .ok b ∧ xs.mapM f = .ok rest ∧ bs = b :: rest := by
  rw [List.mapM_cons, bind_eq_ok_iff]
  constructor
  · rintro ⟨b, hb, h⟩
    obtain ⟨rest, hrest, h⟩ := bind_eq_ok_iff.1 h
    cases h
    exact ⟨b, rest, hb, hrest, rfl⟩
  · rintro ⟨b, rest, hb, hrest, rfl⟩
    exact ⟨b, hb, bind_eq_ok_iff.2 ⟨rest, hrest, rfl⟩⟩

/-- What computations yield one after the other, one of them yields. -/
theorem exists_of_mem_mapM {f : α → Except ε β} {xs : List α} {bs : List β}
    (h : xs.mapM f = .ok bs) {b : β} (hb : b ∈ bs) : ∃ x ∈ xs, f x = .ok b := by
  induction xs generalizing bs with
  | nil =>
      cases h
      cases hb
  | cons x xs ih =>
      obtain ⟨first, rest, hfirst, hrest, rfl⟩ := mapM_cons_eq_ok_iff.1 h
      rcases List.mem_cons.1 hb with rfl | hb
      · exact ⟨x, List.mem_cons_self, hfirst⟩
      · obtain ⟨y, hy, hfy⟩ := ih hrest hb
        exact ⟨y, List.mem_cons_of_mem x hy, hfy⟩

/-- Computations one after the other that yield values are those of a function. -/
theorem exists_of_mapM_eq_ok [Nonempty β] {f : α → Except ε β} {xs : List α} {bs : List β}
    (h : xs.mapM f = .ok bs) : ∃ g : α → β, (∀ x ∈ xs, f x = .ok (g x)) ∧ xs.map g = bs := by
  have hall : ∀ x ∈ xs, ∃ b, f x = .ok b := by
    induction xs generalizing bs with
    | nil => exact fun x hx => nomatch hx
    | cons x xs ih =>
        obtain ⟨b, rest, hb, hrest, -⟩ := mapM_cons_eq_ok_iff.1 h
        exact List.forall_mem_cons.2 ⟨⟨b, hb⟩, ih hrest⟩
  choose! g hg using hall
  exact ⟨g, hg, Except.ok.inj ((mapM_eq_ok_map hg).symm.trans h)⟩

/-- Computations one after the other fail with the failure of one of them. -/
theorem exists_of_mapM_eq_error {f : α → Except ε β} {xs : List α} {e : ε}
    (h : xs.mapM f = .error e) : ∃ x ∈ xs, f x = .error e := by
  induction xs with
  | nil => cases h
  | cons x xs ih =>
      rw [List.mapM_cons] at h
      cases hx : f x with
      | error d =>
          rw [hx] at h
          cases h
          exact ⟨x, List.mem_cons_self, hx⟩
      | ok b =>
          rw [hx, ok_bind] at h
          cases hxs : xs.mapM f with
          | error d =>
              rw [hxs] at h
              cases h
              obtain ⟨y, hy, he⟩ := ih hxs
              exact ⟨y, List.mem_cons_of_mem x hy, he⟩
          | ok bs =>
              rw [hxs] at h
              cases h

end Phrasebook
