/-!
# Tables

A table keeps one value per key, its entries in the order in which their keys came first.

**Operations.**  `Table.set` replaces the value of a key in its place or adds the key at the
end; `Table.modify` does the same with a function of the old value; `Table.erase` drops a key.
**View.**  `Table.get?` is what a table is about; `Table.sameEntries` compares two tables by
it and forgets the order.
-/

namespace Phrasebook

universe u v

/-- Entries with distinct keys, in the order of first insertion. -/
structure Table (κ : Type u) (β : Type v) where
  entries : List (κ × β)
  keysNodup : (entries.map Prod.fst).Nodup

namespace Table

variable {κ : Type u} {β : Type v}

/-- The keys in order. -/
def keys (t : Table κ β) : List κ :=
  t.entries.map Prod.fst

/-- The number of keys. -/
def size (t : Table κ β) : Nat :=
  t.entries.length

/-- The table without entries. -/
def empty : Table κ β :=
  ⟨[], List.nodup_nil⟩

instance : EmptyCollection (Table κ β) := ⟨empty⟩

instance : Inhabited (Table κ β) := ⟨empty⟩

@[simp] theorem entries_empty : (empty : Table κ β).entries = [] := rfl

theorem ext {s t : Table κ β} (h : s.entries = t.entries) : s = t := by
  cases s
  cases t
  cases h
  rfl

instance [DecidableEq κ] [DecidableEq β] : DecidableEq (Table κ β) := fun s t =>
  if h : s.entries = t.entries then .isTrue (ext h)
  else .isFalse (fun e => h (congrArg entries e))

section Entries

variable [DecidableEq κ]

/-- The value of a key in a list of entries. -/
def lookup (k : κ) : List (κ × β) → Option β
  | [] => none
  | (j, v) :: rest => if j = k then some v else lookup k rest

/-- The entries with the value of a key replaced in place, or added at the end. -/
def put (k : κ) (v : β) : List (κ × β) → List (κ × β)
  | [] => [(k, v)]
  | (j, w) :: rest => if j = k then (j, v) :: rest else (j, w) :: put k v rest

theorem lookup_of_not_mem {k : κ} {entries : List (κ × β)} (h : k ∉ entries.map Prod.fst) :
    lookup k entries = none := by
  induction entries with
  | nil => rfl
  | cons e entries ih =>
      rw [List.map_cons, List.mem_cons, not_or] at h
      rw [lookup, if_neg (Ne.symm h.1), ih h.2]

theorem mem_keys_put (k x : κ) (v : β) (entries : List (κ × β)) :
    x ∈ (put k v entries).map Prod.fst ↔ x = k ∨ x ∈ entries.map Prod.fst := by
  induction entries with
  | nil => simp [put]
  | cons e rest ih =>
      obtain ⟨j, w⟩ := e
      by_cases h : j = k
      · subst h
        simp [put]
      · have : x ∈ (put k v ((j, w) :: rest)).map Prod.fst ↔
            x = j ∨ x ∈ (put k v rest).map Prod.fst := by
          simp only [put, h, if_false, List.map_cons, List.mem_cons]
        rw [this, ih]
        simp only [List.map_cons, List.mem_cons]
        exact or_left_comm

theorem nodup_keys_put (k : κ) (v : β) {entries : List (κ × β)}
    (h : (entries.map Prod.fst).Nodup) : ((put k v entries).map Prod.fst).Nodup := by
  induction entries with
  | nil => simp [put]
  | cons e rest ih =>
      obtain ⟨j, w⟩ := e
      by_cases hj : j = k
      · simpa [put, hj] using h
      · simp only [put, hj, if_false, List.map_cons]
        rw [List.map_cons, List.nodup_cons] at h
        refine List.nodup_cons.2 ⟨fun hm => ?_, ih h.2⟩
        rcases (mem_keys_put k j v rest).1 hm with hk | hk
        · exact hj hk
        · exact h.1 hk

theorem lookup_put (k x : κ) (v : β) (entries : List (κ × β)) :
    lookup x (put k v entries) = if k = x then some v else lookup x entries := by
  induction entries with
  | nil => simp [put, lookup]
  | cons e rest ih =>
      obtain ⟨j, w⟩ := e
      by_cases hj : j = k
      · by_cases hx : j = x <;> simp_all [put, lookup]
      · by_cases hx : j = x
        · subst hx
          simp [put, lookup, hj, Ne.symm hj]
        · simp [put, lookup, hj, hx, ih]

theorem lookup_filter_ne (k x : κ) (entries : List (κ × β)) :
    lookup x (entries.filter (fun e => e.1 ≠ k)) = if k = x then none else lookup x entries := by
  induction entries with
  | nil => simp [lookup]
  | cons e rest ih =>
      obtain ⟨j, w⟩ := e
      by_cases hj : j = k
      · by_cases hx : k = x <;> simp_all [lookup]
      · by_cases hx : j = x
        · subst hx
          simp [lookup, hj, Ne.symm hj]
        · simp_all [lookup]

end Entries

section Operations

variable [DecidableEq κ]

/-- The value of a key, if the table has the key. -/
def get? (t : Table κ β) (k : κ) : Option β :=
  lookup k t.entries

/-- Does the table have the key? -/
def has (t : Table κ β) (k : κ) : Bool :=
  (t.get? k).isSome

/-- The table with a value for a key; a key that is present keeps its position. -/
def set (t : Table κ β) (k : κ) (v : β) : Table κ β :=
  ⟨put k v t.entries, nodup_keys_put k v t.keysNodup⟩

/-- The table with the value of a key computed from the old one. -/
def modify (t : Table κ β) (k : κ) (f : Option β → β) : Table κ β :=
  t.set k (f (t.get? k))

/-- The table without a key. -/
def erase (t : Table κ β) (k : κ) : Table κ β :=
  ⟨t.entries.filter (fun e => e.1 ≠ k),
    t.keysNodup.sublist (List.filter_sublist.map Prod.fst)⟩

/-- The table of a list of entries, of which a later one with the same key wins. -/
def ofList (entries : List (κ × β)) : Table κ β :=
  entries.foldl (fun t e => t.set e.1 e.2) empty

/-- Do two tables have the same keys with the same values, in whatever order? -/
def sameEntries (same : β → β → Bool) (s t : Table κ β) : Bool :=
  s.size == t.size &&
    s.entries.all (fun e => (t.get? e.1).any (same e.2))

@[simp] theorem get?_empty (k : κ) : (empty : Table κ β).get? k = none := rfl

@[simp] theorem get?_set (t : Table κ β) (k x : κ) (v : β) :
    (t.set k v).get? x = if k = x then some v else t.get? x :=
  lookup_put k x v t.entries

theorem get?_of_not_mem {t : Table κ β} {k : κ} (h : k ∉ t.keys) : t.get? k = none :=
  lookup_of_not_mem h

theorem get?_modify (t : Table κ β) (k x : κ) (f : Option β → β) :
    (t.modify k f).get? x = if k = x then some (f (t.get? k)) else t.get? x :=
  get?_set t k x _

@[simp] theorem get?_erase (t : Table κ β) (k x : κ) :
    (t.erase k).get? x = if k = x then none else t.get? x :=
  lookup_filter_ne k x t.entries

theorem mem_keys_set (t : Table κ β) (k x : κ) (v : β) :
    x ∈ (t.set k v).keys ↔ x = k ∨ x ∈ t.keys :=
  mem_keys_put k x v t.entries

end Operations

end Table
end Phrasebook
