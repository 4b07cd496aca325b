import Phrasebook.Table

/-!
# Tables put together

**Fresh keys.**  A key that a table does not have goes to its end, so that a table is what its own
entries give one after the other.
**Merging.**  `Table.merged` puts the entries of one table into another.  A key keeps its first
position (`keys_merged`), its value is joined from both (`get?_merged`), and it does not matter
whether a value is set before the merging or behind it (`merged_set`).
-/

namespace Phrasebook

universe u v

namespace Table

section Keys

variable {κ : Type u} {β : Type v} [DecidableEq κ] {k : κ}

theorem put_of_not_mem (v : β) {entries : List (κ × β)} (h : k ∉ entries.map Prod.fst) :
    put k v entries = entries ++ [(k, v)] := by
  induction entries with
  | nil => rfl
  | cons e entries ih =>
      rw [List.map_cons, List.mem_cons, not_or] at h
      rw [put, if_neg (Ne.symm h.1), ih h.2, List.cons_append]

/-- The value of a key that is present is replaced where it stands. -/
theorem exists_put_eq {entries : List (κ × β)} (h : k ∈ entries.map Prod.fst) :
    ∃ front w behind, entries = front ++ (k, w) :: behind ∧ lookup k entries = some w ∧
      ∀ v, put k v entries = front ++ (k, v) :: behind := by
  induction entries with
  | nil => cases h
  | cons e entries ih =>
      obtain ⟨j, u⟩ := e
      by_cases hj : j = k
      · subst hj
        exact ⟨[], u, entries, rfl, if_pos rfl, fun v => if_pos rfl⟩
      · have hmem : k ∈ entries.map Prod.fst := by
          rw [List.map_cons, List.mem_cons] at h
          exact h.resolve_left fun he => hj he.symm
        obtain ⟨front, w, behind, hentries, hlookup, hput⟩ := ih hmem
        refine ⟨(j, u) :: front, w, behind, by rw [hentries]; rfl, ?_, fun v => ?_⟩
        · rw [lookup, if_neg hj, hlookup]
        · rw [put, if_neg hj, hput, List.cons_append]

theorem put_put (v w : β) (entries : List (κ × β)) :
    put k w (put k v entries) = put k w entries := by
  induction entries with
  | nil => exact if_pos rfl
  | cons e entries ih =>
      obtain ⟨j, u⟩ := e
      by_cases hj : j = k
      · rw [put, if_pos hj, put, if_pos hj, put, if_pos hj]
      · rw [put, if_neg hj, put, if_neg hj, ih, put, if_neg hj]

theorem set_set (t : Table κ β) (v w : β) : (t.set k v).set k w = t.set k w :=
  ext (put_put v w t.entries)

theorem entries_set_of_not_mem {t : Table κ β} (v : β) (h : k ∉ t.keys) :
    (t.set k v).entries = t.entries ++ [(k, v)] :=
  put_of_not_mem v h

theorem get?_of_mem {t : Table κ β} {v : β} (h : (k, v) ∈ t.entries) : t.get? k = some v := by
  have hlookup : ∀ entries : List (κ × β), (entries.map Prod.fst).Nodup → (k, v) ∈ entries →
      lookup k entries = some v := by
    intro entries hnodup hmem
    induction entries with
    | nil => cases hmem
    | cons e rest ih =>
        rw [List.map_cons, List.nodup_cons] at hnodup
        rcases List.mem_cons.1 hmem with rfl | hrest
        · exact if_pos rfl
        · have hne : e.1 ≠ k := by
            rintro rfl
            exact hnodup.1 (List.mem_map.2 ⟨_, hrest, rfl⟩)
          rw [lookup, if_neg hne, ih hnodup.2 hrest]
  exact hlookup t.entries t.keysNodup h

theorem has_iff_mem_keys (t : Table κ β) : t.has k = true ↔ k ∈ t.keys := by
  by_cases hmem : k ∈ t.keys
  · obtain ⟨e, he, rfl⟩ := List.mem_map.1 hmem
    simp [has, get?_of_mem he, hmem]
  · simp [has, get?_of_not_mem hmem, hmem]

theorem entries_foldl_set {t : Table κ β} {added : List (κ × β)}
    (h : (t.keys ++ added.map Prod.fst).Nodup) :
    (added.foldl (fun t e => t.set e.1 e.2) t).entries = t.entries ++ added := by
  induction added generalizing t with
  | nil => rw [List.foldl_nil, List.append_nil]
  | cons e added ih =>
      rw [List.map_cons, List.append_cons] at h
      have hfresh : e.1 ∉ t.keys := by
        intro hmem
        have hinit := (List.nodup_append.1 h).1
        exact (List.nodup_append.1 hinit).2.2 e.1 hmem e.1 (List.mem_singleton_self _) rfl
      have hset : (t.set e.1 e.2).entries = t.entries ++ [e] := entries_set_of_not_mem e.2 hfresh
      have hkeys : (t.set e.1 e.2).keys = t.keys ++ [e.1] := by
        rw [keys, hset, List.map_append]
        rfl
      rw [List.foldl_cons, ih (by rwa [hkeys]), hset, List.append_assoc, List.singleton_append]

theorem ofList_entries (t : Table κ β) : ofList t.entries = t := by
  refine ext (entries_foldl_set ?_)
  exact t.keysNodup

/-- What the table of a list has comes from the list. -/
theorem mem_of_get?_ofList {entries : List (κ × β)} {v : β} (h : (ofList entries).get? k = some v) :
    (k, v) ∈ entries := by
  have hadd : ∀ t : Table κ β, (entries.foldl (fun t e => t.set e.1 e.2) t).get? k = some v →
      t.get? k = some v ∨ (k, v) ∈ entries := by
    clear h
    induction entries with
    | nil => exact fun t ht => .inl ht
    | cons e entries ih =>
        intro t ht
        rcases ih (t.set e.1 e.2) ht with hset | hmem
        · rw [get?_set] at hset
          split at hset
          · rename_i hkey
            cases hset
            cases hkey
            exact .inr List.mem_cons_self
          · exact .inl hset
        · exact .inr (List.mem_cons_of_mem e hmem)
  exact (hadd empty h).resolve_left (by simp)

theorem mem_keys_ofList {entries : List (κ × β)} (h : k ∈ (ofList entries).keys) :
    k ∈ entries.map Prod.fst := by
  obtain ⟨e, he, rfl⟩ := List.mem_map.1 h
  exact List.mem_map_of_mem (mem_of_get?_ofList (get?_of_mem he))

end Keys

section Merging

variable {κ β : Type} [DecidableEq κ] {k : κ}
variable {t u : Table κ β} {join : Option β → β → β} {entries : List (κ × β)}

/-- The table with the entries of another one.  The value of a key is joined from both tables, if
both have it; a new key goes to the end. -/
def merged (join : Option β → β → β) (t u : Table κ β) : Table κ β :=
  u.entries.foldl (fun t e => t.modify e.1 fun old => join old e.2) t

/-- The table with the entries of another one, whose values count. -/
def updated (t u : Table κ β) : Table κ β :=
  t.merged (fun _ new => new) u

theorem put_comm {j : κ} (hjk : j ≠ k) (v w : β) (h : k ∈ entries.map Prod.fst) :
    put k v (put j w entries) = put j w (put k v entries) := by
  induction entries with
  | nil => simp at h
  | cons e entries ih =>
      obtain ⟨i, x⟩ := e
      rw [List.map_cons, List.mem_cons] at h
      by_cases hij : i = j
      · subst hij
        simp [put, hjk]
      · by_cases hik : i = k
        · subst hik
          simp [put, hij]
        · have hmem : k ∈ entries.map Prod.fst := h.resolve_left fun he => hik he.symm
          simp [put, hij, hik, ih hmem]

theorem map_fst_put_of_mem (v : β) (h : k ∈ entries.map Prod.fst) :
    (put k v entries).map Prod.fst = entries.map Prod.fst := by
  induction entries with
  | nil => simp at h
  | cons e entries ih =>
      obtain ⟨i, x⟩ := e
      rw [List.map_cons, List.mem_cons] at h
      by_cases hik : i = k
      · simp [put, hik]
      · have hmem : k ∈ entries.map Prod.fst := h.resolve_left fun he => hik he.symm
        simp [put, hik, ih hmem]

theorem modify_set_comm {j : κ} (hjk : j ≠ k) (v : β) (g : Option β → β) (h : k ∈ t.keys) :
    (t.set k v).modify j g = (t.modify j g).set k v := by
  rw [modify, modify, get?_set, if_neg (Ne.symm hjk)]
  exact ext (put_comm hjk v _ h).symm

/-- A value may be set in front of entries for other keys as well as behind them. -/
theorem foldl_modify_set (v : β) (h : k ∈ t.keys) (hfresh : k ∉ entries.map Prod.fst) :
    entries.foldl (fun t e => t.modify e.1 fun old => join old e.2) (t.set k v) =
      (entries.foldl (fun t e => t.modify e.1 fun old => join old e.2) t).set k v := by
  induction entries generalizing t with
  | nil => rfl
  | cons e entries ih =>
      rw [List.map_cons, List.mem_cons, not_or] at hfresh
      rw [List.foldl_cons, List.foldl_cons, modify_set_comm (Ne.symm hfresh.1) v _ h]
      exact ih ((mem_keys_set t e.1 k _).2 (.inr h)) hfresh.2

theorem merged_set (w : β) :
    t.merged join (u.set k w) = (t.merged join u).set k (join (t.get? k) w) := by
  obtain ⟨entries, hnodup⟩ := u
  change (put k w entries).foldl (fun t e => t.modify e.1 fun old => join old e.2) t =
    (entries.foldl (fun t e => t.modify e.1 fun old => join old e.2) t).set k _
  induction entries generalizing t with
  | nil => rfl
  | cons e entries ih =>
      obtain ⟨j, x⟩ := e
      rw [List.map_cons, List.nodup_cons] at hnodup
      by_cases hjk : j = k
      · subst hjk
        have hmem : j ∈ (t.modify j fun old => join old x).keys :=
          (mem_keys_set t j j _).2 (.inl rfl)
        rw [put, if_pos rfl, List.foldl_cons, List.foldl_cons, ← foldl_modify_set _ hmem hnodup.1]
        simp only [modify, set_set]
      · have hget : (t.modify j fun old => join old x).get? k = t.get? k := by
          rw [get?_modify, if_neg hjk]
        rw [put, if_neg hjk, List.foldl_cons, List.foldl_cons, ih hnodup.2, hget]

theorem get?_merged (t u : Table κ β) (join : Option β → β → β) (k : κ) :
    (t.merged join u).get? k =
      match u.get? k with
      | some new => some (join (t.get? k) new)
      | none => t.get? k := by
  obtain ⟨entries, hnodup⟩ := u
  change (entries.foldl (fun t e => t.modify e.1 fun old => join old e.2) t).get? k =
    match lookup k entries with
    | some new => some (join (t.get? k) new)
    | none => t.get? k
  induction entries generalizing t with
  | nil => rfl
  | cons e entries ih =>
      obtain ⟨j, x⟩ := e
      rw [List.map_cons, List.nodup_cons] at hnodup
      rw [List.foldl_cons, ih _ hnodup.2, get?_modify, lookup]
      by_cases hjk : j = k
      · subst hjk
        simp [lookup_of_not_mem hnodup.1]
      · simp [hjk]

theorem set_updated (t u : Table κ β) (k : κ) (v : β) :
    (t.updated u).set k v = t.updated (u.set k v) :=
  (merged_set v).symm

/-- A value that the upper table has may be changed in front of the merging as well as behind it. -/
theorem modify_updated (t : Table κ β) (h : (u.get? k).isSome = true) (f : Option β → β) :
    (t.updated u).modify k f = t.updated (u.modify k f) := by
  obtain ⟨v, hv⟩ := Option.isSome_iff_exists.1 h
  have hget : (t.updated u).get? k = u.get? k := by
    rw [updated, get?_merged, hv]
  rw [modify, modify, hget, set_updated]

/-- The keys of the first table keep their places, and those that are new come behind them. -/
theorem keys_merged (t u : Table κ β) (join : Option β → β → β) :
    (t.merged join u).keys = t.keys ++ u.keys.filter (fun k => k ∉ t.keys) := by
  obtain ⟨entries, hnodup⟩ := u
  change (entries.foldl (fun t e => t.modify e.1 fun old => join old e.2) t).keys =
    t.keys ++ (entries.map Prod.fst).filter (fun k => k ∉ t.keys)
  induction entries generalizing t with
  | nil => simp
  | cons e entries ih =>
      obtain ⟨j, x⟩ := e
      rw [List.map_cons, List.nodup_cons] at hnodup
      rw [List.foldl_cons, ih _ hnodup.2, List.map_cons]
      by_cases hj : j ∈ t.keys
      · have hkeys : (t.modify j fun old => join old x).keys = t.keys :=
          map_fst_put_of_mem _ hj
        simp [hkeys, hj]
      · have hkeys : (t.modify j fun old => join old x).keys = t.keys ++ [j] := by
          rw [keys, modify, entries_set_of_not_mem _ hj, List.map_append]
          rfl
        have hrest : (entries.map Prod.fst).filter (fun k => k ∉ t.keys ++ [j]) =
            (entries.map Prod.fst).filter (fun k => k ∉ t.keys) := by
          refine List.filter_congr fun k hk => ?_
          have hkj : k ≠ j := fun he => hnodup.1 (he ▸ hk)
          simp [hkj]
        rw [hkeys, hrest]
        simp [hj]

end Merging

end Table
end Phrasebook
