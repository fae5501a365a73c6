/-!
# Lists of values under keys

**Type.** A list of pairs of a key and a value.  A key has the value of its first pair.

**Operation.** `put` sets the value of a key, at the place of its first pair or at the end.  Keys
that differ go on to differ.
-/

namespace Datalog

section Keyed

namespace Keyed

variable {α : Type}

/-- The pairs with the value of a key set. -/
def put (key : String) (value : α) : List (String × α) → List (String × α)
  | [] => [(key, value)]
  | pair :: rest =>
      if pair.1 = key then
        (key, value) :: rest
      else
        pair :: put key value rest

theorem lookup_cons_self (key : String) (value : α) (rest : List (String × α)) :
    List.lookup key ((key, value) :: rest) = some value := by
  rw [List.lookup_cons, beq_self_eq_true]

theorem lookup_cons_of_ne
    {key first : String} {value : α} {rest : List (String × α)}
    (h : key ≠ first) :
    List.lookup key ((first, value) :: rest) = rest.lookup key := by
  rw [List.lookup_cons, beq_eq_false_iff_ne.2 h]

theorem lookup_put
    (key other : String) (value : α) (pairs : List (String × α)) :
    (put key value pairs).lookup other =
      if other = key then some value else pairs.lookup other := by
  induction pairs with
  | nil =>
      split
      · rename_i h
        rw [h, put, lookup_cons_self]
      · rename_i h
        rw [put, lookup_cons_of_ne h]
  | cons pair rest ih =>
      obtain ⟨first, old⟩ := pair
      rw [put]
      split
      · rename_i heq
        subst heq
        split
        · rename_i h
          rw [h, lookup_cons_self]
        · rename_i h
          rw [lookup_cons_of_ne h, lookup_cons_of_ne h]
      · rename_i hne
        by_cases h : other = first
        · rw [h, lookup_cons_self, lookup_cons_self, if_neg hne]
        · rw [lookup_cons_of_ne h, lookup_cons_of_ne h, ih]

theorem eq_or_mem_of_mem_put
    {key : String} {value : α} {pairs : List (String × α)} {pair : String × α}
    (h : pair ∈ put key value pairs) :
    pair = (key, value) ∨ pair ∈ pairs := by
  induction pairs with
  | nil => exact Or.inl (List.mem_singleton.1 h)
  | cons first rest ih =>
      rw [put] at h
      split at h
      · exact (List.mem_cons.1 h).imp_right (List.mem_cons_of_mem _)
      · rcases List.mem_cons.1 h with rfl | h
        · exact Or.inr List.mem_cons_self
        · exact (ih h).imp_right (List.mem_cons_of_mem _)

theorem nodup_keys_put
    {key : String} {value : α} {pairs : List (String × α)}
    (h : (pairs.map Prod.fst).Nodup) :
    ((put key value pairs).map Prod.fst).Nodup := by
  induction pairs with
  | nil => simp [put]
  | cons first rest ih =>
      rw [List.map_cons, List.nodup_cons] at h
      rw [put]
      split
      · rename_i heq
        subst heq
        rw [List.map_cons, List.nodup_cons]
        exact h
      · rename_i hne
        rw [List.map_cons, List.nodup_cons]
        refine ⟨fun hmem => ?_, ih h.2⟩
        obtain ⟨pair, hpair, heq⟩ := List.mem_map.1 hmem
        rcases eq_or_mem_of_mem_put hpair with rfl | hpair
        · exact hne heq.symm
        · exact h.1 (List.mem_map.2 ⟨pair, hpair, heq⟩)

/-- A pair of a list whose keys differ is what a look-up of its key finds. -/
theorem lookup_eq_some_iff
    {pairs : List (String × α)} {key : String} {value : α}
    (h : (pairs.map Prod.fst).Nodup) :
    pairs.lookup key = some value ↔ (key, value) ∈ pairs := by
  induction pairs with
  | nil => simp
  | cons first rest ih =>
      obtain ⟨other, old⟩ := first
      rw [List.map_cons, List.nodup_cons] at h
      by_cases heq : key = other
      · subst heq
        rw [lookup_cons_self, List.mem_cons, Option.some.injEq, Prod.mk.injEq]
        constructor
        · rintro rfl
          exact Or.inl ⟨rfl, rfl⟩
        · rintro (⟨_, rfl⟩ | hmem)
          · rfl
          · exact absurd (List.mem_map.2 ⟨_, hmem, rfl⟩) h.1
      · rw [lookup_cons_of_ne heq, ih h.2, List.mem_cons, Prod.mk.injEq]
        exact ⟨Or.inr, fun hmem => hmem.resolve_left fun hfirst => heq hfirst.1⟩

end Keyed

end Keyed

end Datalog
