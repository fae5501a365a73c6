import Datalog.OrderedSet

/-!
# Finite maps as lists with strictly ascending keys

**Type.** An `OrderedMap κ ν` is a list of entries together with a proof that each key is
smaller than every later one, so that a map has exactly one representation.

**Operations.** Look-up, insertion that replaces, and one traversal that keeps, changes or drops
each entry.  Each operation has one lemma on look-up.

**Results.** Two maps that look up alike are equal.
-/

namespace Datalog

section OrderedMap

/-- A finite map, kept as the list of its entries in strictly ascending order of the keys. -/
structure OrderedMap (κ : Type) [Ord κ] (ν : Type) where
  entries : List (κ × ν)
  ascending : entries.Pairwise (fun a b => compare a.1 b.1 = .lt)
deriving DecidableEq

namespace OrderedMap

variable {κ : Type} [Ord κ] {ν μ : Type}

/-- The map without entries. -/
def empty : OrderedMap κ ν :=
  ⟨[], List.Pairwise.nil⟩

instance : EmptyCollection (OrderedMap κ ν) :=
  ⟨empty⟩

instance : Inhabited (OrderedMap κ ν) :=
  ⟨empty⟩

/-- The number of entries. -/
def size (m : OrderedMap κ ν) : Nat :=
  m.entries.length

/-- Whether there is no entry. -/
def isEmpty (m : OrderedMap κ ν) : Bool :=
  m.entries.isEmpty

/-- The keys, ascending. -/
def keys (m : OrderedMap κ ν) : List κ :=
  m.entries.map (·.1)

/-- The values, in the order of their keys. -/
def values (m : OrderedMap κ ν) : List ν :=
  m.entries.map (·.2)

/-- The keys as a set. -/
def keySet (m : OrderedMap κ ν) : OrderedSet κ :=
  ⟨m.keys, List.pairwise_map.2 m.ascending⟩

/-- The value at the first entry of the list with key `k`. -/
def findIn (k : κ) : List (κ × ν) → Option ν
  | [] => none
  | entry :: rest =>
      if compare k entry.1 == .eq then
        some entry.2
      else
        findIn k rest

/-- The value at key `k`. -/
def get? (m : OrderedMap κ ν) (k : κ) : Option ν :=
  findIn k m.entries

/-- Whether `k` is a key. -/
def contains (m : OrderedMap κ ν) (k : κ) : Bool :=
  (m.get? k).isSome

/-- Visits every entry; `f` gives the new value or drops the entry. -/
def filterMap (f : κ → ν → Option μ) (m : OrderedMap κ ν) : OrderedMap κ μ :=
  ⟨m.entries.filterMap fun entry => (f entry.1 entry.2).map (entry.1, ·), by
    refine List.Pairwise.filterMap _ ?_ m.ascending
    intro a b hlt a' ha b' hb
    obtain ⟨_, _, rfl⟩ := Option.map_eq_some_iff.1 ha
    obtain ⟨_, _, rfl⟩ := Option.map_eq_some_iff.1 hb
    exact hlt⟩

/-- The list with the entry of `k` set to `v`. -/
def placeIn (k : κ) (v : ν) : List (κ × ν) → List (κ × ν)
  | [] => [(k, v)]
  | entry :: rest =>
      match compare k entry.1 with
      | .lt => (k, v) :: entry :: rest
      | .eq => (k, v) :: rest
      | .gt => entry :: placeIn k v rest

@[simp] theorem get?_empty (k : κ) :
    (∅ : OrderedMap κ ν).get? k = none :=
  rfl

theorem fst_mem_placeIn
    {k : κ} {v : ν} {l : List (κ × ν)} {e : κ × ν}
    (h : e ∈ placeIn k v l) :
    e.1 = k ∨ e ∈ l := by
  induction l with
  | nil =>
      exact Or.inl (congrArg Prod.fst (List.mem_singleton.1 h))
  | cons entry rest ih =>
      rw [placeIn] at h
      split at h
      · rcases List.mem_cons.1 h with rfl | h
        · exact Or.inl rfl
        · exact Or.inr h
      · rcases List.mem_cons.1 h with rfl | h
        · exact Or.inl rfl
        · exact Or.inr (List.mem_cons_of_mem _ h)
      · rcases List.mem_cons.1 h with rfl | h
        · exact Or.inr List.mem_cons_self
        · exact (ih h).imp_right (List.mem_cons_of_mem _)

variable [Std.LawfulEqOrd κ]

theorem nodup_entries (m : OrderedMap κ ν) :
    m.entries.Nodup := by
  refine m.ascending.imp ?_
  rintro entry _ hlt rfl
  simp at hlt

theorem findIn_eq_some_iff
    {k : κ} {v : ν} {l : List (κ × ν)}
    (h : l.Pairwise (fun a b => compare a.1 b.1 = .lt)) :
    findIn k l = some v ↔ (k, v) ∈ l := by
  induction l with
  | nil => simp [findIn]
  | cons entry rest ih =>
      obtain ⟨hentry, hrest⟩ := List.pairwise_cons.1 h
      rw [findIn]
      split
      · rename_i heq
        obtain rfl := OrderedSet.compare_eq_iff.1 heq
        rw [Option.some.injEq, List.mem_cons]
        constructor
        · rintro rfl
          exact Or.inl rfl
        · rintro (heq | hmem)
          · exact congrArg Prod.snd heq.symm
          · have := hentry _ hmem
            simp at this
      · rename_i hne
        rw [ih hrest, List.mem_cons]
        constructor
        · exact Or.inr
        · rintro (heq | hmem)
          · exact absurd (OrderedSet.compare_eq_iff.2 (congrArg Prod.fst heq)) hne
          · exact hmem

/-- Look-up finds exactly the entries. -/
theorem get?_eq_some_iff
    {m : OrderedMap κ ν} {k : κ} {v : ν} :
    m.get? k = some v ↔ (k, v) ∈ m.entries :=
  findIn_eq_some_iff m.ascending

theorem mem_values_iff
    {m : OrderedMap κ ν} {v : ν} :
    v ∈ m.values ↔ ∃ k, m.get? k = some v := by
  simp [values, get?_eq_some_iff]

theorem mem_keySet_iff
    {m : OrderedMap κ ν} {k : κ} :
    k ∈ m.keySet ↔ (m.get? k).isSome = true := by
  rw [← OrderedSet.mem_toList, Option.isSome_iff_exists]
  simp [keySet, keys, get?_eq_some_iff]

@[simp] theorem get?_filterMap
    (f : κ → ν → Option μ) (m : OrderedMap κ ν) (k : κ) :
    (m.filterMap f).get? k = (m.get? k).bind (f k) := by
  apply Option.ext
  intro w
  rw [get?_eq_some_iff, Option.bind_eq_some_iff]
  simp only [filterMap, List.mem_filterMap, Option.map_eq_some_iff]
  constructor
  · rintro ⟨⟨k', v⟩, hmem, w', hw, heq⟩
    cases heq
    exact ⟨v, get?_eq_some_iff.2 hmem, hw⟩
  · rintro ⟨v, hv, hw⟩
    exact ⟨(k, v), get?_eq_some_iff.1 hv, w, hw, rfl⟩

theorem findIn_placeIn [DecidableEq κ]
    (k k' : κ) (v : ν) (l : List (κ × ν)) :
    findIn k' (placeIn k v l) = if k' = k then some v else findIn k' l := by
  induction l with
  | nil =>
      by_cases h : k' = k <;> simp [placeIn, findIn, h]
  | cons entry rest ih =>
      rw [placeIn]
      split
      · by_cases h : k' = k <;> simp [findIn, h]
      · rename_i heq
        obtain rfl := Std.LawfulEqCmp.eq_of_compare heq
        by_cases h : k' = entry.1 <;> simp [findIn, h]
      · rename_i hgt
        simp only [findIn, ih]
        by_cases h : k' = entry.1
        · have hne : k' ≠ k := by
            rintro rfl
            rw [h] at hgt
            simp at hgt
          simp [← h, hne]
        · simp [h]

section Ordered

variable [Std.TransOrd κ]

theorem pairwise_placeIn
    {k : κ} {v : ν} {l : List (κ × ν)}
    (h : l.Pairwise (fun a b => compare a.1 b.1 = .lt)) :
    (placeIn k v l).Pairwise (fun a b => compare a.1 b.1 = .lt) := by
  induction l with
  | nil => simp [placeIn]
  | cons entry rest ih =>
      obtain ⟨hentry, hrest⟩ := List.pairwise_cons.1 h
      rw [placeIn]
      split
      · rename_i hlt
        refine List.pairwise_cons.2 ⟨?_, h⟩
        intro e he
        rcases List.mem_cons.1 he with rfl | he
        · exact hlt
        · exact Std.TransCmp.lt_trans hlt (hentry e he)
      · rename_i heq
        obtain rfl := Std.LawfulEqCmp.eq_of_compare heq
        exact List.pairwise_cons.2 ⟨hentry, hrest⟩
      · rename_i hgt
        refine List.pairwise_cons.2 ⟨?_, ih hrest⟩
        intro e he
        rcases fst_mem_placeIn he with heq | he
        · rw [heq]
          exact Std.OrientedCmp.lt_of_gt hgt
        · exact hentry e he

/-- The map with the value at `k` set to `v`. -/
def insert (m : OrderedMap κ ν) (k : κ) (v : ν) : OrderedMap κ ν :=
  ⟨placeIn k v m.entries, pairwise_placeIn m.ascending⟩

@[simp] theorem get?_insert [DecidableEq κ]
    (m : OrderedMap κ ν) (k k' : κ) (v : ν) :
    (m.insert k v).get? k' = if k' = k then some v else m.get? k' :=
  findIn_placeIn k k' v m.entries

/-- A map is determined by its look-ups. -/
theorem ext_get?
    {m₁ m₂ : OrderedMap κ ν}
    (h : ∀ k, m₁.get? k = m₂.get? k) :
    m₁ = m₂ := by
  have hmem (entry : κ × ν) : entry ∈ m₁.entries ↔ entry ∈ m₂.entries := by
    obtain ⟨k, v⟩ := entry
    rw [← get?_eq_some_iff, ← get?_eq_some_iff, h]
  have hantisymm (a b : κ × ν) (_ : a ∈ m₁.entries) (_ : b ∈ m₂.entries)
      (hab : compare a.1 b.1 = .lt) (hba : compare b.1 a.1 = .lt) : a = b :=
    absurd hba (Std.OrientedCmp.not_lt_of_lt hab)
  have hperm := (List.perm_ext_iff_of_nodup m₁.nodup_entries m₂.nodup_entries).2 hmem
  have hentries := hperm.eq_of_pairwise hantisymm m₁.ascending m₂.ascending
  cases m₁
  cases m₂
  cases hentries
  rfl

/-- Writing the value that is already there changes nothing. -/
theorem insert_eq_self [DecidableEq κ]
    {m : OrderedMap κ ν} {k : κ} {v : ν}
    (h : m.get? k = some v) :
    m.insert k v = m := by
  refine ext_get? fun k' => ?_
  rw [get?_insert]
  split
  · rename_i hk
    rw [hk, h]
  · rfl

end Ordered

end OrderedMap

end OrderedMap

end Datalog
