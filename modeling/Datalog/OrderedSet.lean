/-!
# Finite sets as strictly ascending lists

**Type.** An `OrderedSet α` is a list together with a proof that each entry is smaller than
every later one, so that a set has exactly one representation.

**Operations.** Sets are built from arbitrary lists, extended by one element, merged, and
filtered.  Each operation has one lemma on membership.

**Results.** Two sets with the same members are equal.
-/

namespace Datalog

section OrderedSet

/-- A finite set, kept as the strictly ascending list of its members. -/
structure OrderedSet (α : Type) [Ord α] where
  toList : List α
  ascending : toList.Pairwise (fun a b => compare a b = .lt)
deriving DecidableEq

namespace OrderedSet

variable {α : Type} [Ord α]

instance : Membership α (OrderedSet α) :=
  ⟨fun s a => a ∈ s.toList⟩

theorem mem_toList
    {s : OrderedSet α} {a : α} :
    a ∈ s.toList ↔ a ∈ s :=
  Iff.rfl

/-- The set without members. -/
def empty : OrderedSet α :=
  ⟨[], List.Pairwise.nil⟩

instance : EmptyCollection (OrderedSet α) :=
  ⟨empty⟩

instance : Inhabited (OrderedSet α) :=
  ⟨empty⟩

/-- The number of members. -/
def size (s : OrderedSet α) : Nat :=
  s.toList.length

/-- Whether there is no member. -/
def isEmpty (s : OrderedSet α) : Bool :=
  s.toList.isEmpty

/-- Whether `a` is a member. -/
def contains (s : OrderedSet α) (a : α) : Bool :=
  s.toList.any fun b => compare a b == .eq

/-- The members that satisfy `p`. -/
def filter (p : α → Bool) (s : OrderedSet α) : OrderedSet α :=
  ⟨s.toList.filter p, s.ascending.filter p⟩

@[simp] theorem mem_filter
    {p : α → Bool} {s : OrderedSet α} {a : α} :
    a ∈ s.filter p ↔ a ∈ s ∧ p a = true :=
  List.mem_filter

@[simp] theorem not_mem_empty (a : α) : ¬ a ∈ (∅ : OrderedSet α) :=
  List.not_mem_nil

theorem compare_eq_iff [Std.LawfulEqOrd α] {a b : α} : (compare a b == .eq) = true ↔ a = b := by
  simp [Std.LawfulEqCmp.compare_eq_iff_eq]

theorem nodup_toList [Std.LawfulEqOrd α] (s : OrderedSet α) :
    s.toList.Nodup := by
  refine s.ascending.imp ?_
  rintro a _ hlt rfl
  simp at hlt

@[simp] theorem contains_iff [Std.LawfulEqOrd α]
    {s : OrderedSet α} {a : α} :
    s.contains a = true ↔ a ∈ s := by
  simp only [contains, List.any_eq_true, compare_eq_iff]
  constructor
  · rintro ⟨b, hb, rfl⟩
    exact hb
  · intro h
    exact ⟨a, h, rfl⟩

instance [Std.LawfulEqOrd α] (a : α) (s : OrderedSet α) : Decidable (a ∈ s) :=
  decidable_of_iff (s.contains a = true) contains_iff

/-- The set without `a`. -/
def erase (s : OrderedSet α) (a : α) : OrderedSet α :=
  s.filter fun b => !(compare a b == .eq)

/-- Splitting a set by a test loses no member. -/
theorem size_filter_add_size_filter_not
    (p : α → Bool) (s : OrderedSet α) :
    (s.filter p).size + (s.filter fun a => !p a).size = s.size := by
  simp only [size, filter]
  induction s.toList with
  | nil => rfl
  | cons a rest ih =>
      cases h : p a <;> simp [h] <;> omega

@[simp] theorem mem_erase [Std.LawfulEqOrd α]
    {s : OrderedSet α} {a b : α} :
    b ∈ s.erase a ↔ b ∈ s ∧ b ≠ a := by
  rw [erase, mem_filter, Bool.not_eq_true', ← Bool.not_eq_true, compare_eq_iff]
  exact and_congr_right fun _ => ne_comm

/-- Taking out a member leaves fewer members. -/
theorem size_erase_lt [Std.LawfulEqOrd α]
    {s : OrderedSet α} {a : α} (h : a ∈ s) :
    (s.erase a).size < s.size := by
  have hsplit := size_filter_add_size_filter_not (fun b => compare a b == .eq) s
  have hpos : 0 < (s.filter fun b => compare a b == .eq).size := by
    have hmem : a ∈ s.toList.filter fun b => compare a b == .eq :=
      List.mem_filter.2 ⟨h, compare_eq_iff.2 rfl⟩
    exact List.length_pos_of_mem hmem
  change (s.filter fun b => !(compare a b == .eq)).size < s.size
  omega

theorem pairwise_isLE (s : OrderedSet α) :
    s.toList.Pairwise (fun a b => (compare a b).isLE = true) :=
  s.ascending.imp fun h => by simp [h]

theorem isLE_total [Std.TransOrd α] (a b : α) :
    ((compare a b).isLE || (compare b a).isLE) = true := by
  have hswap : compare b a = (compare a b).swap := Std.OrientedCmp.eq_swap
  rw [hswap]
  cases compare a b <;> rfl

theorem pairwise_mergeSort_isLE [Std.TransOrd α] (l : List α) :
    (l.mergeSort fun a b => (compare a b).isLE).Pairwise
      (fun a b => (compare a b).isLE = true) :=
  List.pairwise_mergeSort
    (fun _ _ _ => Std.TransCmp.isLE_trans)
    isLE_total l

theorem pairwise_merge_isLE [Std.TransOrd α]
    {s t : List α}
    (hs : s.Pairwise (fun a b => (compare a b).isLE = true))
    (ht : t.Pairwise (fun a b => (compare a b).isLE = true)) :
    (s.merge t fun a b => (compare a b).isLE).Pairwise
      (fun a b => (compare a b).isLE = true) :=
  List.pairwise_merge
    (fun _ _ _ => Std.TransCmp.isLE_trans)
    isLE_total s t hs ht

section Construction

/-- The entries of an ascending list that differ from the entry before them, the first of which
is compared with `previous`. -/
def changesAfter (previous : α) : List α → List α
  | [] => []
  | a :: rest =>
      if compare previous a == .eq then
        changesAfter previous rest
      else
        a :: changesAfter a rest

/-- The list without the entries that repeat the entry before them. -/
def changes : List α → List α
  | [] => []
  | a :: rest => a :: changesAfter a rest

/-- The list with `a` put before the first larger entry, unless it is an entry already. -/
def place (a : α) : List α → List α
  | [] => [a]
  | b :: rest =>
      match compare a b with
      | .lt => a :: b :: rest
      | .eq => b :: rest
      | .gt => b :: place a rest

theorem mem_place [Std.LawfulEqOrd α] {a x : α} {l : List α} :
    x ∈ place a l ↔ x = a ∨ x ∈ l := by
  induction l with
  | nil => simp [place]
  | cons b rest ih =>
      rw [place]
      split
      · simp
      · rename_i heq
        obtain rfl := Std.LawfulEqCmp.eq_of_compare heq
        simp
      · rw [List.mem_cons, ih, List.mem_cons]
        constructor
        · rintro (h | h | h)
          · exact Or.inr (Or.inl h)
          · exact Or.inl h
          · exact Or.inr (Or.inr h)
        · rintro (h | h | h)
          · exact Or.inr (Or.inl h)
          · exact Or.inl h
          · exact Or.inr (Or.inr h)

variable [Std.TransOrd α] [Std.LawfulEqOrd α]

theorem mem_changesAfter
    {previous x : α} {l : List α}
    (h : (previous :: l).Pairwise (fun a b => (compare a b).isLE = true)) :
    x ∈ changesAfter previous l ↔ x ∈ l ∧ x ≠ previous := by
  induction l generalizing previous with
  | nil => simp [changesAfter]
  | cons a rest ih =>
      obtain ⟨hle, htail⟩ := List.pairwise_cons.1 h
      rw [changesAfter]
      split
      · rename_i heq
        obtain rfl := compare_eq_iff.1 heq
        rw [ih htail]
        constructor
        · rintro ⟨hx, hne⟩
          exact ⟨List.mem_cons_of_mem _ hx, hne⟩
        · rintro ⟨hx, hne⟩
          exact ⟨(List.mem_cons.1 hx).resolve_left hne, hne⟩
      · rename_i hneq
        have hpa : previous ≠ a := fun he => hneq (compare_eq_iff.2 he)
        rw [List.mem_cons, ih htail]
        constructor
        · rintro (rfl | ⟨hx, hne⟩)
          · exact ⟨List.mem_cons_self, fun he => hpa he.symm⟩
          · refine ⟨List.mem_cons_of_mem _ hx, ?_⟩
            rintro rfl
            have h₁ := hle a List.mem_cons_self
            have h₂ := (List.pairwise_cons.1 htail).1 _ hx
            exact hne (Std.LawfulEqCmp.eq_of_compare
              (Std.OrientedCmp.isLE_antisymm h₁ h₂))
        · rintro ⟨hx, hne⟩
          rcases List.mem_cons.1 hx with rfl | hx
          · exact Or.inl rfl
          · by_cases hxa : x = a
            · exact Or.inl hxa
            · exact Or.inr ⟨hx, hxa⟩

theorem pairwise_changesAfter
    {previous : α} {l : List α}
    (h : (previous :: l).Pairwise (fun a b => (compare a b).isLE = true)) :
    (previous :: changesAfter previous l).Pairwise (fun a b => compare a b = .lt) := by
  induction l generalizing previous with
  | nil => simp [changesAfter]
  | cons a rest ih =>
      obtain ⟨hle, htail⟩ := List.pairwise_cons.1 h
      rw [changesAfter]
      split
      · rename_i heq
        obtain rfl := compare_eq_iff.1 heq
        exact ih htail
      · rename_i hneq
        have hlt : compare previous a = .lt := by
          have h₁ := hle a List.mem_cons_self
          cases hc : compare previous a with
          | lt => rfl
          | eq => simp [hc] at hneq
          | gt => simp [hc] at h₁
        have hrest := ih htail
        refine List.pairwise_cons.2 ⟨?_, hrest⟩
        intro x hx
        rcases List.mem_cons.1 hx with rfl | hx
        · exact hlt
        · exact Std.TransCmp.lt_trans hlt ((List.pairwise_cons.1 hrest).1 x hx)

theorem mem_changes
    {x : α} {l : List α}
    (h : l.Pairwise (fun a b => (compare a b).isLE = true)) :
    x ∈ changes l ↔ x ∈ l := by
  cases l with
  | nil => simp [changes]
  | cons a rest =>
      rw [changes, List.mem_cons, List.mem_cons, mem_changesAfter h]
      by_cases hx : x = a <;> simp [hx]

theorem pairwise_changes
    {l : List α}
    (h : l.Pairwise (fun a b => (compare a b).isLE = true)) :
    (changes l).Pairwise (fun a b => compare a b = .lt) := by
  cases l with
  | nil => simp [changes]
  | cons a rest => exact pairwise_changesAfter h

theorem pairwise_place
    {a : α} {l : List α}
    (h : l.Pairwise (fun a b => compare a b = .lt)) :
    (place a l).Pairwise (fun a b => compare a b = .lt) := by
  induction l with
  | nil => simp [place]
  | cons b rest ih =>
      obtain ⟨hb, hrest⟩ := List.pairwise_cons.1 h
      rw [place]
      split
      · rename_i hlt
        refine List.pairwise_cons.2 ⟨?_, h⟩
        intro x hx
        rcases List.mem_cons.1 hx with rfl | hx
        · exact hlt
        · exact Std.TransCmp.lt_trans hlt (hb x hx)
      · exact h
      · rename_i hgt
        refine List.pairwise_cons.2 ⟨?_, ih hrest⟩
        intro x hx
        rcases mem_place.1 hx with rfl | hx
        · exact Std.OrientedCmp.lt_of_gt hgt
        · exact hb x hx

/-- The set of the entries of a list. -/
def ofList (l : List α) : OrderedSet α :=
  ⟨changes (l.mergeSort fun a b => (compare a b).isLE),
    pairwise_changes (pairwise_mergeSort_isLE l)⟩

@[simp] theorem mem_ofList {l : List α} {a : α} :
    a ∈ ofList l ↔ a ∈ l := by
  rw [← mem_toList, ofList, mem_changes (pairwise_mergeSort_isLE l), List.mem_mergeSort]

/-- The set with `a` as a further member. -/
def insert (s : OrderedSet α) (a : α) : OrderedSet α :=
  ⟨place a s.toList, pairwise_place s.ascending⟩

@[simp] theorem mem_insert {s : OrderedSet α} {a x : α} :
    x ∈ s.insert a ↔ x = a ∨ x ∈ s :=
  mem_place

/-- The members of either set. -/
def union (s t : OrderedSet α) : OrderedSet α :=
  ⟨changes (s.toList.merge t.toList fun a b => (compare a b).isLE),
    pairwise_changes (pairwise_merge_isLE s.pairwise_isLE t.pairwise_isLE)⟩

instance : Union (OrderedSet α) :=
  ⟨union⟩

@[simp] theorem mem_union {s t : OrderedSet α} {a : α} :
    a ∈ s ∪ t ↔ a ∈ s ∨ a ∈ t := by
  change a ∈ changes _ ↔ _
  rw [mem_changes (pairwise_merge_isLE s.pairwise_isLE t.pairwise_isLE), List.mem_merge]
  exact Iff.rfl

/-- A set is determined by its members. -/
theorem ext_mem
    {s t : OrderedSet α}
    (h : ∀ a, a ∈ s ↔ a ∈ t) :
    s = t := by
  have hantisymm (a b : α) (_ : a ∈ s.toList) (_ : b ∈ t.toList)
      (hab : compare a b = .lt) (hba : compare b a = .lt) : a = b :=
    absurd hba (Std.OrientedCmp.not_lt_of_lt hab)
  have hperm := (List.perm_ext_iff_of_nodup s.nodup_toList t.nodup_toList).2 h
  have hlist := hperm.eq_of_pairwise hantisymm s.ascending t.ascending
  cases s
  cases t
  cases hlist
  rfl

end Construction

end OrderedSet

end OrderedSet

end Datalog
