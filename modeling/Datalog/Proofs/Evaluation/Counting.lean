import Datalog.Proofs.Evaluation.Consequence
import Mathlib.Data.List.Perm.Subperm
import Mathlib.Data.List.Sections

/-!
# Counting the rows of a database

**Order.** Two ordered databases have the same names, so their relations can be compared one by
one.  A larger database has at least as many rows, and more unless the two are equal.

**Bound.** The rows of a length over a set of values are finitely many.  A database whose values all
come from a smaller one has at most as many rows as the capacity of the smaller one.
-/

namespace Datalog

section Counting

namespace OrderedSet

variable {α : Type} [Ord α] [Std.LawfulEqOrd α]

theorem size_le_of_subset
    {s : OrderedSet α} {l : List α}
    (h : ∀ a ∈ s, a ∈ l) :
    s.size ≤ l.length :=
  (List.subperm_of_subset s.nodup_toList h).length_le

end OrderedSet

namespace OrderedMap

variable {κ ν : Type} [Ord κ]

theorem values_map_some [Std.LawfulEqOrd κ] (m : OrderedMap κ ν) :
    m.values.map some = m.keys.map m.get? := by
  unfold values keys
  rw [List.map_map, List.map_map]
  refine List.map_congr_left fun entry hentry => ?_
  exact (get?_eq_some_iff.2 hentry).symm

theorem eq_of_keys_of_values
    {m n : OrderedMap κ ν}
    (hkeys : m.keys = n.keys)
    (hvalues : m.values = n.values) :
    m = n := by
  have hzip (p : OrderedMap κ ν) : p.entries = p.keys.zip p.values := by
    unfold keys values
    rw [List.zip_map']
    exact (List.map_id _).symm
  have hentries : m.entries = n.entries := by
    rw [hzip m, hzip n, hkeys, hvalues]
  cases m
  cases n
  cases hentries
  rfl

end OrderedMap

namespace Relation

section Size

variable {r s : Relation}

theorem size_le
    (h : r ≤ s) :
    r.size ≤ s.size :=
  OrderedSet.size_le_of_subset h.2.2

theorem eq_of_le_of_size_le
    (h : r ≤ s)
    (hsize : s.size ≤ r.size) :
    r = s := by
  have hsub := List.subperm_of_subset r.rows.nodup_toList h.2.2
  have hperm := hsub.perm_of_length_le hsize
  exact eq_of_mem_iff h.1 h.2.1 fun _ => hperm.mem_iff

theorem length_sections_replicate (values : List String) (n : Nat) :
    (List.replicate n values).sections.length = Nat.pow values.length n := by
  induction n with
  | zero => rfl
  | succ n ih =>
      rw [List.replicate_succ, List.sections, List.length_flatMap]
      simp only [List.length_map, List.map_const', List.sum_replicate_nat]
      rw [ih]
      rfl

theorem mem_sections_replicate
    {values row : List String} {n : Nat}
    (hlength : row.length = n)
    (hvalues : ∀ value ∈ row, value ∈ values) :
    row ∈ (List.replicate n values).sections := by
  rw [List.mem_sections]
  induction row generalizing n with
  | nil =>
      subst hlength
      exact List.Forall₂.nil
  | cons value rest ih =>
      subst hlength
      rw [List.length_cons, List.replicate_succ]
      exact List.Forall₂.cons (hvalues value List.mem_cons_self)
        (ih rfl fun v hv => hvalues v (List.mem_cons_of_mem _ hv))

/-- There are only so many rows of a length over a set of values. -/
theorem size_le_pow
    {values : OrderedSet String}
    (h : r.WellFormed)
    (hvalues : r.Over (· ∈ values)) :
    r.size ≤ Nat.pow values.size r.arity := by
  have hrows : ∀ row ∈ r.rows, row ∈ (List.replicate r.arity values.toList).sections :=
    fun row hrow => mem_sections_replicate (h row hrow) (hvalues row hrow)
  have hsize := OrderedSet.size_le_of_subset hrows
  rw [length_sections_replicate] at hsize
  exact hsize

end Size

end Relation

namespace Database

variable {d e : Database}

theorem keys_eq_of_le
    (h : d ≤ e) :
    d.byName.keys = e.byName.keys := by
  have hset : d.byName.keySet = e.byName.keySet := by
    refine OrderedSet.ext_mem fun name => ?_
    rw [OrderedMap.mem_keySet_iff, OrderedMap.mem_keySet_iff]
    have hnone : d.relation? name = none ↔ e.relation? name = none := eq_none_iff_of_le h
    unfold relation? at hnone
    rw [← not_iff_not, Option.not_isSome_iff_eq_none, Option.not_isSome_iff_eq_none]
    exact hnone
  exact congrArg OrderedSet.toList hset

/-- The relations of ordered databases are ordered one by one. -/
theorem relations_le
    (h : d ≤ e) :
    List.Forall₂ (· ≤ ·) d.relations e.relations := by
  have hsome :
      List.Forall₂ (Option.Rel (· ≤ ·)) (d.relations.map some) (e.relations.map some) := by
    unfold relations
    rw [OrderedMap.values_map_some, OrderedMap.values_map_some, keys_eq_of_le h,
      List.forall₂_map_left_iff, List.forall₂_map_right_iff, List.forall₂_same]
    exact fun name _ => h name
  rw [List.forall₂_map_left_iff, List.forall₂_map_right_iff] at hsome
  refine hsome.imp fun r s hrel => ?_
  cases hrel with
  | some hle => exact hle

theorem foldr_size_mono
    {rs ss : List Relation}
    (h : List.Forall₂ (· ≤ ·) rs ss) :
    rs.foldr (fun r count => r.size + count) 0 ≤
      ss.foldr (fun r count => r.size + count) 0 := by
  induction h with
  | nil => exact Nat.le_refl _
  | cons hle _ ih => exact Nat.add_le_add (Relation.size_le hle) ih

theorem factCount_mono
    (h : d ≤ e) :
    d.factCount ≤ e.factCount :=
  foldr_size_mono (relations_le h)

theorem eq_of_foldr_size_le
    {rs ss : List Relation}
    (h : List.Forall₂ (· ≤ ·) rs ss)
    (hcount :
      ss.foldr (fun r count => r.size + count) 0 ≤
        rs.foldr (fun r count => r.size + count) 0) :
    rs = ss := by
  induction h with
  | nil => rfl
  | cons hle hrest ih =>
      have hsize := Relation.size_le hle
      have htail := foldr_size_mono hrest
      rw [List.foldr_cons, List.foldr_cons] at hcount
      rw [Relation.eq_of_le_of_size_le hle (by omega), ih (by omega)]

/-- A database that grows gets more rows. -/
theorem factCount_strictMono
    (h : d < e) :
    d.factCount < e.factCount := by
  refine Nat.lt_of_not_le fun hcount => ?_
  have hrelations := eq_of_foldr_size_le (relations_le h.le) hcount
  have hmaps := OrderedMap.eq_of_keys_of_values (keys_eq_of_le h.le) hrelations
  exact h.ne (congrArg Database.mk hmaps)

theorem over_values (db : Database) :
    db.Over (· ∈ db.values) := by
  intro name r hr row hrow value hvalue
  unfold values
  rw [OrderedSet.mem_ofList, List.mem_flatMap]
  refine ⟨r, OrderedMap.mem_values_iff.2 ⟨name, hr⟩, ?_⟩
  exact List.mem_flatten.2 ⟨row, hrow, hvalue⟩

/-- A database that grew without new values stays within the capacity of what it grew from. -/
theorem factCount_le_capacity
    (h : d ≤ e)
    (hsound : e.Sound)
    (hover : e.Over (· ∈ d.values)) :
    e.factCount ≤ d.capacity := by
  have hrelations := relations_le h
  have hbounded : ∀ s ∈ e.relations, s.size ≤ Nat.pow d.values.size s.arity := by
    intro s hs
    obtain ⟨name, hname⟩ := OrderedMap.mem_values_iff.1 hs
    exact Relation.size_le_pow (hsound.wellFormed name s hname) (hover name s hname)
  unfold factCount capacity
  generalize d.values = values at hbounded
  generalize d.relations = rs at hrelations ⊢
  generalize e.relations = ss at hrelations hbounded ⊢
  induction hrelations with
  | nil => exact Nat.le_refl _
  | cons hle _ ih =>
      rename_i r s rs ss _
      have harity : s.arity = r.arity := congrArg List.length hle.2.1.symm
      have hs := hbounded s List.mem_cons_self
      rw [harity] at hs
      exact Nat.add_le_add hs (ih fun s' hs' => hbounded s' (List.mem_cons_of_mem _ hs'))

end Database

end Counting

end Datalog
