import Datalog.Proofs.Algebra.Order
import Datalog.Session

/-!
# What firing a rule does to a database

**Databases.** `Reachable` lists the ways to make a database.  `Sound` is what all of them keep: a
relation stands under its own name and has one value for each column.

**Step.** `consequence` is the database after firing a rule, without the memory of a session.  It
grows the head relation by the derived rows and leaves everything else as it is.

**Results.** Firing keeps `Sound`, invents no value, and grows the database.  A database is closed
under a rule if and only if the rule has no consequence for it, and a closed database above another
one lies above its consequence, too.
-/

namespace Datalog

section Consequence

namespace Database

/-- Every relation stands under its own name and has one value for each column. -/
structure Sound (db : Database) : Prop where
  keyed : db.Keyed
  wellFormed : ∀ name r, db.relation? name = some r → r.WellFormed

/-- Every value of every relation has a property. -/
def Over (p : String → Prop) (db : Database) : Prop :=
  ∀ name r, db.relation? name = some r → r.Over p

/-- All rows that the rule derives are in its head relation already. -/
def ClosedUnder (db : Database) (rule : Rule) : Prop :=
  ∀ derived head,
    db.derive rule = .ok derived → db.relation? rule.head.name = some head →
      ∀ row ∈ derived.rows, row ∈ head.rows

/-- The database after firing a rule. -/
def consequence (db : Database) (rule : Rule) : Database :=
  match db.derive rule, db.relation? rule.head.name with
  | .ok derived, some head => db.store (head.union derived)
  | _, _ => db

section Making

variable {db : Database}

theorem relation?_empty (name : String) :
    empty.relation? name = none :=
  rfl

theorem sound_empty : empty.Sound where
  keyed := by simp [Keyed, relation?_empty]
  wellFormed := by simp [relation?_empty]

theorem Sound.store
    (h : db.Sound)
    {r : Relation}
    (hr : r.WellFormed) :
    (db.store r).Sound := by
  refine ⟨?_, ?_⟩
  · intro name s hs
    rw [relation?_store] at hs
    split at hs
    · rename_i hname
      cases hs
      exact hname.symm
    · exact h.keyed name s hs
  · intro name s hs
    rw [relation?_store] at hs
    split at hs
    · cases hs
      exact hr
    · exact h.wellFormed name s hs

theorem sound_ofSchemes (schemes : List Predicate) :
    (ofSchemes schemes).Sound := by
  have hfold (db : Database) (h : db.Sound) :
      (schemes.foldl (fun db scheme => db.store (Relation.empty scheme.name scheme.terms))
        db).Sound := by
    induction schemes generalizing db with
    | nil => exact h
    | cons scheme rest ih => exact ih _ (h.store (Relation.wellFormed_empty _ _))
  exact hfold empty sound_empty

theorem Sound.loadFact
    (h : db.Sound)
    (fact : Predicate) :
    (db.loadFact fact).Sound := by
  unfold Database.loadFact
  split
  · exact h
  · rename_i r hr
    exact h.store ((h.wellFormed fact.name r hr).insert fact.terms)

theorem sound_ofProgram (program : Program) :
    (ofProgram program).Sound := by
  have hfold (facts : List Predicate) (db : Database) (h : db.Sound) :
      (facts.foldl Database.loadFact db).Sound := by
    induction facts generalizing db with
    | nil => exact h
    | cons fact rest ih => exact ih _ (h.loadFact fact)
  exact hfold program.facts _ (sound_ofSchemes program.schemes)

/-- A database that starts without relations or from a program, and gets relations stored. -/
inductive Reachable : Database → Prop
  | empty : Reachable empty
  | ofProgram (program : Program) : Reachable (ofProgram program)
  | store {db : Database} {r : Relation} : Reachable db → r.Built → Reachable (db.store r)

theorem Reachable.sound
    (h : db.Reachable) :
    db.Sound := by
  induction h with
  | empty => exact sound_empty
  | ofProgram program => exact sound_ofProgram program
  | store _ hr ih => exact ih.store hr.wellFormed

end Making

section Deriving

variable {db : Database} {rule : Rule} {p : String → Prop}

theorem over_boundBody
    (h : db.Over p)
    (body : List Predicate) :
    ∀ r ∈ db.boundBody body, r.Over p := by
  intro r hr
  obtain ⟨predicate, _, hmap⟩ := List.mem_filterMap.1 hr
  obtain ⟨s, hs, rfl⟩ := Option.map_eq_some_iff.1 hmap
  exact (h predicate.name s hs).bind predicate

theorem over_foldl_join
    {first : Relation} {rest : List Relation}
    (hfirst : first.Over p)
    (hrest : ∀ r ∈ rest, r.Over p) :
    (rest.foldl Relation.join first).Over p := by
  induction rest generalizing first with
  | nil => exact hfirst
  | cons r rest ih =>
      exact ih (hfirst.join (hrest r List.mem_cons_self))
        fun s hs => hrest s (List.mem_cons_of_mem _ hs)

theorem over_derived
    (h : db.Over p)
    {derived : Relation}
    (hderive : db.derive rule = .ok derived) :
    derived.Over p := by
  obtain ⟨head, first, rest, _, hbody, rfl, _⟩ := derive_eq_ok_iff.1 hderive
  have hall := over_boundBody h rule.body
  rw [hbody] at hall
  have hjoined := over_foldl_join (hall first List.mem_cons_self)
    fun r hr => hall r (List.mem_cons_of_mem _ hr)
  exact (hjoined.project rule.head.terms).renameSchema head.schema

theorem wellFormed_derived
    {derived : Relation}
    (hderive : db.derive rule = .ok derived) :
    derived.WellFormed := by
  obtain ⟨head, first, rest, _, _, rfl, _⟩ := derive_eq_ok_iff.1 hderive
  exact ((Relation.wellFormed_project _ rule.head.terms).renameSchema head.schema).withName _

end Deriving

section Step

variable {db : Database} {rule : Rule}

/-- Firing a rule changes nothing, or it stores the union of the head relation with the derived
relation, which have the same name and schema. -/
theorem consequence_cases (db : Database) (rule : Rule) :
    (∃ obstacle, db.derive rule = .error obstacle ∧ db.consequence rule = db) ∨
      ∃ head derived,
        db.relation? rule.head.name = some head ∧ db.derive rule = .ok derived ∧
        head.schema = derived.schema ∧ db.consequence rule = db.store (head.union derived) := by
  unfold consequence
  cases hderive : db.derive rule with
  | error obstacle => exact Or.inl ⟨obstacle, rfl, rfl⟩
  | ok derived =>
      obtain ⟨head, hhead, _, hschema⟩ := exists_head_of_derive hderive
      rw [hhead]
      exact Or.inr ⟨head, derived, rfl, rfl, hschema.symm, rfl⟩

theorem Sound.consequence
    (h : db.Sound)
    (rule : Rule) :
    (db.consequence rule).Sound := by
  rcases consequence_cases db rule with ⟨_, _, heq⟩ | ⟨head, derived, hhead, hderive, _, heq⟩
  · rw [heq]
    exact h
  · rw [heq]
    exact h.store ((h.wellFormed _ head hhead).union (wellFormed_derived hderive))

theorem Over.consequence
    {p : String → Prop}
    (h : db.Over p)
    (rule : Rule) :
    (db.consequence rule).Over p := by
  rcases consequence_cases db rule with ⟨_, _, heq⟩ | ⟨head, derived, hhead, hderive, _, heq⟩
  · rw [heq]
    exact h
  · rw [heq]
    intro name r hr
    rw [relation?_store] at hr
    split at hr
    · cases hr
      exact (h _ head hhead).union (over_derived h hderive)
    · exact h name r hr

theorem Keyed.name_union
    (h : db.Keyed)
    {head : Relation}
    (hhead : db.relation? rule.head.name = some head)
    (derived : Relation) :
    (head.union derived).name = rule.head.name := by
  rw [Relation.name_union, h _ head hhead]

/-- Firing a rule touches no relation but the one that its head names. -/
theorem relation?_consequence_of_ne
    (h : db.Keyed)
    {name : String}
    (hname : name ≠ rule.head.name) :
    (db.consequence rule).relation? name = db.relation? name := by
  rcases consequence_cases db rule with ⟨_, _, heq⟩ | ⟨head, derived, hhead, _, _, heq⟩
  · rw [heq]
  · rw [heq, relation?_store, if_neg]
    rw [h.name_union hhead]
    exact hname

/-- The relation that the head names gets the derived rows on top of its own. -/
theorem relation?_consequence_of_derive
    (h : db.Keyed)
    {head derived : Relation}
    (hhead : db.relation? rule.head.name = some head)
    (hderive : db.derive rule = .ok derived) :
    (db.consequence rule).relation? rule.head.name = some (head.union derived) := by
  unfold consequence
  rw [hderive, hhead]
  simp only [relation?_store, h.name_union hhead, if_true]

/-- Firing a rule loses no row and changes no schema. -/
theorem le_consequence
    (h : db.Keyed)
    (rule : Rule) :
    db ≤ db.consequence rule := by
  rcases consequence_cases db rule with ⟨_, _, heq⟩ | ⟨head, derived, hhead, _, hschema, heq⟩
  · rw [heq]
  · rw [heq]
    refine le_of_forall ?_ ?_
    · intro name r hr
      rw [relation?_store]
      split
      · rename_i hname
        rw [h.name_union hhead] at hname
        rw [hname, hhead] at hr
        cases hr
        exact ⟨_, rfl, Relation.le_union_left hschema⟩
      · exact ⟨r, hr, le_refl r⟩
    · intro name hnone
      rw [relation?_store, if_neg]
      · exact hnone
      · rw [h.name_union hhead]
        rintro rfl
        rw [hhead] at hnone
        cases hnone

/-- A rule has no consequence for a database that is closed under it, and only for such. -/
theorem closedUnder_iff
    (h : db.Keyed) :
    db.ClosedUnder rule ↔ db.consequence rule = db := by
  rcases consequence_cases db rule with
    ⟨obstacle, herror, heq⟩ | ⟨head, derived, hhead, hderive, hschema, heq⟩
  · refine ⟨fun _ => heq, fun _ derived head hderive _ => ?_⟩
    rw [herror] at hderive
    cases hderive
  · rw [heq]
    have hname := h.name_union hhead derived
    constructor
    · intro hclosed
      have hunion : head.union derived = head :=
        le_antisymm
          (Relation.union_le (le_refl head) hschema (hclosed derived head hderive hhead))
          (Relation.le_union_left hschema)
      refine store_eq_self_of_holds ?_
      rw [holds, hname, hhead, hunion]
      simp
    · intro hstore derived' head' hderive' hhead' row hrow
      rw [hderive] at hderive'
      rw [hhead] at hhead'
      cases hderive'
      cases hhead'
      have hget : (db.store (head.union derived)).relation? rule.head.name =
          some (head.union derived) := by
        rw [relation?_store, if_pos hname.symm]
      rw [hstore, hhead] at hget
      have hunion := Option.some.inj hget
      rw [hunion]
      exact (Relation.mem_union hschema).2 (Or.inr hrow)

/-- A closed database above another one lies above its consequence, too. -/
theorem consequence_le
    {e : Database}
    (hkeyed : db.Keyed)
    (hle : db ≤ e)
    (hclosed : e.ClosedUnder rule) :
    db.consequence rule ≤ e := by
  rcases consequence_cases db rule with ⟨_, _, heq⟩ | ⟨head, derived, hhead, hderive, hschema, heq⟩
  · rw [heq]
    exact hle
  · have hname := hkeyed.name_union hhead derived
    obtain ⟨head', hhead', hheadLe⟩ := exists_le_of_le hle hhead
    rw [heq]
    refine le_of_forall ?_ ?_
    · intro name r hr
      rw [relation?_store] at hr
      split at hr
      · rename_i hname'
        cases hr
        rw [hname', hname]
        refine ⟨head', hhead', Relation.union_le hheadLe hschema ?_⟩
        intro row hrow
        obtain ⟨derived', hderive', hderivedLe⟩ := exists_le_of_derive hle hderive
        exact hclosed derived' head' hderive' hhead' row (hderivedLe.2.2 row hrow)
      · exact exists_le_of_le hle hr
    · intro name hnone
      rw [relation?_store] at hnone
      split at hnone
      · cases hnone
      · exact (eq_none_iff_of_le hle).1 hnone

end Step

end Database

namespace Session

/-- A rule that meets an obstacle leaves the session as it is; otherwise the derived rows are
merged into the head relation. -/
theorem fire_cases (s : Session) (rule : Rule) :
    (∃ obstacle, s.database.derive rule = .error obstacle ∧
        s.fire rule = ⟨s, ⟨rule.text, []⟩, obstacle.events rule⟩) ∨
      ∃ head derived,
        s.database.relation? rule.head.name = some head ∧
        s.database.derive rule = .ok derived ∧
        s.fire rule =
          ⟨(s.merge head derived).1, ⟨rule.text, (s.merge head derived).2⟩, []⟩ := by
  unfold fire
  cases hderive : s.database.derive rule with
  | error obstacle => exact Or.inl ⟨obstacle, rfl, rfl⟩
  | ok derived =>
      obtain ⟨head, hhead, _, _⟩ := Database.exists_head_of_derive hderive
      rw [hhead]
      exact Or.inr ⟨head, derived, rfl, rfl, rfl⟩

theorem database_merge (s : Session) (head derived : Relation) :
    (s.merge head derived).1.database = s.database.store (head.union derived) := by
  simp only [merge]
  split
  · rename_i h
    exact (Database.store_eq_self_of_holds h).symm
  · rfl

/-- A session fires a rule on its database as if it remembered nothing. -/
@[simp] theorem database_fire (s : Session) (rule : Rule) :
    (s.fire rule).session.database = s.database.consequence rule := by
  rcases fire_cases s rule with ⟨obstacle, herror, heq⟩ | ⟨head, derived, hhead, hderive, heq⟩
  · rw [heq, Database.consequence, herror]
  · rw [heq, Database.consequence, hhead, hderive]
    exact database_merge s head derived

/-- A traced row is the work of a firing that changed the database. -/
theorem consequence_ne_of_derived_ne_nil
    {s : Session} {rule : Rule}
    (h : (s.fire rule).trace.derived ≠ []) :
    s.database.consequence rule ≠ s.database := by
  rcases fire_cases s rule with ⟨obstacle, _, heq⟩ | ⟨head, derived, hhead, hderive, heq⟩
  · rw [heq] at h
    exact absurd rfl h
  · rw [heq] at h
    intro hsame
    have hstore : s.database.store (head.union derived) = s.database := by
      rw [Database.consequence, hhead, hderive] at hsame
      exact hsame
    have hholds : s.database.holds (head.union derived) = true := by
      have hget := Database.relation?_store s.database (head.union derived)
        (head.union derived).name
      rw [hstore, if_pos rfl] at hget
      rw [Database.holds, hget]
      exact beq_self_eq_true _
    simp only [merge, hholds, if_true] at h
    exact absurd rfl h

end Session

end Consequence

end Datalog
