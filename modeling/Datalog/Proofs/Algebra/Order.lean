import Datalog.Derivation
import Datalog.Proofs.Algebra.Rows
import Mathlib.Order.Basic

/-!
# The order of relations and databases

**Order.** A relation lies below another one of the same name and schema that has all its rows.  A
database lies below another one with the same relation names if each of its relations does.  Both
are partial orders.

**Results.** Matching, joining and shaping keep the order, so a rule derives more from a larger
database.  Whether it derives anything at all depends on the schemas alone.
-/

namespace Datalog

section Order

namespace Relation

instance : LE Relation :=
  ⟨fun r s => r.name = s.name ∧ r.schema = s.schema ∧ ∀ row ∈ r.rows, row ∈ s.rows⟩

theorem eq_of_mem_iff
    {r s : Relation}
    (hname : r.name = s.name)
    (hschema : r.schema = s.schema)
    (hrows : ∀ row, row ∈ r.rows ↔ row ∈ s.rows) :
    r = s := by
  have hset : r.rows = s.rows := OrderedSet.ext_mem hrows
  cases r
  cases s
  cases hname
  cases hschema
  cases hset
  rfl

instance : PartialOrder Relation where
  le_refl r := ⟨rfl, rfl, fun _ h => h⟩
  le_trans _ _ _ h h' :=
    ⟨h.1.trans h'.1, h.2.1.trans h'.2.1, fun row hrow => h'.2.2 row (h.2.2 row hrow)⟩
  le_antisymm _ _ h h' :=
    eq_of_mem_iff h.1 h.2.1 fun row => ⟨h.2.2 row, h'.2.2 row⟩

section Monotone

variable {l l' r r' : Relation}

theorem select_mono
    (h : r ≤ r')
    (terms : List String) :
    Matching.select r terms ≤ Matching.select r' terms := by
  obtain ⟨hname, hschema, hrows⟩ := h
  refine ⟨hname, hschema, ?_⟩
  intro row hrow
  have harity : r.arity = r'.arity := congrArg List.length hschema
  rw [mem_select] at hrow ⊢
  rw [← harity]
  exact ⟨hrows row hrow.1, hrow.2⟩

theorem project_mono
    (h : r ≤ r')
    (target : Row) :
    r.project target ≤ r'.project target := by
  obtain ⟨hname, hschema, hrows⟩ := h
  refine ⟨hname, ?_, ?_⟩
  · change projectedSchema r.schema target = projectedSchema r'.schema target
    rw [hschema]
  · intro row hrow
    obtain ⟨hcolumns, source, hsource, hgather⟩ := mem_project.1 hrow
    rw [hschema] at hcolumns hgather
    exact mem_project.2 ⟨hcolumns, source, hrows source hsource, hgather⟩

theorem schema_renameSchema_congr
    (h : r.schema = r'.schema)
    (names : Row) :
    (r.renameSchema names).schema = (r'.renameSchema names).schema := by
  simp only [renameSchema, h]
  split
  · rfl
  · exact h

theorem renameSchema_mono
    (h : r ≤ r')
    (names : Row) :
    r.renameSchema names ≤ r'.renameSchema names := by
  obtain ⟨hname, hschema, hrows⟩ := h
  refine ⟨?_, schema_renameSchema_congr hschema names, ?_⟩
  · rw [name_renameSchema, name_renameSchema, hname]
  · rw [rows_renameSchema, rows_renameSchema]
    exact hrows

theorem bind_mono
    (h : r ≤ r')
    (predicate : Predicate) :
    (Matching.bind r predicate).relation ≤ (Matching.bind r' predicate).relation := by
  have hproject := project_mono (select_mono h predicate.terms)
    (Matching.firstColumns r.schema predicate.terms)
  have hrename := renameSchema_mono hproject
    (Matching.variableNames r.arity predicate.terms)
  unfold Matching.bind
  rw [← h.2.1, show r'.arity = r.arity from congrArg List.length h.2.1.symm]
  exact hrename

theorem join_mono
    (hl : l ≤ l')
    (hr : r ≤ r') :
    l.join r ≤ l'.join r' := by
  refine ⟨hl.1, ?_, ?_⟩
  · change joinedSchema l.schema r.schema = joinedSchema l'.schema r'.schema
    rw [hl.2.1, hr.2.1]
  · intro row hrow
    obtain ⟨left, hleft, right, hright, hvalues⟩ := mem_join.1 hrow
    rw [hl.2.1, hr.2.1] at hvalues
    exact mem_join.2 ⟨left, hl.2.2 left hleft, right, hr.2.2 right hright, hvalues⟩

theorem foldl_join_mono
    {rest rest' : List Relation}
    (hfirst : l ≤ l')
    (hrest : List.Forall₂ (· ≤ ·) rest rest') :
    rest.foldl join l ≤ rest'.foldl join l' := by
  induction hrest generalizing l l' with
  | nil => exact hfirst
  | cons hhead _ ih => exact ih (join_mono hfirst hhead)

theorem le_union_left
    (h : l.schema = r.schema) :
    l ≤ l.union r := by
  refine ⟨(name_union l r).symm, (schema_union l r).symm, ?_⟩
  exact fun row hrow => (mem_union h).2 (Or.inl hrow)

theorem union_le
    (hl : l ≤ l')
    (h : l.schema = r.schema)
    (hr : ∀ row ∈ r.rows, row ∈ l'.rows) :
    l.union r ≤ l' := by
  refine ⟨(name_union l r).trans hl.1, (schema_union l r).trans hl.2.1, ?_⟩
  intro row hrow
  rcases (mem_union h).1 hrow with hrow | hrow
  · exact hl.2.2 row hrow
  · exact hr row hrow

end Monotone

end Relation

namespace Database

instance : LE Database :=
  ⟨fun d e => ∀ name, Option.Rel (· ≤ ·) (d.relation? name) (e.relation? name)⟩

theorem eq_of_relation?
    {d e : Database}
    (h : ∀ name, d.relation? name = e.relation? name) :
    d = e :=
  congrArg Database.mk (OrderedMap.ext_get? h)

theorem exists_le_of_le
    {d e : Database} {name : String} {r : Relation}
    (h : d ≤ e)
    (hr : d.relation? name = some r) :
    ∃ s, e.relation? name = some s ∧ r ≤ s := by
  have hrel := h name
  rw [hr] at hrel
  cases hrel' : e.relation? name with
  | none =>
      rw [hrel'] at hrel
      cases hrel
  | some s =>
      rw [hrel'] at hrel
      cases hrel with
      | some hle => exact ⟨s, rfl, hle⟩

theorem eq_none_iff_of_le
    {d e : Database} {name : String}
    (h : d ≤ e) :
    d.relation? name = none ↔ e.relation? name = none := by
  have hrel := h name
  cases hd : d.relation? name with
  | none =>
      rw [hd] at hrel
      cases he : e.relation? name with
      | none => exact Iff.rfl
      | some s =>
          rw [he] at hrel
          cases hrel
  | some r =>
      obtain ⟨s, hs, _⟩ := exists_le_of_le h hd
      simp [hs]

theorem exists_ge_of_le
    {d e : Database} {name : String} {s : Relation}
    (h : d ≤ e)
    (hs : e.relation? name = some s) :
    ∃ r, d.relation? name = some r ∧ r ≤ s := by
  cases hr : d.relation? name with
  | none =>
      rw [(eq_none_iff_of_le h).1 hr] at hs
      cases hs
  | some r =>
      obtain ⟨s', hs', hle⟩ := exists_le_of_le h hr
      rw [hs] at hs'
      cases hs'
      exact ⟨r, rfl, hle⟩

theorem le_of_forall
    {d e : Database}
    (hsome : ∀ name r, d.relation? name = some r → ∃ s, e.relation? name = some s ∧ r ≤ s)
    (hnone : ∀ name, d.relation? name = none → e.relation? name = none) :
    d ≤ e := by
  intro name
  cases hr : d.relation? name with
  | none =>
      rw [hnone name hr]
      exact Option.Rel.none
  | some r =>
      obtain ⟨s, hs, hle⟩ := hsome name r hr
      rw [hs]
      exact Option.Rel.some hle

instance : PartialOrder Database where
  le_refl d := le_of_forall (fun _ r hr => ⟨r, hr, le_refl r⟩) (fun _ h => h)
  le_trans d e f hde hef := by
    refine le_of_forall ?_ ?_
    · intro name r hr
      obtain ⟨s, hs, hrs⟩ := exists_le_of_le hde hr
      obtain ⟨t, ht, hst⟩ := exists_le_of_le hef hs
      exact ⟨t, ht, le_trans hrs hst⟩
    · intro name h
      exact (eq_none_iff_of_le hef).1 ((eq_none_iff_of_le hde).1 h)
  le_antisymm d e hde hed := by
    refine eq_of_relation? fun name => ?_
    cases hr : d.relation? name with
    | none => exact ((eq_none_iff_of_le hde).1 hr).symm
    | some r =>
        obtain ⟨s, hs, hrs⟩ := exists_le_of_le hde hr
        obtain ⟨r', hr', hsr⟩ := exists_le_of_le hed hs
        rw [hr] at hr'
        cases hr'
        rw [hs, le_antisymm hrs hsr]

/-- A relation of a name has a row. -/
def HasRow (db : Database) (name : String) (row : Row) : Prop :=
  ∃ r, db.relation? name = some r ∧ row ∈ r.rows

theorem hasRow_mono
    {d e : Database} {name : String} {row : Row}
    (hle : d ≤ e)
    (h : d.HasRow name row) :
    e.HasRow name row := by
  obtain ⟨r, hr, hrow⟩ := h
  obtain ⟨s, hs, hrs⟩ := exists_le_of_le hle hr
  exact ⟨s, hs, hrs.2.2 row hrow⟩

theorem hasRow_iff
    {db : Database} {name : String} {r : Relation} {row : Row}
    (hr : db.relation? name = some r) :
    db.HasRow name row ↔ row ∈ r.rows := by
  constructor
  · rintro ⟨s, hs, hrow⟩
    rw [hr] at hs
    cases hs
    exact hrow
  · exact fun hrow => ⟨r, hr, hrow⟩

section Monotone

variable {d e : Database}

theorem boundBody_cons
    (db : Database) (predicate : Predicate) (rest : List Predicate) :
    db.boundBody (predicate :: rest) =
      match db.relation? predicate.name with
      | none => db.boundBody rest
      | some r => (Matching.bind r predicate).relation :: db.boundBody rest := by
  unfold boundBody
  rw [List.filterMap_cons]
  cases db.relation? predicate.name <;> rfl

theorem boundBody_mono
    (h : d ≤ e)
    (body : List Predicate) :
    List.Forall₂ (· ≤ ·) (d.boundBody body) (e.boundBody body) := by
  induction body with
  | nil => exact List.Forall₂.nil
  | cons predicate rest ih =>
      rw [boundBody_cons, boundBody_cons]
      cases hr : d.relation? predicate.name with
      | none =>
          rw [(eq_none_iff_of_le h).1 hr]
          exact ih
      | some r =>
          obtain ⟨s, hs, hle⟩ := exists_le_of_le h hr
          rw [hs]
          exact List.Forall₂.cons (Relation.bind_mono hle predicate) ih

theorem shape_congr
    {head head' : Relation}
    (hname : head.name = head'.name)
    (hschema : head.schema = head'.schema)
    (terms : List String)
    (joined : Relation) :
    shape head terms joined = shape head' terms joined := by
  unfold shape
  rw [hname, hschema]

theorem shape_mono
    {head head' joined joined' : Relation}
    (hhead : head ≤ head')
    (hjoined : joined ≤ joined')
    (terms : List String) :
    shape head terms joined ≤ shape head' terms joined' := by
  have hrename := Relation.renameSchema_mono (Relation.project_mono hjoined terms) head.schema
  refine ⟨hhead.1, ?_, ?_⟩
  · unfold shape
    rw [← hhead.2.1]
    exact hrename.2.1
  · unfold shape
    rw [← hhead.2.1]
    exact hrename.2.2

/-- A derived relation is the joined body in the shape of the head relation. -/
theorem derive_eq_ok_iff
    {rule : Rule} {derived : Relation} :
    d.derive rule = .ok derived ↔
      ∃ head first rest,
        d.relation? rule.head.name = some head ∧
        d.boundBody rule.body = first :: rest ∧
        derived = shape head rule.head.terms (rest.foldl Relation.join first) ∧
        derived.schema = head.schema := by
  unfold derive
  cases hhead : d.relation? rule.head.name with
  | none => simp
  | some head =>
      cases hbody : d.boundBody rule.body with
      | nil => simp
      | cons first rest =>
          simp only
          split
          · rename_i hschema
            constructor
            · intro h
              cases h
              exact ⟨head, first, rest, rfl, rfl, rfl, hschema⟩
            · rintro ⟨_, _, _, hhead', hbody', rfl, _⟩
              cases hhead'
              cases hbody'
              rfl
          · rename_i hschema
            constructor
            · intro h
              cases h
            · rintro ⟨_, _, _, hhead', hbody', rfl, hschema'⟩
              cases hhead'
              cases hbody'
              exact absurd hschema' hschema

/-- A derived relation has the name and the schema of the head relation. -/
theorem exists_head_of_derive
    {rule : Rule} {derived : Relation}
    (h : d.derive rule = .ok derived) :
    ∃ head, d.relation? rule.head.name = some head ∧
      derived.name = head.name ∧ derived.schema = head.schema := by
  obtain ⟨head, first, rest, hhead, _, rfl, hschema⟩ := derive_eq_ok_iff.1 h
  exact ⟨head, hhead, rfl, hschema⟩

theorem schema_eq_of_derive
    {rule : Rule} {head derived : Relation}
    (hhead : d.relation? rule.head.name = some head)
    (hderive : d.derive rule = .ok derived) :
    head.schema = derived.schema := by
  obtain ⟨_, hhead', _, hschema⟩ := exists_head_of_derive hderive
  rw [hhead] at hhead'
  cases hhead'
  exact hschema.symm

/-- A rule either meets the same obstacle in both of two ordered databases or derives from the
larger one at least what it derives from the smaller one. -/
theorem derive_mono
    (h : d ≤ e)
    (rule : Rule) :
    (∃ obstacle, d.derive rule = .error obstacle ∧ e.derive rule = .error obstacle) ∨
      ∃ derived derived', d.derive rule = .ok derived ∧ e.derive rule = .ok derived' ∧
        derived ≤ derived' := by
  unfold derive
  cases hhead : d.relation? rule.head.name with
  | none =>
      rw [(eq_none_iff_of_le h).1 hhead]
      exact Or.inl ⟨.undeclaredHead, rfl, rfl⟩
  | some head =>
      obtain ⟨head', hhead', hle⟩ := exists_le_of_le h hhead
      rw [hhead']
      have hbody := boundBody_mono h rule.body
      cases hd : d.boundBody rule.body with
      | nil =>
          rw [hd, List.forall₂_nil_left_iff] at hbody
          rw [hbody]
          exact Or.inl ⟨.unresolvedBody, rfl, rfl⟩
      | cons first rest =>
          rw [hd, List.forall₂_cons_left_iff] at hbody
          obtain ⟨first', rest', hfirst, hrest, he⟩ := hbody
          rw [he]
          have hderived :=
            shape_mono hle (Relation.foldl_join_mono hfirst hrest) rule.head.terms
          simp only
          rw [← hderived.2.1, ← hle.2.1]
          split
          · exact Or.inr ⟨_, _, rfl, rfl, hderived⟩
          · exact Or.inl ⟨.incompatibleHead, rfl, rfl⟩

theorem exists_le_of_derive
    {rule : Rule} {derived : Relation}
    (h : d ≤ e)
    (hderive : d.derive rule = .ok derived) :
    ∃ derived', e.derive rule = .ok derived' ∧ derived ≤ derived' := by
  rcases derive_mono h rule with ⟨_, herror, _⟩ | ⟨_, derived', hsmall, hlarge, hle⟩
  · rw [hderive] at herror
    cases herror
  · rw [hderive] at hsmall
    cases hsmall
    exact ⟨derived', hlarge, hle⟩

/-- What a rule derives depends on the relations of its body and on the name and the schema of its
head relation. -/
theorem derive_congr
    {rule : Rule}
    (hhead :
      (d.relation? rule.head.name).map (fun r => (r.name, r.schema)) =
        (e.relation? rule.head.name).map fun r => (r.name, r.schema))
    (hbody : ∀ predicate ∈ rule.body, d.relation? predicate.name = e.relation? predicate.name) :
    d.derive rule = e.derive rule := by
  have hbound : d.boundBody rule.body = e.boundBody rule.body := by
    unfold boundBody
    exact List.filterMap_congr fun predicate hpredicate => by rw [hbody predicate hpredicate]
  unfold derive
  rw [hbound]
  cases hd : d.relation? rule.head.name with
  | none =>
      rw [hd] at hhead
      rw [Option.map_eq_none_iff.1 hhead.symm]
  | some r =>
      rw [hd] at hhead
      obtain ⟨s, hs, heq⟩ := Option.map_eq_some_iff.1 hhead.symm
      obtain ⟨hname, hschema⟩ := Prod.mk.inj heq
      rw [hs]
      cases e.boundBody rule.body with
      | nil => rfl
      | cons first rest =>
          simp only
          rw [shape_congr hname hschema, hschema]

end Monotone

end Database

end Order

end Datalog
