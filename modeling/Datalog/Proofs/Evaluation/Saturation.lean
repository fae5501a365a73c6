import Datalog.Proofs.Evaluation.Termination
import Datalog.Proofs.Source.StringLiteral

/-!
# When the loop stops

**Memory.** A session skips rows that it has reported already, as rendered texts.  It is `Truthful`
if it remembers no text but of rows that are there, and `Faithful` if moreover all its values are
string literals.  Then a skipped row is there, since literals are rendered without ambiguity.

**Texts.** What a truthful session adds without a trace looks like rows that are there already.  A
database is `Legible` if different rows of one relation have different texts, and then nothing is
added without a trace.

**Results.** In a faithful session a firing that traces no row leaves the database closed under its
rule.  A recursive component stops when the database is closed under all its rules, and one firing
of a rule that does not read its own head is enough.
-/

namespace Datalog

section Saturation

theorem Relation.mem_renderedRows
    {r : Relation} {text : String} :
    text ∈ r.renderedRows ↔ ∃ row ∈ r.rows, Row.render r.schema row = text := by
  unfold renderedRows
  rw [List.mem_map]
  rfl

theorem Relation.renderedRows_mono
    {r r' : Relation}
    (h : r ≤ r')
    {text : String}
    (htext : text ∈ r.renderedRows) :
    text ∈ r'.renderedRows := by
  obtain ⟨row, hrow, heq⟩ := mem_renderedRows.1 htext
  rw [h.2.1] at heq
  exact mem_renderedRows.2 ⟨row, h.2.2 row hrow, heq⟩

namespace Database

section Texts

variable {d e : Database} {name text : String}

/-- The rendered rows of the relation of a name. -/
def texts (db : Database) (name : String) : List String :=
  match db.relation? name with
  | none => []
  | some r => r.renderedRows

theorem mem_texts :
    text ∈ d.texts name ↔ ∃ r, d.relation? name = some r ∧ text ∈ r.renderedRows := by
  unfold texts
  cases d.relation? name with
  | none => simp
  | some r => simp

/-- Different rows of one relation have different texts. -/
def Legible (db : Database) : Prop :=
  ∀ name r, db.relation? name = some r → ∀ row ∈ r.rows, ∀ row' ∈ r.rows,
    Row.render r.schema row = Row.render r.schema row' → row = row'

/-- Rows of string literals have different texts. -/
theorem legible_of_literal
    (hsound : d.Sound)
    (hliteral : d.Over StringLiteral) :
    d.Legible :=
  fun name r hr row hrow row' hrow' heq =>
    Row.eq_of_render_eq
      (hsound.wellFormed name r hr row hrow) (hsound.wellFormed name r hr row' hrow')
      (hliteral name r hr row hrow) (hliteral name r hr row' hrow') heq

/-- A legible database has no more rows than an earlier one with the same texts. -/
theorem eq_of_texts_subset
    (hle : d ≤ e)
    (hlegible : e.Legible)
    (htexts : ∀ name, e.texts name ⊆ d.texts name) :
    e = d := by
  refine eq_of_relation? fun name => ?_
  cases hr : d.relation? name with
  | none => exact (eq_none_iff_of_le hle).1 hr
  | some r =>
      obtain ⟨s, hs, hrs⟩ := exists_le_of_le hle hr
      have hrows : ∀ row ∈ s.rows, row ∈ r.rows := by
        intro row hrow
        have htext : Row.render s.schema row ∈ d.texts name :=
          htexts name (mem_texts.2 ⟨s, hs, Relation.mem_renderedRows.2 ⟨row, hrow, rfl⟩⟩)
        obtain ⟨r', hr', hrendered⟩ := mem_texts.1 htext
        rw [hr] at hr'
        cases hr'
        obtain ⟨row', hrow', heq⟩ := Relation.mem_renderedRows.1 hrendered
        rw [hrs.2.1] at heq
        rw [← hlegible name s hs row' (hrs.2.2 row' hrow') row hrow heq]
        exact hrow'
      rw [hs, le_antisymm hrs ⟨hrs.1.symm, hrs.2.1.symm, hrows⟩]

end Texts

section Closing

variable {d e : Database} {rule : Rule} {rules : List Rule}

theorem map_relation?_of_le
    (h : d ≤ e)
    (name : String) :
    (d.relation? name).map (fun r => (r.name, r.schema)) =
      (e.relation? name).map fun r => (r.name, r.schema) := by
  cases hr : d.relation? name with
  | none => rw [(eq_none_iff_of_le h).1 hr]
  | some r =>
      obtain ⟨s, hs, hle⟩ := exists_le_of_le h hr
      rw [hs, Option.map_some, Option.map_some, hle.1, hle.2.1]

/-- A database stays closed under a rule as long as the relations that the rule reads do not
grow. -/
theorem ClosedUnder.of_le
    (h : d.ClosedUnder rule)
    (hle : d ≤ e)
    (hbody : ∀ predicate ∈ rule.body, d.relation? predicate.name = e.relation? predicate.name) :
    e.ClosedUnder rule := by
  intro derived head hderive hhead row hrow
  have hsame := derive_congr (map_relation?_of_le hle rule.head.name) hbody
  obtain ⟨head₀, hhead₀, hheadLe⟩ := exists_ge_of_le hle hhead
  exact hheadLe.2.2 row (h derived head₀ (hsame.trans hderive) hhead₀ row hrow)

/-- A rule that does not read its own head has no further consequence. -/
theorem closedUnder_consequence
    (h : d.Keyed)
    (hbody : ∀ predicate ∈ rule.body, predicate.name ≠ rule.head.name) :
    (d.consequence rule).ClosedUnder rule := by
  have hsame : d.derive rule = (d.consequence rule).derive rule := by
    refine derive_congr (map_relation?_of_le (le_consequence h rule) rule.head.name) ?_
    exact fun predicate hpredicate =>
      (relation?_consequence_of_ne h (hbody predicate hpredicate)).symm
  intro derived head hderive hhead row hrow
  rw [← hsame] at hderive
  obtain ⟨head₀, hhead₀, _, hschema⟩ := exists_head_of_derive hderive
  rw [relation?_consequence_of_derive h hhead₀ hderive] at hhead
  cases hhead
  exact (Relation.mem_union hschema.symm).2 (Or.inr hrow)

theorem le_foldl_consequence
    (h : d.Sound)
    (rules : List Rule) :
    d ≤ rules.foldl consequence d := by
  have hle := Session.le_pass (s := Session.ofDatabase d) h rules
  rwa [Session.database_pass] at hle

/-- Rules that in turn leave a database as it is find it closed under all of them. -/
theorem closedUnder_of_foldl_consequence
    (h : d.Sound)
    (hsame : rules.foldl consequence d = d) :
    ∀ rule ∈ rules, d.ClosedUnder rule := by
  induction rules with
  | nil => exact nofun
  | cons rule rest ih =>
      have hle := le_foldl_consequence (h.consequence rule) rest
      rw [List.foldl_cons] at hsame
      rw [hsame] at hle
      have hfirst : d.consequence rule = d := le_antisymm hle (le_consequence h.keyed rule)
      rw [hfirst] at hsame
      exact List.forall_mem_cons.2 ⟨(closedUnder_iff h.keyed).2 hfirst, ih hsame⟩

end Closing

end Database

namespace Session

/-- All remembered texts are rows of the database. -/
structure Truthful (s : Session) : Prop where
  sound : s.database.Sound
  reported :
    ∀ name r, s.database.relation? name = some r → ∀ text ∈ s.reportedOf name, text ∈ r.renderedRows

/-- The values are string literals, and all remembered texts are rows of the database. -/
structure Faithful (s : Session) : Prop extends Truthful s where
  literal : s.database.Over StringLiteral

theorem truthful_ofDatabase
    {db : Database}
    (hsound : db.Sound) :
    (ofDatabase db).Truthful where
  sound := hsound
  reported := fun _ _ _ text htext => absurd htext (OrderedSet.not_mem_empty text)

theorem faithful_ofDatabase
    {db : Database}
    (hsound : db.Sound)
    (hliteral : db.Over StringLiteral) :
    (ofDatabase db).Faithful :=
  ⟨truthful_ofDatabase hsound, hliteral⟩

theorem Faithful.legible
    {s : Session}
    (h : s.Faithful) :
    s.database.Legible :=
  Database.legible_of_literal h.sound h.literal

section Firing

variable {s : Session} {head derived : Relation} {rule : Rule}

theorem reportedOf_merge_of_ne
    {name : String}
    (h : name ≠ head.name) :
    (s.merge head derived).1.reportedOf name = s.reportedOf name := by
  simp only [merge]
  split <;> simp only [reportedOf, OrderedMap.get?_insert, if_neg h]

theorem mem_reportedOf_merge
    {text : String}
    (h : text ∈ (s.merge head derived).1.reportedOf head.name) :
    text ∈ s.reportedOf head.name ∨ text ∈ head.renderedRows ∨
      text ∈ (head.union derived).renderedRows := by
  simp only [merge] at h
  split at h
  · simp only [reportedOf, OrderedMap.get?_insert, if_true, Option.getD_some,
      OrderedSet.mem_union, OrderedSet.mem_ofList] at h
    exact h.imp_right Or.inl
  · simp only [reportedOf, OrderedMap.get?_insert, if_true, Option.getD_some,
      OrderedSet.mem_union, OrderedSet.mem_ofList, List.mem_filter] at h
    rcases h with (h | h) | h
    · exact Or.inl h
    · exact Or.inr (Or.inl h)
    · exact Or.inr (Or.inr h.1)

theorem Truthful.fire
    (h : s.Truthful)
    (rule : Rule) :
    (s.fire rule).session.Truthful := by
  refine ⟨sound_fire h.sound rule, ?_⟩
  rcases fire_cases s rule with ⟨_, _, heq⟩ | ⟨head, derived, hhead, hderive, heq⟩
  · rw [heq]
    exact h.reported
  · rw [heq]
    intro name r hr text htext
    simp only [database_merge, Database.relation?_store, Relation.name_union] at hr
    split at hr
    · rename_i hname
      cases hr
      subst hname
      have hstored : s.database.relation? head.name = some head := by
        rw [h.sound.keyed _ head hhead]
        exact hhead
      have hle := Relation.le_union_left (Database.schema_eq_of_derive hhead hderive)
      rcases mem_reportedOf_merge htext with hold | hknown | hnew
      · exact Relation.renderedRows_mono hle (h.reported head.name head hstored text hold)
      · exact Relation.renderedRows_mono hle hknown
      · exact hnew
    · rename_i hname
      rw [reportedOf_merge_of_ne hname] at htext
      exact h.reported name r hr text htext

theorem Faithful.fire
    (h : s.Faithful)
    (rule : Rule) :
    (s.fire rule).session.Faithful :=
  ⟨h.toTruthful.fire rule, over_fire h.literal rule⟩

/-- A truthful session traces the texts of the merged relation that the head relation lacks. -/
theorem Truthful.snd_merge
    (h : s.Truthful)
    (hhead : s.database.relation? rule.head.name = some head) :
    (s.merge head derived).2 =
      (head.union derived).renderedRows.filter fun text => text ∉ head.renderedRows := by
  have hname := h.sound.keyed _ head hhead
  have hknown (text : String) :
      text ∈ s.reportedOf head.name ∪ OrderedSet.ofList head.renderedRows ↔
        text ∈ head.renderedRows := by
    rw [OrderedSet.mem_union, OrderedSet.mem_ofList, hname]
    exact or_iff_right_of_imp (h.reported _ head hhead text)
  simp only [merge]
  split
  · rename_i hholds
    have hsame : head = head.union derived := by
      rw [Database.holds, Relation.name_union, hname, hhead] at hholds
      simpa using hholds
    rw [← hsame, eq_comm, List.filter_eq_nil_iff]
    simp
  · refine List.filter_congr fun text _ => ?_
    rw [Bool.eq_iff_iff, decide_eq_true_iff, ← hknown text, ← OrderedSet.contains_iff,
      Bool.not_eq_true', Bool.not_eq_true]

/-- A firing that traces no row adds rows only whose texts are there already. -/
theorem Truthful.texts_fire
    (h : s.Truthful)
    (hnil : (s.fire rule).trace.derived = [])
    (name : String) :
    (s.fire rule).session.database.texts name ⊆ s.database.texts name := by
  intro text htext
  rcases fire_cases s rule with ⟨_, _, heq⟩ | ⟨head, derived, hhead, hderive, heq⟩
  · rw [heq] at htext
    exact htext
  · have htraced : (s.fire rule).trace.derived = (s.merge head derived).2 := by rw [heq]
    rw [htraced, h.snd_merge hhead, List.filter_eq_nil_iff] at hnil
    rw [database_fire, Database.mem_texts] at htext
    obtain ⟨r, hr, hrendered⟩ := htext
    rw [Database.mem_texts]
    by_cases hname : name = rule.head.name
    · subst hname
      rw [Database.relation?_consequence_of_derive h.sound.keyed hhead hderive] at hr
      cases hr
      exact ⟨head, hhead, by simpa using hnil text hrendered⟩
    · rw [Database.relation?_consequence_of_ne h.sound.keyed hname] at hr
      exact ⟨r, hr, hrendered⟩

/-- A firing that traces no row finds the database closed under its rule. -/
theorem Faithful.closedUnder_of_derived_eq_nil
    (h : s.Faithful)
    (hnil : (s.fire rule).trace.derived = []) :
    s.database.ClosedUnder rule := by
  have hsame : (s.fire rule).session.database = s.database :=
    Database.eq_of_texts_subset (above_fire ⟨h.sound, le_refl _⟩ rule).2 (h.fire rule).legible
      (h.texts_fire hnil)
  rw [database_fire] at hsame
  exact (Database.closedUnder_iff h.sound.keyed).2 hsame

end Firing

section Passing

variable {s : Session} {members : List Nat} {rules : List Rule} {recursive : Bool}

theorem Faithful.pass
    (h : s.Faithful)
    (rules : List Rule) :
    (s.pass rules).session.Faithful :=
  pass_keeps (fun rule _ _ ht => ht.fire rule) h

theorem Truthful.pass
    (h : s.Truthful)
    (rules : List Rule) :
    (s.pass rules).session.Truthful :=
  pass_keeps (fun rule _ _ ht => ht.fire rule) h

/-- A pass that traces no row adds rows only whose texts are there already. -/
theorem Truthful.texts_pass
    (h : s.Truthful)
    (hadded : (s.pass rules).added = false)
    (name : String) :
    (s.pass rules).session.database.texts name ⊆ s.database.texts name := by
  induction rules generalizing s with
  | nil => exact List.Subset.refl _
  | cons rule rest ih =>
      simp only [Session.pass, Passes.added, List.any_cons, Bool.or_eq_false_iff,
        Bool.not_eq_false', List.isEmpty_iff] at hadded
      exact List.Subset.trans (ih (h.fire rule) hadded.2) (h.texts_fire hadded.1 name)

/-- A pass that traces no row and leaves a legible database finds it closed under all its rules. -/
theorem Truthful.closedUnder_of_not_added
    (h : s.Truthful)
    (hlegible : (s.pass rules).session.database.Legible)
    (hadded : (s.pass rules).added = false) :
    (s.pass rules).session.database = s.database ∧
      ∀ rule ∈ rules, s.database.ClosedUnder rule := by
  have hsame : (s.pass rules).session.database = s.database :=
    Database.eq_of_texts_subset (le_pass h.sound rules) hlegible (h.texts_pass hadded)
  refine ⟨hsame, Database.closedUnder_of_foldl_consequence h.sound ?_⟩
  rw [← database_pass, hsame]

/-- The loop over recursive rules leaves a database that is closed under all of them. -/
theorem Loop.closedUnder
    {number : Nat} {outcome : Passes × Nat}
    (h : Loop members rules true s number outcome)
    (hs : s.Faithful) :
    ∀ rule ∈ rules, outcome.1.session.database.ClosedUnder rule := by
  induction h with
  | last hstop =>
      rw [Bool.true_and] at hstop
      obtain ⟨hdatabase, hclosed⟩ := hs.closedUnder_of_not_added (hs.pass rules).legible hstop
      rw [hdatabase]
      exact hclosed
  | again _ _ ih => exact ih (hs.pass rules)

/-- Rules that are not recursive are fired once. -/
theorem Loop.database_eq
    {number : Nat} {outcome : Passes × Nat}
    (h : Loop members rules false s number outcome) :
    outcome.1.session.database = rules.foldl Database.consequence s.database := by
  cases h with
  | last _ => exact database_pass s rules
  | again hgo _ => cases hgo

end Passing

section Components

variable {s : Session} {component : DependencyGraph}

theorem Faithful.evaluateComponent
    (h : s.Faithful)
    (component : DependencyGraph) :
    (s.evaluateComponent component).session.Faithful :=
  evaluateComponent_keeps (fun rule _ _ ht => ht.fire rule) h

/-- A component that is not recursive has at most one rule, and this rule does not read its own
head. -/
theorem memberRules_of_not_isRecursive
    (hreads : component.ShowsReads)
    (hrecursive : component.isRecursive = false)
    {rule : Rule}
    (hrule : rule ∈ component.memberRules) :
    component.memberRules = [rule] ∧
      ∀ predicate ∈ rule.body, predicate.name ≠ rule.head.name := by
  simp only [DependencyGraph.isRecursive, Bool.or_eq_false_iff, decide_eq_false_iff_not,
    List.any_eq_false] at hrecursive
  obtain ⟨hsize, hloops⟩ := hrecursive
  constructor
  · have hlength : component.memberRules.length = component.size := by
      unfold DependencyGraph.memberRules OrderedMap.values
      rw [List.length_map, List.length_map]
      rfl
    have hshort : component.memberRules.length ≤ 1 := by omega
    cases hrules : component.memberRules with
    | nil =>
        rw [hrules] at hrule
        exact absurd hrule List.not_mem_nil
    | cons first rest =>
        rw [hrules] at hrule hshort
        have hrest : rest = [] := by
          simpa using hshort
        subst hrest
        rw [List.mem_singleton.1 hrule]
  · intro predicate hpredicate hname
    obtain ⟨id, node, hnode, rfl⟩ := DependencyGraph.mem_memberRules.1 hrule
    have hedge := hreads id id node node hnode hnode ⟨predicate, hpredicate, hname⟩
    have hid := DependencyGraph.mem_ids.2 (DependencyGraph.contains_source hedge)
    exact hloops id hid hedge

/-- Evaluating a component leaves a database that is closed under its rules. -/
theorem Faithful.closedUnder_evaluateComponent
    (h : s.Faithful)
    (hreads : component.ShowsReads) :
    ∀ rule ∈ component.memberRules,
      (s.evaluateComponent component).session.database.ClosedUnder rule := by
  intro rule hrule
  have hloop := loop_evaluateComponent h.sound component
  rw [evaluateComponent_eq]
  cases hrecursive : component.isRecursive with
  | true =>
      rw [hrecursive] at hloop
      exact hloop.closedUnder h rule hrule
  | false =>
      rw [hrecursive] at hloop
      obtain ⟨hrules, hbody⟩ := memberRules_of_not_isRecursive hreads hrecursive hrule
      rw [hloop.database_eq, hrules]
      exact Database.closedUnder_consequence h.sound.keyed hbody

end Components

end Session

end Saturation

end Datalog
