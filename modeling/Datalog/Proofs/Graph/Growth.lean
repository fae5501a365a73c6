import Datalog.Proofs.Graph.Decomposition
import Datalog.Proofs.Graph.RuleGraph
import Mathlib.Data.List.Perm.Subperm

/-!
# What a growing dependency graph keeps

**Registration.** The id of a new instance lies behind all ids of the graph, also where a subgraph
has left gaps between them.  The nodes that are there stay what they are.

**Dependencies.** A dependency registers two instances and joins their nodes.  Its flag compares the
number of nodes before and after, and looks at the edge that it writes.  The two together see every
change.

**Results.** On every graph that is built, both operations do what `Registers` and `Adds` say.
-/

namespace Datalog

section Growth

namespace DependencyGraph

variable {g g' : DependencyGraph} {rule : RuleInstance}

/-- The node with this id wraps this rule instance. -/
def Wraps (g : DependencyGraph) (id : Nat) (rule : RuleInstance) : Prop :=
  ∃ node, g.node? id = some node ∧ node.rule = rule

theorem contains_iff_wraps
    {id : Nat} :
    g.contains id = true ↔ ∃ rule, g.Wraps id rule := by
  simp [contains_iff, Wraps]

theorem Wraps.contains
    {id : Nat}
    (h : g.Wraps id rule) :
    g.contains id = true :=
  contains_iff_wraps.2 ⟨rule, h⟩

/-- An instance is wrapped by one node only. -/
theorem Wraps.eq_iff
    (hg : g.WellFormed)
    {id id' : Nat}
    (h : g.Wraps id rule) :
    g.Wraps id' rule ↔ id' = id := by
  constructor
  · rintro ⟨node', hnode', hrule'⟩
    obtain ⟨node, hnode, hrule⟩ := h
    exact hg.rule_injective id' id node' node hnode' hnode (hrule'.trans hrule.symm)
  · rintro rfl
    exact h

section Size

/-- A graph that keeps all ids of another one has more nodes exactly if it has a new id. -/
theorem size_lt_iff
    (h : ∀ id, g.contains id = true → g'.contains id = true) :
    g.size < g'.size ↔ ∃ id, g'.contains id = true ∧ g.contains id = false := by
  have hsubset : g.ids ⊆ g'.ids := fun id hid => mem_ids.2 (h id (mem_ids.1 hid))
  have hsubperm : g.ids.Subperm g'.ids := List.subperm_of_subset g.nodup_ids hsubset
  rw [size_eq_length_ids, size_eq_length_ids]
  constructor
  · intro hlt
    by_contra hnone
    have hsubset' : g'.ids ⊆ g.ids := by
      intro id hid
      by_contra hnew
      rw [mem_ids, Bool.not_eq_true] at hnew
      exact hnone ⟨id, mem_ids.1 hid, hnew⟩
    have hle := (List.subperm_of_subset g'.nodup_ids hsubset').length_le
    omega
  · rintro ⟨id, hid, hnew⟩
    refine Nat.lt_of_le_of_ne hsubperm.length_le fun hlength => ?_
    have hperm := hsubperm.perm_of_length_le (Nat.le_of_eq hlength.symm)
    have hmem : id ∈ g.ids := hperm.mem_iff.2 (mem_ids.2 hid)
    rw [mem_ids, hnew] at hmem
    cases hmem

theorem contains_of_not_size_lt
    (h : ∀ id, g.contains id = true → g'.contains id = true)
    (hsize : ¬ g.size < g'.size)
    (id : Nat)
    (hid : g'.contains id = true) :
    g.contains id = true := by
  by_contra hnew
  exact hsize ((size_lt_iff h).2 ⟨id, hid, by simpa using hnew⟩)

end Size

section Registering

/-- What registering a rule instance does to a graph: `g'` is the graph afterwards and `id` the id
that is given. -/
structure Registers
    (g : DependencyGraph) (rule : RuleInstance) (g' : DependencyGraph) (id : Nat) :
    Prop where
  wraps :
    g'.Wraps id rule
  /-- Nothing changes where a node wraps the instance already. -/
  unchanged :
    ∀ id', g.Wraps id' rule → g' = g ∧ id = id'
  /-- Otherwise the id is larger than every id so far. -/
  lt_id :
    (∀ id', ¬ g.Wraps id' rule) → ∀ old, g.contains old = true → old < id
  /-- The new node has no edges. -/
  isolated :
    (∀ id', ¬ g.Wraps id' rule) → g'.node? id = some (Node.isolated id rule)
  kept :
    ∀ old node, g.node? old = some node → g'.node? old = some node
  contains_iff :
    ∀ old, g'.contains old = true ↔ g.contains old = true ∨ old = id
  edge_iff :
    ∀ a b, g'.Edge a b ↔ g.Edge a b

theorem registers_register
    (hg : g.WellFormed)
    (rule : RuleInstance) :
    g.Registers rule (g.register rule).1 (g.register rule).2 := by
  have hkept (old : Nat) (node : Node) (h : g.node? old = some node) :=
    node?_register_of_node? hg rule h
  have hedge (a b : Nat) : (g.register rule).1.Edge a b ↔ g.Edge a b := edge_register hg rule
  rcases register_cases hg rule with ⟨id, node, hnode, hrule, heq⟩ | ⟨hfresh, hid, hnode⟩
  · have hwraps : g.Wraps id rule := ⟨node, hnode, hrule⟩
    refine ⟨node?_register hg rule, ?unchanged, fun hnone => absurd hwraps (hnone id),
      fun hnone => absurd hwraps (hnone id), hkept, ?contains_iff, hedge⟩
    case unchanged =>
      intro id' h
      rw [heq]
      exact ⟨rfl, (h.eq_iff hg).1 hwraps⟩
    case contains_iff =>
      intro old
      rw [heq]
      refine (or_iff_left_of_imp ?_).symm
      rintro rfl
      exact hwraps.contains
  · refine ⟨node?_register hg rule, ?unchanged, ?lt_id, ?isolated, hkept, ?contains_iff, hedge⟩
    case unchanged =>
      rintro id' ⟨node', hnode', hrule'⟩
      exact absurd hrule' (hfresh id' node' hnode')
    case lt_id =>
      intro _ old hold
      rw [hid]
      exact lt_nextId hold
    case isolated =>
      intro _
      rw [hid, hnode, if_pos rfl]
    case contains_iff =>
      intro old
      rw [DependencyGraph.contains_iff, DependencyGraph.contains_iff, hnode, hid]
      by_cases hnew : old = g.nextId <;> simp [hnew]

theorem Registers.wraps_of_wraps
    {id old : Nat} {other : RuleInstance}
    (h : g.Registers rule g' id)
    (hold : g.Wraps old other) :
    g'.Wraps old other := by
  obtain ⟨node, hnode, hrule⟩ := hold
  exact ⟨node, h.kept old node hnode, hrule⟩

/-- A new id is the one that registering gives, and no node wrapped the instance before. -/
theorem Registers.eq_of_new
    {id new : Nat}
    (h : g.Registers rule g' id)
    (hnew : g'.contains new = true)
    (hold : g.contains new = false) :
    new = id ∧ ∀ id', ¬ g.Wraps id' rule := by
  refine ⟨((h.contains_iff new).1 hnew).resolve_left (by simp [hold]), ?_⟩
  intro id' hwraps
  rw [(h.unchanged id' hwraps).1, hold] at hnew
  cases hnew

theorem Registers.contains_of_contains
    {id : Nat}
    (h : g.Registers rule g' id)
    (old : Nat)
    (hold : g.contains old = true) :
    g'.contains old = true :=
  (h.contains_iff old).2 (Or.inl hold)

/-- Registering changes nothing if it adds no node. -/
theorem Registers.eq_of_contains
    {id : Nat}
    (h : g.Registers rule g' id)
    (hold : ∀ new, g'.contains new = true → g.contains new = true) :
    g' = g := by
  by_cases hwraps : ∃ id', g.Wraps id' rule
  · obtain ⟨id', hid'⟩ := hwraps
    exact (h.unchanged id' hid').1
  · have hlt := h.lt_id (fun id' hid' => hwraps ⟨id', hid'⟩) id (hold id h.wraps.contains)
    exact absurd hlt (Nat.lt_irrefl id)

end Registering

section Depending

/-- What adding a dependency does to a graph: `g'` is the graph afterwards, and `changed` is the
flag. -/
structure Adds
    (g : DependencyGraph) (parent : RuleInstance) (child : Option RuleInstance)
    (g' : DependencyGraph) (changed : Bool) :
    Prop where
  /-- A node of another instance than the parent stays what it is. -/
  kept :
    ∀ id node, g.node? id = some node → node.rule ≠ parent → g'.node? id = some node
  /-- The parent keeps everything but its edges. -/
  kept_parent :
    ∀ id node, g.node? id = some node → node.rule = parent →
      ∃ adjacency, g'.node? id = some { node with adjacency := adjacency }
  /-- A new node wraps the parent or the child, which had none. -/
  wraps_new :
    ∀ id, g'.contains id = true → g.contains id = false →
      ∃ rule, (rule = parent ∨ child = some rule) ∧ g'.Wraps id rule ∧
        ∀ id', ¬ g.Wraps id' rule
  /-- There is an edge from the parent to the child, and no other new one. -/
  edge_iff :
    ∀ a b, g'.Edge a b ↔
      g.Edge a b ∨ (g'.Wraps a parent ∧ ∃ rule, child = some rule ∧ g'.Wraps b rule)
  /-- The flag says whether there is a new node or a new edge. -/
  changed_iff :
    changed = true ↔
      (∃ id, g'.contains id = true ∧ g.contains id = false) ∨ ∃ a b, g'.Edge a b ∧ ¬ g.Edge a b
  unchanged :
    changed = false → g' = g

/-- Adding a dependency without a child is registering the parent. -/
theorem Registers.adds_none
    {parent : RuleInstance} {id : Nat}
    (h : g.Registers parent g' id) :
    g.Adds parent none g' (g.size < g'.size) := by
  refine ⟨fun id node hnode _ => h.kept id node hnode,
    fun id node hnode _ => ⟨node.adjacency, h.kept id node hnode⟩,
    ?wraps_new, ?edge_iff, ?changed_iff, ?unchanged⟩
  case wraps_new =>
    intro new hnew hold
    obtain ⟨rfl, hnone⟩ := h.eq_of_new hnew hold
    exact ⟨parent, Or.inl rfl, h.wraps, hnone⟩
  case edge_iff =>
    intro a b
    refine (h.edge_iff a b).trans (or_iff_left ?_).symm
    rintro ⟨_, _, hchild, _⟩
    cases hchild
  case changed_iff =>
    rw [decide_eq_true_iff, size_lt_iff h.contains_of_contains]
    refine (or_iff_left ?_).symm
    rintro ⟨a, b, hedge, hno⟩
    exact hno ((h.edge_iff a b).1 hedge)
  case unchanged =>
    intro hchanged
    exact h.eq_of_contains
      (contains_of_not_size_lt h.contains_of_contains (of_decide_eq_false hchanged))

/-- An edge that is there already is written again as it is. -/
theorem addEdge_eq_self
    (hg : g.WellFormed)
    {source target : Nat}
    (htarget : g.Wraps target rule)
    (hedge : g.Edge source target) :
    (g.addEdge source target rule).1 = g := by
  obtain ⟨node, rule', hnode, hrule'⟩ := DependencyGraph.edge_iff.1 hedge
  obtain ⟨node', hnode', rfl⟩ := hg.target_node source node target rule' hnode hrule'
  obtain ⟨_, hnode'', rfl⟩ := htarget
  rw [hnode'] at hnode''
  cases hnode''
  have hadjacency : node.adjacency.insert target node'.rule = node.adjacency :=
    OrderedMap.insert_eq_self hrule'
  have hnodes : g.nodes.insert source node = g.nodes := OrderedMap.insert_eq_self hnode
  simp only [addEdge, hnode, hadjacency, hnodes]

/-- The flag of a written edge says whether the edge is new. -/
theorem snd_addEdge_iff
    {source target : Nat} {node : Node}
    (h : g.node? source = some node) :
    (g.addEdge source target rule).2 = true ↔ ¬ g.Edge source target := by
  rw [edge_iff_of_node? h, addEdge, h]
  simp

theorem wraps_addEdge
    {source target : Nat} {node : Node}
    (h : g.node? source = some node)
    {id : Nat} {other : RuleInstance} :
    (g.addEdge source target rule).1.Wraps id other ↔ g.Wraps id other := by
  unfold Wraps
  rw [node?_addEdge h]
  split
  · rename_i hid
    simp [hid, h]
  · rfl

theorem contains_addEdge
    {source target : Nat} {node : Node}
    (h : g.node? source = some node)
    {id : Nat} :
    (g.addEdge source target rule).1.contains id = g.contains id := by
  rw [Bool.eq_iff_iff, contains_iff_wraps, contains_iff_wraps]
  simp only [wraps_addEdge h]

theorem exists_new_edge_iff
    {source target : Nat}
    (h : ∀ a b, g'.Edge a b ↔ g.Edge a b ∨ (a = source ∧ b = target)) :
    (∃ a b, g'.Edge a b ∧ ¬ g.Edge a b) ↔ ¬ g.Edge source target := by
  constructor
  · rintro ⟨a, b, hedge, hno⟩
    obtain ⟨rfl, rfl⟩ := ((h a b).1 hedge).resolve_left hno
    exact hno
  · exact fun hno => ⟨source, target, (h source target).2 (Or.inr ⟨rfl, rfl⟩), hno⟩

/-- A node that is new after two registrations comes from the one or from the other. -/
theorem Registers.exists_wraps_of_new
    {g₁ g₂ : DependencyGraph} {parent child : RuleInstance} {source target new : Nat}
    (hparent : g.Registers parent g₁ source)
    (hchild : g₁.Registers child g₂ target)
    (hnew : g₂.contains new = true)
    (hold : g.contains new = false) :
    ∃ rule, (rule = parent ∨ some child = some rule) ∧ g₂.Wraps new rule ∧
      ∀ id, ¬ g.Wraps id rule := by
  cases hmiddle : g₁.contains new with
  | true =>
      obtain ⟨rfl, hnone⟩ := hparent.eq_of_new hmiddle hold
      exact ⟨parent, Or.inl rfl, hchild.wraps_of_wraps hparent.wraps, hnone⟩
  | false =>
      obtain ⟨rfl, hnone⟩ := hchild.eq_of_new hnew hmiddle
      exact ⟨child, Or.inr rfl, hchild.wraps, fun id h => hnone id (hparent.wraps_of_wraps h)⟩

/-- Adding a dependency with a child is registering both and writing an edge between them. -/
theorem Registers.adds_some
    {g₁ g₂ : DependencyGraph} {parent child : RuleInstance} {source target : Nat}
    (hparent : g.Registers parent g₁ source)
    (hchild : g₁.Registers child g₂ target)
    (hg₂ : g₂.WellFormed) :
    g.Adds parent (some child) (g₂.addEdge source target child).1
      ((g₂.addEdge source target child).2 || g.size < g₂.size) := by
  have hsource : g₂.Wraps source parent := hchild.wraps_of_wraps hparent.wraps
  have hedge (a b : Nat) : g₂.Edge a b ↔ g.Edge a b :=
    (hchild.edge_iff a b).trans (hparent.edge_iff a b)
  have hcontains (id : Nat) (hid : g.contains id = true) : g₂.contains id = true :=
    hchild.contains_of_contains id (hparent.contains_of_contains id hid)
  have hkept (id : Nat) (node : Node) (h : g.node? id = some node) : g₂.node? id = some node :=
    hchild.kept id node (hparent.kept id node h)
  obtain ⟨node, hnode, hrule⟩ := hsource
  have hedge' (a b : Nat) :
      (g₂.addEdge source target child).1.Edge a b ↔ g.Edge a b ∨ (a = source ∧ b = target) := by
    rw [edge_addEdge hnode, hedge]
  refine ⟨?kept, ?kept_parent, ?wraps_new, ?edge_iff, ?changed_iff, ?unchanged⟩
  case kept =>
    intro id other hother hne
    have hid : id ≠ source := by
      rintro rfl
      rw [hkept id other hother, Option.some.injEq] at hnode
      exact hne (hnode ▸ hrule)
    rw [node?_addEdge hnode, if_neg hid]
    exact hkept id other hother
  case kept_parent =>
    intro id other hother heq
    obtain rfl := (hparent.unchanged id ⟨other, hother, heq⟩).2
    rw [hkept source other hother, Option.some.injEq] at hnode
    subst hnode
    exact ⟨_, by rw [node?_addEdge (hkept source other hother), if_pos rfl]⟩
  case wraps_new =>
    intro id hid hold
    rw [contains_addEdge hnode] at hid
    simp only [wraps_addEdge hnode]
    exact hparent.exists_wraps_of_new hchild hid hold
  case edge_iff =>
    intro a b
    have ha : g₂.Wraps a parent ↔ a = source := Wraps.eq_iff hg₂ ⟨node, hnode, hrule⟩
    have hb : g₂.Wraps b child ↔ b = target := hchild.wraps.eq_iff hg₂
    simp only [hedge', wraps_addEdge hnode, ha, Option.some.injEq, exists_eq_left', hb]
  case changed_iff =>
    simp only [contains_addEdge hnode]
    rw [Bool.or_eq_true, snd_addEdge_iff hnode, hedge, decide_eq_true_iff,
      size_lt_iff hcontains, exists_new_edge_iff hedge', or_comm]
  case unchanged =>
    -- Without a new id neither registration did anything, and the edge was there already.
    intro hchanged
    obtain ⟨hadded, hsize⟩ := Bool.or_eq_false_iff.1 hchanged
    have hold := contains_of_not_size_lt hcontains (of_decide_eq_false hsize)
    obtain rfl := hparent.eq_of_contains fun new hnew =>
      hold new (hchild.contains_of_contains new hnew)
    obtain rfl := hchild.eq_of_contains hold
    refine addEdge_eq_self hg₂ hchild.wraps ?_
    by_contra hno
    rw [(snd_addEdge_iff hnode).2 hno] at hadded
    cases hadded

theorem adds_addDependency
    (hg : g.WellFormed)
    (parent : RuleInstance)
    (child : Option RuleInstance) :
    g.Adds parent child (g.addDependency parent child).1 (g.addDependency parent child).2 := by
  have hparent := registers_register hg parent
  have hg₁ := wellFormed_register hg parent
  cases child with
  | none => exact hparent.adds_none
  | some rule =>
      exact hparent.adds_some (registers_register hg₁ rule) (wellFormed_register hg₁ rule)

end Depending

/-- On every graph that is built, registering an instance and adding a dependency leave everything
as it is but for what they add, and tell what they added. -/
theorem growth_of_built
    (g : DependencyGraph)
    (hg : g.Built) :
    g.WellFormed ∧
      (∀ rule, g.Registers rule (g.register rule).1 (g.register rule).2) ∧
      ∀ parent child,
        g.Adds parent child (g.addDependency parent child).1 (g.addDependency parent child).2 :=
  ⟨hg.wellFormed, registers_register hg.wellFormed, adds_addDependency hg.wellFormed⟩

/-- Two of four rules, reversed and numbered; the ids between them are not in use. -/
def gappedGraph : DependencyGraph :=
  ((ofRules mutualRules).subgraph (OrderedSet.ofList [0, 3])).invert.numbered

/-- A rule whose id is no longer in use gets another one. -/
theorem growth_of_gappedGraph :
    gappedGraph.Built ∧ gappedGraph.ids = [0, 3] ∧
      (RuleInstance.ofRules mutualRules).map (fun rule => (gappedGraph.register rule).2) =
        [0, 4, 4, 3] ∧
      gappedGraph.WellFormed ∧
      (∀ rule, gappedGraph.Registers rule (gappedGraph.register rule).1
        (gappedGraph.register rule).2) ∧
      ∀ parent child,
        gappedGraph.Adds parent child (gappedGraph.addDependency parent child).1
          (gappedGraph.addDependency parent child).2 := by
  have hbuilt : gappedGraph.Built :=
    Built.numbered (Built.invert (Built.subgraph _ (Built.ofRules mutualRules)))
  exact ⟨hbuilt, by cbv, by cbv, growth_of_built gappedGraph hbuilt⟩

end DependencyGraph

end Growth

end Datalog
