import Datalog.DependencyGraph.Components
import Mathlib.Logic.Relation

/-!
# How dependency graphs are formed

**Objects.** `Built` lists the operations that make a dependency graph.  `WellFormed` is what all
of them keep: a node stands under its own id, no two nodes wrap the same rule instance, and an edge
ends at a node of the graph and carries the instance of that node.

**Views.** `Edge` is the relation behind `hasEdge`, and each operation has one lemma on the edges of
its result.

**Results.** Every graph that is built is well formed.
-/

namespace Datalog

section Formation

namespace DependencyGraph

/-- There is an edge between two ids. -/
def Edge (g : DependencyGraph) (source target : Nat) : Prop :=
  g.hasEdge source target = true

/-- A walk along edges, possibly without any. -/
abbrev Reaches (g : DependencyGraph) : Nat → Nat → Prop :=
  Relation.ReflTransGen g.Edge

/-- A node that comes back to itself along one edge or more. -/
def OnCycle (g : DependencyGraph) (id : Nat) : Prop :=
  Relation.TransGen g.Edge id id

/-- What every operation on graphs keeps. -/
structure WellFormed (g : DependencyGraph) : Prop where
  id_eq :
    ∀ id node, g.node? id = some node → node.id = id
  rule_injective :
    ∀ id id' node node',
      g.node? id = some node → g.node? id' = some node' → node.rule = node'.rule → id = id'
  target_node :
    ∀ source node target rule,
      g.node? source = some node → node.adjacency.get? target = some rule →
        ∃ node', g.node? target = some node' ∧ node'.rule = rule

section Views

variable {g : DependencyGraph}

theorem contains_iff
    {id : Nat} :
    g.contains id = true ↔ ∃ node, g.node? id = some node := by
  simp [contains, OrderedMap.contains, node?, Option.isSome_iff_exists]

theorem mem_keySet
    {id : Nat} :
    id ∈ g.nodes.keySet ↔ g.contains id = true :=
  OrderedMap.mem_keySet_iff

theorem mem_ids
    {id : Nat} :
    id ∈ g.ids ↔ g.contains id = true :=
  mem_keySet

theorem nodup_ids (g : DependencyGraph) :
    g.ids.Nodup :=
  g.nodes.keySet.nodup_toList

theorem size_eq_length_ids (g : DependencyGraph) :
    g.size = g.ids.length := by
  simp [size, ids, OrderedMap.size, OrderedMap.keys]

theorem edge_iff
    {source target : Nat} :
    g.Edge source target ↔
      ∃ node rule, g.node? source = some node ∧ node.adjacency.get? target = some rule := by
  unfold Edge hasEdge
  cases h : g.node? source with
  | none => simp
  | some node => simp [OrderedMap.contains, Option.isSome_iff_exists]

theorem edge_iff_of_node?
    {source target : Nat} {node : Node}
    (h : g.node? source = some node) :
    g.Edge source target ↔ node.adjacency.contains target = true := by
  simp [Edge, hasEdge, h]

theorem contains_source
    {source target : Nat}
    (h : g.Edge source target) :
    g.contains source = true := by
  obtain ⟨node, _, hnode, _⟩ := edge_iff.1 h
  exact contains_iff.2 ⟨node, hnode⟩

theorem contains_target
    {source target : Nat}
    (hg : g.WellFormed)
    (h : g.Edge source target) :
    g.contains target = true := by
  obtain ⟨node, rule, hnode, hrule⟩ := edge_iff.1 h
  obtain ⟨node', hnode', _⟩ := hg.target_node source node target rule hnode hrule
  exact contains_iff.2 ⟨node', hnode'⟩

theorem mem_successors
    (hg : g.WellFormed)
    {source target : Nat} :
    target ∈ g.successors source ↔ g.Edge source target := by
  have hkey (node : Node) (h : g.node? source = some node) :
      target ∈ node.adjacency.keys ↔ g.Edge source target := by
    rw [edge_iff_of_node? h]
    exact OrderedMap.mem_keySet_iff
  unfold successors
  split
  · rename_i hnode
    simp [Edge, hasEdge, hnode]
  · rename_i node hnode
    rw [List.mem_filter, hkey node hnode]
    exact and_iff_left_of_imp fun h => contains_target hg h

/-- A graph whose nodes keep the rules of the nodes of a well-formed graph is well formed, too, if
its edges lead to its nodes. -/
theorem WellFormed.of_nodes
    {g' : DependencyGraph}
    (hg : g.WellFormed)
    (hold : ∀ id node', g'.node? id = some node' →
      ∃ node, g.node? id = some node ∧ node'.id = id ∧ node'.rule = node.rule)
    (htarget : ∀ source node target rule,
      g'.node? source = some node → node.adjacency.get? target = some rule →
        ∃ node', g'.node? target = some node' ∧ node'.rule = rule) :
    g'.WellFormed := by
  refine ⟨?_, ?_, htarget⟩
  · intro id node' h
    obtain ⟨_, _, hid, _⟩ := hold id node' h
    exact hid
  · intro id id' node node' h h' heq
    obtain ⟨n, hn, _, hrule⟩ := hold id node h
    obtain ⟨n', hn', _, hrule'⟩ := hold id' node' h'
    exact hg.rule_injective id id' n n' hn hn' (by rw [← hrule, ← hrule', heq])

end Views

section Growing

variable {g : DependencyGraph}

theorem node?_empty (id : Nat) :
    empty.node? id = none :=
  rfl

theorem wellFormed_empty : empty.WellFormed where
  id_eq := by simp [node?_empty]
  rule_injective := by simp [node?_empty]
  target_node := by simp [node?_empty]

/-- The number after the last id is larger than every id. -/
theorem lt_nextId
    {id : Nat}
    (h : g.contains id = true) :
    id < g.nextId := by
  have hmem : id ∈ g.ids := mem_ids.2 h
  have hascending : g.ids.Pairwise (fun a b => compare a b = .lt) :=
    g.nodes.keySet.ascending
  unfold nextId
  cases hlast : g.ids.getLast? with
  | none =>
      rw [List.getLast?_eq_none_iff.1 hlast] at hmem
      exact absurd hmem List.not_mem_nil
  | some last =>
      obtain ⟨front, hfront⟩ := List.getLast?_eq_some_iff.1 hlast
      rw [hfront] at hmem hascending
      rcases List.mem_append.1 hmem with hmem | hmem
      · have hlt := (List.pairwise_append.1 hascending).2.2 id hmem last (List.mem_singleton.2 rfl)
        exact Nat.lt_succ_of_lt (Nat.compare_eq_lt.1 hlt)
      · rw [List.mem_singleton.1 hmem]
        exact Nat.lt_succ_self last

theorem node?_nextId (g : DependencyGraph) :
    g.node? g.nextId = none := by
  cases h : g.node? g.nextId with
  | none => rfl
  | some node => exact absurd (lt_nextId (contains_iff.2 ⟨node, h⟩)) (Nat.lt_irrefl _)

theorem idOf?_eq_none
    {rule : RuleInstance}
    (h : g.idOf? rule = none) :
    ∀ id node, g.node? id = some node → node.rule ≠ rule := by
  intro id node hnode heq
  have hmem : node ∈ g.nodes.values := OrderedMap.mem_values_iff.2 ⟨id, hnode⟩
  rw [idOf?, Option.map_eq_none_iff, List.find?_eq_none] at h
  exact h node hmem (by simp [heq])

theorem node?_of_idOf?
    (hg : g.WellFormed)
    {rule : RuleInstance} {id : Nat}
    (h : g.idOf? rule = some id) :
    ∃ node, g.node? id = some node ∧ node.rule = rule := by
  obtain ⟨node, hfind, rfl⟩ := Option.map_eq_some_iff.1 h
  obtain ⟨id, hnode⟩ := OrderedMap.mem_values_iff.1 (List.mem_of_find?_eq_some hfind)
  refine ⟨node, ?_, by simpa using List.find?_some hfind⟩
  rw [hg.id_eq id node hnode]
  exact hnode

/-- Registering a rule instance keeps every node and gives the id of one that wraps the
instance; a node is added only where none wraps it, under the number after the last id. -/
theorem register_cases
    (hg : g.WellFormed)
    (rule : RuleInstance) :
    (∃ id node, g.node? id = some node ∧ node.rule = rule ∧ g.register rule = (g, id)) ∨
      ((∀ id node, g.node? id = some node → node.rule ≠ rule) ∧
        (g.register rule).2 = g.nextId ∧
        ∀ id, (g.register rule).1.node? id =
          if id = g.nextId then some (Node.isolated g.nextId rule) else g.node? id) := by
  unfold register
  cases h : g.idOf? rule with
  | some id =>
      obtain ⟨node, hnode, hrule⟩ := node?_of_idOf? hg h
      exact Or.inl ⟨id, node, hnode, hrule, rfl⟩
  | none =>
      refine Or.inr ⟨idOf?_eq_none h, rfl, ?_⟩
      intro id
      exact OrderedMap.get?_insert g.nodes g.nextId id _

theorem wellFormed_register
    (hg : g.WellFormed)
    (rule : RuleInstance) :
    (g.register rule).1.WellFormed := by
  rcases register_cases hg rule with ⟨_, _, _, _, heq⟩ | ⟨hfresh, _, hnode⟩
  · rw [heq]
    exact hg
  · refine ⟨?_, ?_, ?_⟩
    · intro id node h
      rw [hnode] at h
      split at h
      · rename_i hid
        cases h
        exact hid.symm
      · exact hg.id_eq id node h
    · intro id id' node node' h h' heq
      rw [hnode] at h h'
      split at h <;> split at h'
      · rename_i hid hid'
        rw [hid, hid']
      · cases h
        exact absurd heq.symm (hfresh id' node' h')
      · cases h'
        exact absurd heq (hfresh id node h)
      · exact hg.rule_injective id id' node node' h h' heq
    · intro source node target rule' h hrule
      rw [hnode] at h
      split at h
      · cases h
        simp [Node.isolated] at hrule
      · obtain ⟨node', hnode', heq⟩ := hg.target_node source node target rule' h hrule
        refine ⟨node', ?_, heq⟩
        have hne : target ≠ g.nextId := by
          rintro rfl
          rw [node?_nextId] at hnode'
          cases hnode'
        rw [hnode, if_neg hne]
        exact hnode'

/-- The id that registering gives belongs to a node that wraps the instance. -/
theorem node?_register
    (hg : g.WellFormed)
    (rule : RuleInstance) :
    ∃ node, (g.register rule).1.node? (g.register rule).2 = some node ∧ node.rule = rule := by
  rcases register_cases hg rule with ⟨id, node, hnode, hrule, heq⟩ | ⟨_, hid, hnode⟩
  · rw [heq]
    exact ⟨node, hnode, hrule⟩
  · refine ⟨Node.isolated g.nextId rule, ?_, rfl⟩
    rw [hid, hnode, if_pos rfl]

theorem node?_register_of_node?
    (hg : g.WellFormed)
    (rule : RuleInstance)
    {id : Nat} {node : Node}
    (h : g.node? id = some node) :
    (g.register rule).1.node? id = some node := by
  rcases register_cases hg rule with ⟨_, _, _, _, heq⟩ | ⟨_, _, hnode⟩
  · rw [heq]
    exact h
  · have hne : id ≠ g.nextId := by
      rintro rfl
      rw [node?_nextId] at h
      cases h
    rw [hnode, if_neg hne]
    exact h

theorem node?_addEdge
    {source target : Nat} {rule : RuleInstance} {node : Node}
    (h : g.node? source = some node)
    (id : Nat) :
    (g.addEdge source target rule).1.node? id =
      if id = source then some { node with adjacency := node.adjacency.insert target rule }
      else g.node? id := by
  unfold addEdge
  rw [h]
  exact OrderedMap.get?_insert g.nodes source id _

/-- A node of the graph with a new edge is a node of the old one with perhaps one more edge. -/
theorem exists_node_of_addEdge
    (hg : g.WellFormed)
    {source target : Nat} {rule : RuleInstance} {node : Node}
    (hsource : g.node? source = some node)
    {id : Nat} {n : Node}
    (h : (g.addEdge source target rule).1.node? id = some n) :
    ∃ n₀, g.node? id = some n₀ ∧ n.id = id ∧ n.rule = n₀.rule ∧
      ∀ t r, n.adjacency.get? t = some r →
        n₀.adjacency.get? t = some r ∨ (t = target ∧ r = rule) := by
  rw [node?_addEdge hsource] at h
  split at h
  · rename_i hid
    cases h
    refine ⟨node, hid ▸ hsource, hid ▸ hg.id_eq source node hsource, rfl, ?_⟩
    intro t r hr
    rw [OrderedMap.get?_insert] at hr
    split at hr
    · rename_i ht
      cases hr
      exact Or.inr ⟨ht, rfl⟩
    · exact Or.inl hr
  · exact ⟨n, h, hg.id_eq id n h, rfl, fun _ _ hr => Or.inl hr⟩

theorem node?_addEdge_of_node?
    {source target : Nat} {rule : RuleInstance} {node : Node}
    (hsource : g.node? source = some node)
    {id : Nat} {n₀ : Node}
    (h : g.node? id = some n₀) :
    ∃ n, (g.addEdge source target rule).1.node? id = some n ∧ n.rule = n₀.rule := by
  rw [node?_addEdge hsource]
  split
  · rename_i hid
    rw [hid, hsource] at h
    cases h
    exact ⟨_, rfl, rfl⟩
  · exact ⟨n₀, h, rfl⟩

theorem wellFormed_addEdge
    (hg : g.WellFormed)
    {source target : Nat} {rule : RuleInstance} {node node' : Node}
    (hsource : g.node? source = some node)
    (htarget : g.node? target = some node')
    (hrule : node'.rule = rule) :
    (g.addEdge source target rule).1.WellFormed := by
  refine hg.of_nodes ?_ ?_
  · intro id n h
    obtain ⟨n₀, h₀, hid, hr, _⟩ := exists_node_of_addEdge hg hsource h
    exact ⟨n₀, h₀, hid, hr⟩
  · intro s n t r h hr
    obtain ⟨n₀, h₀, _, _, hadjacency⟩ := exists_node_of_addEdge hg hsource h
    have hend : ∃ n', g.node? t = some n' ∧ n'.rule = r := by
      rcases hadjacency t r hr with hr | ⟨rfl, rfl⟩
      · exact hg.target_node s n₀ t r h₀ hr
      · exact ⟨node', htarget, hrule⟩
    obtain ⟨n', hn', rfl⟩ := hend
    exact node?_addEdge_of_node? hsource hn'

theorem edge_addEdge
    {source target : Nat} {rule : RuleInstance} {node : Node}
    (h : g.node? source = some node)
    {a b : Nat} :
    (g.addEdge source target rule).1.Edge a b ↔ g.Edge a b ∨ (a = source ∧ b = target) := by
  simp only [edge_iff, node?_addEdge h]
  by_cases ha : a = source
  · subst ha
    by_cases hb : b = target <;> simp [h, hb]
  · simp [ha]

theorem wellFormed_addDependency
    (hg : g.WellFormed)
    (parent : RuleInstance)
    (child : Option RuleInstance) :
    (g.addDependency parent child).1.WellFormed := by
  have hparent := wellFormed_register hg parent
  cases child with
  | none => exact hparent
  | some rule =>
      obtain ⟨node, hnode, _⟩ := node?_register hg parent
      obtain ⟨node', hnode', hrule⟩ := node?_register hparent rule
      exact wellFormed_addEdge (wellFormed_register hparent rule)
        (node?_register_of_node? hparent rule hnode) hnode' hrule

theorem wellFormed_ofRules (rules : List Rule) :
    (ofRules rules).WellFormed := by
  have hisolated (l : List RuleInstance) (g : DependencyGraph) (hg : g.WellFormed) :
      (l.foldl (fun g rule => (g.addDependency rule none).1) g).WellFormed := by
    induction l generalizing g with
    | nil => exact hg
    | cons rule rest ih => exact ih _ (wellFormed_addDependency hg rule none)
  have hjoined (l : List (RuleInstance × RuleInstance)) (g : DependencyGraph)
      (hg : g.WellFormed) :
      (l.foldl (fun g pair => (g.addDependency pair.1 (some pair.2)).1) g).WellFormed := by
    induction l generalizing g with
    | nil => exact hg
    | cons pair rest ih => exact ih _ (wellFormed_addDependency hg pair.1 (some pair.2))
  exact hjoined _ _ (hisolated _ _ wellFormed_empty)

end Growing

section Deriving

variable {g : DependencyGraph}

theorem node?_filterMap
    (g : DependencyGraph)
    (f : Nat → Node → Option Node)
    (id : Nat) :
    (DependencyGraph.mk (g.nodes.filterMap f)).node? id = (g.node? id).bind (f id) :=
  OrderedMap.get?_filterMap f g.nodes id

/-- A node of the reversed graph. -/
def reversedNode (g : DependencyGraph) (id : Nat) (node : Node) : Node :=
  { Node.isolated id node.rule with
    adjacency := g.nodes.filterMap fun _ source =>
      if source.adjacency.contains id then some source.rule else none }

/-- A node of a subgraph. -/
def memberNode (members : OrderedSet Nat) (id : Nat) (node : Node) : Node :=
  { Node.isolated id node.rule with
    adjacency := node.adjacency.filterMap fun target rule =>
      if members.contains target then some rule else none }

/-- A node with its postorder number written into it. -/
def numberedNode (g : DependencyGraph) (id : Nat) (node : Node) : Node :=
  { node with postorder := (g.postorder.idxOf? id).map (· + 1) }

theorem node?_invert (g : DependencyGraph) (id : Nat) :
    g.invert.node? id = (g.node? id).map (g.reversedNode id) := by
  rw [invert, node?_filterMap]
  cases g.node? id <;> rfl

theorem node?_subgraph (g : DependencyGraph) (members : OrderedSet Nat) (id : Nat) :
    (g.subgraph members).node? id =
      if id ∈ members then (g.node? id).map (memberNode members id) else none := by
  rw [subgraph, node?_filterMap]
  by_cases h : id ∈ members
  · rw [if_pos h]
    cases g.node? id with
    | none => rfl
    | some node => simp [h, memberNode]
  · rw [if_neg h]
    cases g.node? id <;> simp [h]

theorem node?_numbered (g : DependencyGraph) (id : Nat) :
    g.numbered.node? id = (g.node? id).map (g.numberedNode id) := by
  rw [numbered, node?_filterMap]
  cases g.node? id <;> rfl

theorem get?_adjacency_reversedNode
    {id source : Nat} {node : Node} {rule : RuleInstance} :
    (g.reversedNode id node).adjacency.get? source = some rule ↔
      ∃ node', g.node? source = some node' ∧ node'.adjacency.contains id = true ∧
        node'.rule = rule := by
  unfold reversedNode
  rw [OrderedMap.get?_filterMap, Option.bind_eq_some_iff]
  simp [node?]

theorem get?_adjacency_memberNode
    {members : OrderedSet Nat} {id target : Nat} {node : Node} {rule : RuleInstance} :
    (memberNode members id node).adjacency.get? target = some rule ↔
      target ∈ members ∧ node.adjacency.get? target = some rule := by
  unfold memberNode
  rw [OrderedMap.get?_filterMap, Option.bind_eq_some_iff]
  by_cases h : target ∈ members <;> simp [h]

theorem contains_invert
    {id : Nat} :
    g.invert.contains id = true ↔ g.contains id = true := by
  rw [contains_iff, contains_iff, node?_invert]
  cases g.node? id <;> simp

theorem contains_subgraph
    {members : OrderedSet Nat} {id : Nat} :
    (g.subgraph members).contains id = true ↔ id ∈ members ∧ g.contains id = true := by
  rw [contains_iff, contains_iff, node?_subgraph]
  by_cases h : id ∈ members
  · cases g.node? id <;> simp [h]
  · simp [h]

/-- Reversal turns every edge around. -/
theorem edge_invert
    (hg : g.WellFormed)
    {a b : Nat} :
    g.invert.Edge a b ↔ g.Edge b a := by
  constructor
  · intro h
    obtain ⟨node, rule, hnode, hrule⟩ := edge_iff.1 h
    rw [node?_invert] at hnode
    obtain ⟨_, _, rfl⟩ := Option.map_eq_some_iff.1 hnode
    obtain ⟨source, hsource, hcontains, _⟩ := get?_adjacency_reversedNode.1 hrule
    exact (edge_iff_of_node? hsource).2 hcontains
  · intro h
    obtain ⟨node, hnode⟩ := contains_iff.1 (contains_target hg h)
    obtain ⟨source, _, hsource, _⟩ := edge_iff.1 h
    have hcontains := (edge_iff_of_node? hsource).1 h
    refine edge_iff.2 ⟨g.reversedNode a node, source.rule, ?_, ?_⟩
    · rw [node?_invert, hnode]
      rfl
    · exact get?_adjacency_reversedNode.2 ⟨source, hsource, hcontains, rfl⟩

/-- A subgraph has the edges between its members. -/
theorem edge_subgraph
    {members : OrderedSet Nat} {a b : Nat} :
    (g.subgraph members).Edge a b ↔ a ∈ members ∧ b ∈ members ∧ g.Edge a b := by
  rw [edge_iff, edge_iff, node?_subgraph]
  by_cases ha : a ∈ members
  · cases g.node? a with
    | none => simp
    | some node =>
        simp [ha, get?_adjacency_memberNode]
  · simp [ha]

theorem wellFormed_invert
    (hg : g.WellFormed) :
    g.invert.WellFormed := by
  refine hg.of_nodes ?_ ?_
  · intro id _ h
    rw [node?_invert] at h
    obtain ⟨node, hnode, rfl⟩ := Option.map_eq_some_iff.1 h
    exact ⟨node, hnode, rfl, rfl⟩
  · intro source _ target rule h hrule
    rw [node?_invert] at h
    obtain ⟨_, _, rfl⟩ := Option.map_eq_some_iff.1 h
    obtain ⟨n, hn, _, rfl⟩ := get?_adjacency_reversedNode.1 hrule
    refine ⟨g.reversedNode target n, ?_, rfl⟩
    rw [node?_invert, hn]
    rfl

theorem wellFormed_subgraph
    (hg : g.WellFormed)
    (members : OrderedSet Nat) :
    (g.subgraph members).WellFormed := by
  have hold (id : Nat) (node : Node) (h : (g.subgraph members).node? id = some node) :
      ∃ node₀, g.node? id = some node₀ ∧ node = memberNode members id node₀ := by
    rw [node?_subgraph] at h
    split at h
    · obtain ⟨node₀, h₀, rfl⟩ := Option.map_eq_some_iff.1 h
      exact ⟨node₀, h₀, rfl⟩
    · cases h
  refine hg.of_nodes ?_ ?_
  · intro id node h
    obtain ⟨node₀, h₀, rfl⟩ := hold id node h
    exact ⟨node₀, h₀, rfl, rfl⟩
  · intro source node target rule h hrule
    obtain ⟨n, hn, rfl⟩ := hold source node h
    obtain ⟨hmem, hrule'⟩ := get?_adjacency_memberNode.1 hrule
    obtain ⟨n', hn', heq⟩ := hg.target_node source n target rule hn hrule'
    refine ⟨memberNode members target n', ?_, heq⟩
    rw [node?_subgraph, if_pos hmem, hn']
    rfl

theorem wellFormed_numbered
    (hg : g.WellFormed) :
    g.numbered.WellFormed := by
  refine hg.of_nodes ?_ ?_
  · intro id _ h
    rw [node?_numbered] at h
    obtain ⟨node, hnode, rfl⟩ := Option.map_eq_some_iff.1 h
    exact ⟨node, hnode, hg.id_eq id node hnode, rfl⟩
  · intro source node target rule h hrule
    rw [node?_numbered] at h
    obtain ⟨n, hn, rfl⟩ := Option.map_eq_some_iff.1 h
    obtain ⟨n', hn', heq⟩ := hg.target_node source n target rule hn hrule
    refine ⟨g.numberedNode target n', ?_, heq⟩
    rw [node?_numbered, hn']
    rfl

end Deriving

/-- A graph that comes out of the operations on dependency graphs. -/
inductive Built : DependencyGraph → Prop
  | empty : Built empty
  | ofRules (rules : List Rule) : Built (ofRules rules)
  | register {g : DependencyGraph} (rule : RuleInstance) :
      Built g → Built (g.register rule).1
  | addDependency {g : DependencyGraph} (parent : RuleInstance) (child : Option RuleInstance) :
      Built g → Built (g.addDependency parent child).1
  | invert {g : DependencyGraph} : Built g → Built g.invert
  | subgraph {g : DependencyGraph} (members : OrderedSet Nat) :
      Built g → Built (g.subgraph members)
  | numbered {g : DependencyGraph} : Built g → Built g.numbered

/-- Every graph that is built is well formed. -/
theorem Built.wellFormed
    {g : DependencyGraph}
    (h : g.Built) :
    g.WellFormed := by
  induction h with
  | empty => exact wellFormed_empty
  | ofRules rules => exact wellFormed_ofRules rules
  | register rule _ ih => exact wellFormed_register ih rule
  | addDependency parent child _ ih => exact wellFormed_addDependency ih parent child
  | invert _ ih => exact wellFormed_invert ih
  | subgraph members _ ih => exact wellFormed_subgraph ih members
  | numbered _ ih => exact wellFormed_numbered ih

end DependencyGraph

end Formation

end Datalog
