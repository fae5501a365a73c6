import Datalog.Proofs.Graph.FinishNumbers
import Datalog.Proofs.Graph.Growth

/-!
# Reversal of dependency graphs

**Determination.** In a well-formed graph the wrapped instances and the edges say what stands in
each adjacency map.  So two well-formed graphs that agree in both differ at most in their numbers.

**Loop.** `redrawn` builds the reversed graph edge by edge: it starts from the nodes without their
edges and, for each edge in turn, writes the source into the adjacency map of the target.  An edge
whose target is no node is dropped.

**Results.** On every graph that is built, the loop gives `invert`.  Reversal turns all edges
around, undoes itself up to numbers, and can be exchanged with taking a subgraph.
-/

namespace Datalog

section Reversal

namespace DependencyGraph

variable {g g' h : DependencyGraph}

section Determination

/-- An adjacency map has the instance of the node at the end of each edge. -/
theorem get?_adjacency_iff
    (hg : g.WellFormed)
    {source target : Nat} {node : Node} {rule : RuleInstance}
    (hnode : g.node? source = some node) :
    node.adjacency.get? target = some rule ↔ g.Edge source target ∧ g.Wraps target rule := by
  constructor
  · intro hrule
    exact ⟨edge_iff.2 ⟨node, rule, hnode, hrule⟩,
      hg.target_node source node target rule hnode hrule⟩
  · rintro ⟨hedge, node', hnode', rfl⟩
    obtain ⟨n, rule, hn, hrule⟩ := edge_iff.1 hedge
    rw [hnode] at hn
    cases hn
    obtain ⟨n', hn', hwrapped⟩ := hg.target_node source node target rule hnode hrule
    rw [hnode'] at hn'
    cases hn'
    rw [hwrapped]
    exact hrule

/-- A well-formed graph is determined by its instances and edges, up to numbers. -/
theorem sameButNumbers_of_edge_iff
    (hg : g.WellFormed)
    (hg' : g'.WellFormed)
    (hwraps : ∀ id rule, g.Wraps id rule ↔ g'.Wraps id rule)
    (hedge : ∀ a b, g.Edge a b ↔ g'.Edge a b) :
    g.SameButNumbers g' := by
  intro id
  cases hnode : g.node? id with
  | none =>
      cases hnode' : g'.node? id with
      | none => rfl
      | some node' =>
          obtain ⟨node, hnode'', _⟩ := (hwraps id node'.rule).2 ⟨node', hnode', rfl⟩
          rw [hnode] at hnode''
          cases hnode''
  | some node =>
      obtain ⟨node', hnode', hrule⟩ := (hwraps id node.rule).1 ⟨node, hnode, rfl⟩
      have hid : node.id = node'.id :=
        (hg.id_eq id node hnode).trans (hg'.id_eq id node' hnode').symm
      have hadjacency : node.adjacency = node'.adjacency := by
        refine OrderedMap.ext_get? fun target => Option.ext fun rule => ?_
        rw [get?_adjacency_iff hg hnode, get?_adjacency_iff hg' hnode', hedge, hwraps]
      rw [hnode', Option.map_some, Option.map_some]
      unfold Node.unnumbered
      rw [hid, hadjacency, hrule]

/-- Graphs that differ at most in their numbers are equal if these agree, too. -/
theorem SameButNumbers.eq_of_number?
    (hsame : g.SameButNumbers g')
    (hnumber : ∀ id, g.number? id = g'.number? id) :
    g = g' := by
  refine congrArg DependencyGraph.mk (OrderedMap.ext_get? fun id => ?_)
  change g.node? id = g'.node? id
  have hid := hsame id
  have hn := hnumber id
  unfold number? at hn
  cases hnode : g.node? id with
  | none =>
      rw [hnode] at hid
      exact (Option.map_eq_none_iff.1 hid.symm).symm
  | some node =>
      rw [hnode] at hid hn
      obtain ⟨node', hnode', heq⟩ := Option.map_eq_some_iff.1 hid.symm
      rw [hnode'] at hn ⊢
      cases node
      cases node'
      cases heq
      cases hn
      rfl

end Determination

section Parts

theorem wraps_invert
    {id : Nat} {rule : RuleInstance} :
    g.invert.Wraps id rule ↔ g.Wraps id rule := by
  unfold Wraps
  rw [node?_invert]
  cases g.node? id <;> simp [reversedNode, Node.isolated]

theorem wraps_subgraph
    {members : OrderedSet Nat} {id : Nat} {rule : RuleInstance} :
    (g.subgraph members).Wraps id rule ↔ id ∈ members ∧ g.Wraps id rule := by
  unfold Wraps
  rw [node?_subgraph]
  by_cases hid : id ∈ members
  · cases g.node? id <;> simp [hid, memberNode, Node.isolated]
  · simp [hid]

theorem number?_invert (g : DependencyGraph) (id : Nat) :
    g.invert.number? id = none := by
  unfold number?
  rw [node?_invert]
  cases g.node? id <;> rfl

theorem number?_subgraph (g : DependencyGraph) (members : OrderedSet Nat) (id : Nat) :
    (g.subgraph members).number? id = none := by
  unfold number?
  rw [node?_subgraph]
  split
  · cases g.node? id <;> rfl
  · rfl

end Parts

section Loop

/-- The same nodes without their edges. -/
def withoutEdges (g : DependencyGraph) : DependencyGraph :=
  ⟨g.nodes.filterMap fun id node => some (Node.isolated id node.rule)⟩

/-- The edges in the order of their sources, each as the source node and the id of the target. -/
def arrows (g : DependencyGraph) : List (Node × Nat) :=
  g.nodes.values.flatMap fun source => source.adjacency.keys.map fun target => (source, target)

/-- Writes an edge into the graph the other way round, if its target is a node. -/
def turnArrow (h : DependencyGraph) (arrow : Node × Nat) : DependencyGraph :=
  (h.addEdge arrow.2 arrow.1.id arrow.1.rule).1

/-- The reversed graph, edge by edge. -/
def redrawn (g : DependencyGraph) : DependencyGraph :=
  g.arrows.foldl turnArrow g.withoutEdges

theorem mem_arrows
    (hg : g.WellFormed)
    {source : Node} {target : Nat} :
    (source, target) ∈ g.arrows ↔
      g.node? source.id = some source ∧ g.Edge source.id target := by
  have hvalues : source ∈ g.nodes.values ↔ g.node? source.id = some source := by
    rw [OrderedMap.mem_values_iff]
    constructor
    · rintro ⟨id, hnode⟩
      rw [hg.id_eq id source hnode]
      exact hnode
    · exact fun hnode => ⟨source.id, hnode⟩
  unfold arrows
  simp only [List.mem_flatMap, List.mem_map, Prod.mk.injEq]
  constructor
  · rintro ⟨_, hsource, _, htarget, rfl, rfl⟩
    have hnode := hvalues.1 hsource
    exact ⟨hnode, (edge_iff_of_node? hnode).2 (OrderedMap.mem_keySet_iff.1 htarget)⟩
  · rintro ⟨hnode, hedge⟩
    have htarget := (edge_iff_of_node? hnode).1 hedge
    exact ⟨source, hvalues.2 hnode, target, OrderedMap.mem_keySet_iff.2 htarget, rfl, rfl⟩

/-- A graph without numbers on the nodes of `g` that has the edges of a relation. -/
structure Redraws (g h : DependencyGraph) (edge : Nat → Nat → Prop) : Prop where
  wellFormed : h.WellFormed
  wraps_iff : ∀ id rule, h.Wraps id rule ↔ g.Wraps id rule
  number?_eq_none : ∀ id, h.number? id = none
  edge_iff : ∀ a b, h.Edge a b ↔ edge a b

theorem redraws_withoutEdges
    (hg : g.WellFormed) :
    g.Redraws g.withoutEdges fun _ _ => False := by
  have hnode (id : Nat) :
      g.withoutEdges.node? id = (g.node? id).map fun node => Node.isolated id node.rule := by
    rw [withoutEdges, node?_filterMap]
    cases g.node? id <;> rfl
  refine ⟨hg.of_nodes ?_ ?_, ?_, ?_, ?_⟩
  · intro id _ hcopy
    rw [hnode] at hcopy
    obtain ⟨node, hsome, rfl⟩ := Option.map_eq_some_iff.1 hcopy
    exact ⟨node, hsome, rfl, rfl⟩
  · intro source _ target rule hcopy hrule
    rw [hnode] at hcopy
    obtain ⟨_, _, rfl⟩ := Option.map_eq_some_iff.1 hcopy
    cases hrule
  · intro id rule
    unfold Wraps
    rw [hnode]
    cases g.node? id <;> simp [Node.isolated]
  · intro id
    unfold number?
    rw [hnode]
    cases g.node? id <;> rfl
  · intro a b
    rw [DependencyGraph.edge_iff, hnode]
    cases g.node? a <;> simp [Node.isolated]

/-- Writing one more edge the other way round keeps the nodes and adds this edge. -/
theorem Redraws.turnArrow
    {edge : Nat → Nat → Prop}
    (hdrawn : g.Redraws h edge)
    (hg : g.WellFormed)
    {arrow : Node × Nat}
    (harrow : arrow ∈ g.arrows) :
    g.Redraws (h.turnArrow arrow) fun a b => edge a b ∨ (a = arrow.2 ∧ b = arrow.1.id) := by
  obtain ⟨source, target⟩ := arrow
  obtain ⟨hsource, hedge⟩ := (mem_arrows hg).1 harrow
  obtain ⟨rule, htarget⟩ := contains_iff_wraps.1 (contains_target hg hedge)
  obtain ⟨node, hnode, _⟩ := (hdrawn.wraps_iff target rule).2 htarget
  obtain ⟨node', hnode', hrule⟩ := (hdrawn.wraps_iff source.id source.rule).2 ⟨source, hsource, rfl⟩
  unfold DependencyGraph.turnArrow
  refine ⟨wellFormed_addEdge hdrawn.wellFormed hnode hnode' hrule, ?_, ?_, ?_⟩
  · intro id rule
    rw [← hdrawn.wraps_iff]
    exact wraps_addEdge hnode
  · intro id
    have hold := hdrawn.number?_eq_none id
    unfold number? at hold ⊢
    rw [node?_addEdge hnode]
    split
    · rename_i hid
      rw [hid, hnode] at hold
      exact hold
    · exact hold
  · intro a b
    rw [edge_addEdge hnode, hdrawn.edge_iff]

theorem Redraws.foldl_turnArrow
    {edge : Nat → Nat → Prop}
    (hdrawn : g.Redraws h edge)
    (hg : g.WellFormed)
    {arrows : List (Node × Nat)}
    (harrows : ∀ arrow ∈ arrows, arrow ∈ g.arrows) :
    g.Redraws (arrows.foldl DependencyGraph.turnArrow h) fun a b =>
      edge a b ∨ ∃ arrow ∈ arrows, a = arrow.2 ∧ b = arrow.1.id := by
  induction arrows generalizing h edge with
  | nil => simpa using hdrawn
  | cons arrow rest ih =>
      have hstep := hdrawn.turnArrow hg (harrows arrow List.mem_cons_self)
      have hrest := ih hstep fun other hother => harrows other (List.mem_cons_of_mem _ hother)
      refine ⟨hrest.wellFormed, hrest.wraps_iff, hrest.number?_eq_none, fun a b => ?_⟩
      rw [List.foldl_cons, hrest.edge_iff, or_assoc, List.exists_mem_cons_iff]

/-- Edge by edge the reversed graph comes out. -/
theorem redrawn_eq_invert
    (hg : g.WellFormed) :
    g.redrawn = g.invert := by
  have hdrawn := (redraws_withoutEdges hg).foldl_turnArrow hg fun _ harrow => harrow
  refine (sameButNumbers_of_edge_iff hdrawn.wellFormed (wellFormed_invert hg)
    ?_ ?_).eq_of_number? ?_
  · intro id rule
    rw [wraps_invert]
    exact hdrawn.wraps_iff id rule
  · intro a b
    rw [hdrawn.edge_iff, edge_invert hg, false_or]
    constructor
    · rintro ⟨⟨source, target⟩, harrow, rfl, rfl⟩
      exact ((mem_arrows hg).1 harrow).2
    · intro hedge
      obtain ⟨source, hsource⟩ := contains_iff.1 (contains_source hedge)
      have hid := hg.id_eq b source hsource
      refine ⟨(source, a), (mem_arrows hg).2 ?_, rfl, hid.symm⟩
      rw [hid]
      exact ⟨hsource, hedge⟩
  · intro id
    rw [number?_invert]
    exact hdrawn.number?_eq_none id

end Loop

section Laws

/-- Reversing a graph twice gives it back, up to numbers. -/
theorem sameButNumbers_invert_invert
    (hg : g.WellFormed) :
    g.invert.invert.SameButNumbers g := by
  have hinvert := wellFormed_invert hg
  refine sameButNumbers_of_edge_iff (wellFormed_invert hinvert) hg ?_ ?_
  · intro id rule
    rw [wraps_invert, wraps_invert]
  · intro a b
    rw [edge_invert hinvert, edge_invert hg]

/-- Reversing a subgraph gives the subgraph of the reversed graph. -/
theorem invert_subgraph
    (hg : g.WellFormed)
    (members : OrderedSet Nat) :
    (g.subgraph members).invert = g.invert.subgraph members := by
  have hsubgraph := wellFormed_subgraph hg members
  have hinvert := wellFormed_invert hg
  refine (sameButNumbers_of_edge_iff (wellFormed_invert hsubgraph)
    (wellFormed_subgraph hinvert members) ?_ ?_).eq_of_number? ?_
  · intro id rule
    rw [wraps_invert, wraps_subgraph, wraps_subgraph, wraps_invert]
  · intro a b
    rw [edge_invert hsubgraph, edge_subgraph, edge_subgraph, edge_invert hg]
    exact and_left_comm
  · intro id
    rw [number?_invert, number?_subgraph]

/-- Ids that the graph lacks play no part in a subgraph. -/
theorem subgraph_filter_contains
    (hg : g.WellFormed)
    (members : OrderedSet Nat) :
    g.subgraph (members.filter g.contains) = g.subgraph members := by
  refine (sameButNumbers_of_edge_iff (wellFormed_subgraph hg _) (wellFormed_subgraph hg members)
    ?_ ?_).eq_of_number? ?_
  · intro id rule
    rw [wraps_subgraph, wraps_subgraph, OrderedSet.mem_filter, and_assoc]
    exact and_congr_right fun _ => and_iff_right_of_imp Wraps.contains
  · intro a b
    rw [edge_subgraph, edge_subgraph, OrderedSet.mem_filter, OrderedSet.mem_filter]
    constructor
    · rintro ⟨⟨ha, _⟩, ⟨hb, _⟩, hedge⟩
      exact ⟨ha, hb, hedge⟩
    · rintro ⟨ha, hb, hedge⟩
      exact ⟨⟨ha, contains_source hedge⟩, ⟨hb, contains_target hg hedge⟩, hedge⟩
  · intro id
    rw [number?_subgraph, number?_subgraph]

end Laws

/-- On every graph that is built, writing its edges one by one the other way round gives the
reversed graph.  There is an edge in it exactly where there is one the other way round in the graph;
reversing it again gives back the nodes, instances and adjacency maps; and a subgraph of it is the
reversed subgraph, in which ids that the graph lacks play no part. -/
theorem reversal_laws
    (g : DependencyGraph)
    (hg : g.Built) :
    g.redrawn = g.invert ∧
      (∀ a b, g.invert.hasEdge a b = g.hasEdge b a) ∧
      g.invert.invert.SameButNumbers g ∧
      ∀ members,
        (g.subgraph members).invert = g.invert.subgraph members ∧
          g.subgraph (members.filter g.contains) = g.subgraph members := by
  have hwellFormed := hg.wellFormed
  refine ⟨redrawn_eq_invert hwellFormed, ?_, sameButNumbers_invert_invert hwellFormed, ?_⟩
  · exact fun a b => Bool.eq_iff_iff.2 (edge_invert hwellFormed)
  · exact fun members =>
      ⟨invert_subgraph hwellFormed members, subgraph_filter_contains hwellFormed members⟩

/-- A numbered graph with a cycle and a self-loop loses its numbers when it is reversed twice. -/
theorem reversal_laws_of_regrownGraph :
    let members := OrderedSet.ofList [0, 2, 3, 7]
    regrownGraph.Built ∧
      regrownGraph.text = "R0:R1,R2\nR1:R2,R3\nR2:R2,R3\nR3:R0\n" ∧
      regrownGraph.number? 0 = some 4 ∧
      regrownGraph.invert.invert.number? 0 = none ∧
      regrownGraph.invert.invert.SameButNumbers regrownGraph ∧
      (regrownGraph.subgraph members).invert = regrownGraph.invert.subgraph members ∧
      (regrownGraph.subgraph members).invert.text = "R0:R3\nR2:R0,R2\nR3:R2\n" := by
  intro members
  have hbuilt : regrownGraph.Built :=
    Built.addDependency _ _ (Built.numbered (Built.ofRules _))
  have hascending : OrderedSet.ofList [0, 2, 3, 7] = ⟨[0, 2, 3, 7], by decide⟩ := by cbv
  have hmembers : members = ⟨[0, 2, 3, 7], by decide⟩ := hascending
  have htext :
      (regrownGraph.subgraph members).invert.text = "R0:R3\nR2:R0,R2\nR3:R2\n" := by
    rw [hmembers]
    decide +kernel
  obtain ⟨_, _, htwice, hsubgraph⟩ := reversal_laws regrownGraph hbuilt
  exact ⟨hbuilt, by decide +kernel, by cbv, number?_invert _ _, htwice, (hsubgraph members).1,
    htext⟩

end DependencyGraph

end Reversal

end Datalog
