import Datalog.Proofs.Graph.Formation
import Mathlib.Data.List.Nodup
import Mathlib.Data.List.Permutation

/-!
# The dependency graph of a list of rules

**First round.** Every rule instance gets a node.  The instances differ, so each one is new, and the
id of its node is its position in the list.

**Second round.** Every dependency gets an edge.  All instances have their nodes by then, so no node
is added.

**Results.** The nodes of the graph of a list of rules are the positions of the list, and there is
an edge between two of them exactly if the one rule reads the head of the other.
-/

namespace Datalog

section RuleGraph

namespace RuleInstance

variable {rules : List Rule}

theorem getElem?_ofRules (rules : List Rule) (i : Nat) :
    (ofRules rules)[i]? = rules[i]?.map fun rule => ⟨i, rule⟩ := by
  unfold ofRules
  rw [List.getElem?_map, List.getElem?_zipIdx]
  cases rules[i]? <;> simp

theorem nodup_ofRules (rules : List Rule) :
    (ofRules rules).Nodup := by
  have hindices : (ofRules rules).map index = List.range' 0 rules.length := by
    unfold ofRules
    rw [List.map_map]
    exact List.zipIdx_map_snd 0 rules
  refine List.Nodup.of_map index ?_
  rw [hindices]
  exact List.nodup_range'

end RuleInstance

namespace DependencyGraph

variable {g : DependencyGraph} {instances : List RuleInstance} {rules : List Rule}

/-- The node at each position of a list wraps the instance at this position, and there are no other
nodes. -/
def Numbers (g : DependencyGraph) (instances : List RuleInstance) : Prop :=
  ∀ id, (g.node? id).map Node.rule = instances[id]?

theorem Numbers.exists_node
    (h : g.Numbers instances)
    {id : Nat} {rule : RuleInstance}
    (hrule : instances[id]? = some rule) :
    ∃ node, g.node? id = some node ∧ node.rule = rule := by
  rw [← h id] at hrule
  exact Option.map_eq_some_iff.1 hrule

theorem Numbers.getElem?_of_node?
    (h : g.Numbers instances)
    {id : Nat} {node : Node}
    (hnode : g.node? id = some node) :
    instances[id]? = some node.rule := by
  rw [← h id, hnode]
  rfl

section Registering

theorem Numbers.contains_iff
    (h : g.Numbers instances)
    {id : Nat} :
    g.contains id = true ↔ id < instances.length := by
  rw [DependencyGraph.contains_iff]
  constructor
  · rintro ⟨node, hnode⟩
    exact (List.getElem?_eq_some_iff.1 (h.getElem?_of_node? hnode)).1
  · intro hid
    obtain ⟨node, hnode, _⟩ := h.exists_node (List.getElem?_eq_getElem hid)
    exact ⟨node, hnode⟩

theorem Numbers.nextId_eq
    (h : g.Numbers instances) :
    g.nextId = instances.length := by
  refine Nat.le_antisymm ?_ ?_
  · unfold nextId
    cases hlast : g.ids.getLast? with
    | none => exact Nat.zero_le _
    | some last =>
        have hmem : last ∈ g.ids := List.mem_of_getLast? hlast
        exact h.contains_iff.1 (mem_ids.1 hmem)
  · refine Nat.le_of_not_lt fun hlt => ?_
    have hcontains : g.contains g.nextId = true := h.contains_iff.2 hlt
    exact absurd (lt_nextId hcontains) (Nat.lt_irrefl _)

/-- Registering adds no edge. -/
theorem edge_register
    (hg : g.WellFormed)
    (rule : RuleInstance)
    {a b : Nat} :
    (g.register rule).1.Edge a b ↔ g.Edge a b := by
  rcases register_cases hg rule with ⟨_, _, _, _, heq⟩ | ⟨_, _, hnode⟩
  · rw [heq]
  · rw [edge_iff, edge_iff, hnode]
    split
    · rename_i hid
      rw [hid, node?_nextId]
      simp [Node.isolated]
    · rfl

/-- A new instance takes the next position. -/
theorem Numbers.register
    (h : g.Numbers instances)
    (hg : g.WellFormed)
    {rule : RuleInstance}
    (hrule : rule ∉ instances) :
    (g.register rule).1.Numbers (instances ++ [rule]) := by
  rcases register_cases hg rule with ⟨id, node, hnode, rfl, _⟩ | ⟨_, _, hnode⟩
  · exact absurd (List.mem_of_getElem? (h.getElem?_of_node? hnode)) hrule
  · intro id
    rw [hnode, h.nextId_eq]
    split
    · rename_i hid
      rw [hid, List.getElem?_concat_length]
      rfl
    · rename_i hid
      rw [h id, List.getElem?_append]
      split
      · rfl
      · rw [List.getElem?_singleton, if_neg (by omega), List.getElem?_eq_none (by omega)]

/-- The graph with a node for each instance and no edges. -/
def isolatedNodes (instances : List RuleInstance) : DependencyGraph :=
  instances.foldl (fun g rule => (g.addDependency rule none).1) empty

theorem numbers_isolatedNodes
    (h : instances.Nodup) :
    (isolatedNodes instances).WellFormed ∧ (isolatedNodes instances).Numbers instances ∧
      ∀ a b, ¬ (isolatedNodes instances).Edge a b := by
  have hfold (rest before : List RuleInstance) (g : DependencyGraph)
      (hnodup : (before ++ rest).Nodup) (hg : g.WellFormed) (hnumbers : g.Numbers before)
      (hedge : ∀ a b, ¬ g.Edge a b) :
      let g' := rest.foldl (fun g rule => (g.addDependency rule none).1) g
      g'.WellFormed ∧ g'.Numbers (before ++ rest) ∧ ∀ a b, ¬ g'.Edge a b := by
    induction rest generalizing before g with
    | nil =>
        rw [List.append_nil]
        exact ⟨hg, hnumbers, hedge⟩
    | cons rule rest ih =>
        have hnew : rule ∉ before := by
          intro hmem
          have hdisjoint := (List.nodup_append.1 hnodup).2.2
          exact hdisjoint rule hmem rule List.mem_cons_self rfl
        have happend : before ++ rule :: rest = (before ++ [rule]) ++ rest := by
          rw [List.append_assoc]
          rfl
        rw [happend] at hnodup ⊢
        exact ih (before ++ [rule]) (g.register rule).1 hnodup (wellFormed_register hg rule)
          (hnumbers.register hg hnew) fun a b => by
            rw [edge_register hg]
            exact hedge a b
  refine hfold instances [] empty h wellFormed_empty ?_ ?_
  · exact fun id => rfl
  · exact fun a b hedge => by cases hedge

end Registering

section Joining

/-- Registering an instance that has a node changes nothing. -/
theorem Numbers.register_eq
    (h : g.Numbers instances)
    (hg : g.WellFormed)
    {rule : RuleInstance}
    (hrule : rule ∈ instances) :
    ∃ id, instances[id]? = some rule ∧ g.register rule = (g, id) := by
  obtain ⟨i, hi⟩ := List.getElem?_of_mem hrule
  obtain ⟨node, hnode, heq⟩ := h.exists_node hi
  rcases register_cases hg rule with ⟨id, node', hnode', rfl, hsame⟩ | ⟨hfresh, _, _⟩
  · exact ⟨id, h.getElem?_of_node? hnode', hsame⟩
  · exact absurd heq (hfresh i node hnode)

/-- A dependency of instances that have their nodes adds an edge between these nodes. -/
theorem Numbers.addDependency
    (h : g.Numbers instances)
    (hg : g.WellFormed)
    (hnodup : instances.Nodup)
    {reader writer : RuleInstance}
    (hreader : reader ∈ instances)
    (hwriter : writer ∈ instances) :
    (g.addDependency reader (some writer)).1.Numbers instances ∧
      ∀ a b, (g.addDependency reader (some writer)).1.Edge a b ↔
        g.Edge a b ∨ (instances[a]? = some reader ∧ instances[b]? = some writer) := by
  obtain ⟨source, hsource, hregister⟩ := h.register_eq hg hreader
  obtain ⟨target, htarget, hregister'⟩ := h.register_eq hg hwriter
  obtain ⟨node, hnode, hrule⟩ := h.exists_node hsource
  have hresult :
      (g.addDependency reader (some writer)).1 = (g.addEdge source target writer).1 := by
    simp only [DependencyGraph.addDependency, hregister, hregister']
  have hunique {id id' : Nat} {rule : RuleInstance} (hid : instances[id]? = some rule) :
      instances[id']? = some rule ↔ id' = id := by
    constructor
    · intro hid'
      exact (List.getElem?_inj (List.getElem?_eq_some_iff.1 hid').1 hnodup).1 (hid'.trans hid.symm)
    · rintro rfl
      exact hid
  rw [hresult]
  constructor
  · intro id
    rw [node?_addEdge hnode, ← h id]
    split
    · rename_i hid
      rw [hid, hnode]
      rfl
    · rfl
  · intro a b
    rw [edge_addEdge hnode, hunique hsource, hunique htarget]

theorem mem_dependencies
    {reader writer : RuleInstance} :
    (reader, writer) ∈ dependencies instances ↔
      reader ∈ instances ∧ writer ∈ instances ∧ reader.Reads writer := by
  unfold dependencies RuleInstance.Reads
  simp only [List.mem_flatMap, List.mem_map, List.mem_filter, beq_iff_eq, Prod.mk.injEq]
  constructor
  · rintro ⟨_, hreader, predicate, hpredicate, _, ⟨hwriter, hname⟩, rfl, rfl⟩
    exact ⟨hreader, hwriter, predicate, hpredicate, hname.symm⟩
  · rintro ⟨hreader, hwriter, predicate, hpredicate, hname⟩
    exact ⟨reader, hreader, predicate, hpredicate, writer, ⟨hwriter, hname.symm⟩, rfl, rfl⟩

/-- Adding dependencies of instances that have their nodes adds the edges between these nodes. -/
theorem Numbers.foldl_addDependency
    (h : g.Numbers instances)
    (hg : g.WellFormed)
    (hnodup : instances.Nodup)
    {pairs : List (RuleInstance × RuleInstance)}
    (hpairs : ∀ pair ∈ pairs, pair.1 ∈ instances ∧ pair.2 ∈ instances) :
    let g' := pairs.foldl (fun g pair => (g.addDependency pair.1 (some pair.2)).1) g
    g'.Numbers instances ∧
      ∀ a b, g'.Edge a b ↔
        g.Edge a b ∨
          ∃ pair ∈ pairs, instances[a]? = some pair.1 ∧ instances[b]? = some pair.2 := by
  induction pairs generalizing g with
  | nil => exact ⟨h, fun a b => by simp⟩
  | cons pair rest ih =>
      obtain ⟨hreader, hwriter⟩ := hpairs pair List.mem_cons_self
      obtain ⟨hnumbers, hedge⟩ := h.addDependency hg hnodup hreader hwriter
      have hstep := wellFormed_addDependency hg pair.1 (some pair.2)
      obtain ⟨hnumbers', hedge'⟩ :=
        ih hnumbers hstep fun other hother => hpairs other (List.mem_cons_of_mem _ hother)
      refine ⟨hnumbers', fun a b => ?_⟩
      rw [List.foldl_cons, hedge', hedge, or_assoc, List.exists_mem_cons_iff]

end Joining

/-- The nodes of the graph of a list of rules are the positions of the list. -/
theorem numbers_ofRules (rules : List Rule) :
    (ofRules rules).Numbers (RuleInstance.ofRules rules) := by
  have hnodup := RuleInstance.nodup_ofRules rules
  obtain ⟨hg, hnumbers, _⟩ := numbers_isolatedNodes hnodup
  exact (hnumbers.foldl_addDependency hg hnodup fun pair hpair =>
    ⟨(mem_dependencies.1 hpair).1, (mem_dependencies.1 hpair).2.1⟩).1

/-- There is an edge from a rule to each one whose head it reads, and no other edge. -/
theorem edge_ofRules_iff
    {a b : Nat} :
    (ofRules rules).Edge a b ↔
      ∃ reader writer,
        (RuleInstance.ofRules rules)[a]? = some reader ∧
        (RuleInstance.ofRules rules)[b]? = some writer ∧
        reader.Reads writer := by
  have hnodup := RuleInstance.nodup_ofRules rules
  obtain ⟨hg, hnumbers, hnone⟩ := numbers_isolatedNodes hnodup
  have hedge := (hnumbers.foldl_addDependency hg hnodup fun pair hpair =>
    ⟨(mem_dependencies.1 hpair).1, (mem_dependencies.1 hpair).2.1⟩).2 a b
  refine hedge.trans ?_
  constructor
  · rintro (h | ⟨⟨reader, writer⟩, hpair, ha, hb⟩)
    · exact absurd h (hnone a b)
    · exact ⟨reader, writer, ha, hb, (mem_dependencies.1 hpair).2.2⟩
  · rintro ⟨reader, writer, ha, hb, hreads⟩
    refine Or.inr ⟨(reader, writer), ?_, ha, hb⟩
    exact mem_dependencies.2 ⟨List.mem_of_getElem? ha, List.mem_of_getElem? hb, hreads⟩

section Reading

/-- Each rule has an edge to every rule of the graph whose head it reads. -/
def ShowsReads (g : DependencyGraph) : Prop :=
  ∀ a b node node',
    g.node? a = some node → g.node? b = some node' → node.rule.Reads node'.rule → g.Edge a b

theorem showsReads_ofRules (rules : List Rule) :
    (ofRules rules).ShowsReads := by
  intro a b node node' ha hb hreads
  have hnumbers := numbers_ofRules rules
  exact edge_ofRules_iff.2
    ⟨node.rule, node'.rule, hnumbers.getElem?_of_node? ha, hnumbers.getElem?_of_node? hb, hreads⟩

/-- A node of a subgraph wraps the instance that the node of the whole graph wraps. -/
theorem exists_node_of_subgraph
    {members : OrderedSet Nat} {id : Nat} {node : Node}
    (h : (g.subgraph members).node? id = some node) :
    id ∈ members ∧ ∃ node₀, g.node? id = some node₀ ∧ node.rule = node₀.rule := by
  rw [node?_subgraph] at h
  split at h
  · rename_i hid
    obtain ⟨node₀, hnode₀, rfl⟩ := Option.map_eq_some_iff.1 h
    exact ⟨hid, node₀, hnode₀, rfl⟩
  · cases h

theorem ShowsReads.subgraph
    (h : g.ShowsReads)
    (members : OrderedSet Nat) :
    (g.subgraph members).ShowsReads := by
  intro a b node node' ha hb hreads
  obtain ⟨hmema, node₀, ha₀, heq⟩ := exists_node_of_subgraph ha
  obtain ⟨hmemb, node₀', hb₀, heq'⟩ := exists_node_of_subgraph hb
  rw [heq, heq'] at hreads
  exact edge_subgraph.2 ⟨hmema, hmemb, h a b node₀ node₀' ha₀ hb₀ hreads⟩

/-- The rules at the nodes of a graph, in the order of the ids. -/
def memberRules (g : DependencyGraph) : List Rule :=
  g.nodes.values.map fun node => node.rule.rule

theorem mem_memberRules
    {rule : Rule} :
    rule ∈ g.memberRules ↔ ∃ id node, g.node? id = some node ∧ node.rule.rule = rule := by
  unfold memberRules
  rw [List.mem_map]
  constructor
  · rintro ⟨node, hnode, rfl⟩
    obtain ⟨id, hid⟩ := OrderedMap.mem_values_iff.1 hnode
    exact ⟨id, node, hid, rfl⟩
  · rintro ⟨id, node, hid, rfl⟩
    exact ⟨node, OrderedMap.mem_values_iff.2 ⟨id, hid⟩, rfl⟩

theorem mem_memberRules_subgraph
    {members : OrderedSet Nat} {rule : Rule} :
    rule ∈ (g.subgraph members).memberRules ↔
      ∃ id node, id ∈ members ∧ g.node? id = some node ∧ node.rule.rule = rule := by
  rw [mem_memberRules]
  constructor
  · rintro ⟨id, node, hnode, rfl⟩
    obtain ⟨hid, node₀, hnode₀, heq⟩ := exists_node_of_subgraph hnode
    exact ⟨id, node₀, hid, hnode₀, by rw [heq]⟩
  · rintro ⟨id, node, hid, hnode, rfl⟩
    refine ⟨id, memberNode members id node, ?_, rfl⟩
    rw [node?_subgraph, if_pos hid, hnode]
    rfl

/-- The id of each node is the position of its rule in a list. -/
def Positions (g : DependencyGraph) (rules : List Rule) : Prop :=
  ∀ id node, g.node? id = some node → rules[id]? = some node.rule.rule

theorem positions_ofRules (rules : List Rule) :
    (ofRules rules).Positions rules := by
  intro id node hnode
  have hget := (numbers_ofRules rules).getElem?_of_node? hnode
  rw [RuleInstance.getElem?_ofRules, Option.map_eq_some_iff] at hget
  obtain ⟨rule, hrule, heq⟩ := hget
  rw [hrule, ← heq]

theorem Positions.subgraph
    (h : g.Positions rules)
    (members : OrderedSet Nat) :
    (g.subgraph members).Positions rules := by
  intro id node hnode
  obtain ⟨_, node₀, hnode₀, heq⟩ := exists_node_of_subgraph hnode
  rw [heq]
  exact h id node₀ hnode₀

/-- The rules at the nodes can be read off the ids. -/
theorem Positions.memberRules_eq
    (h : g.Positions rules) :
    g.memberRules = g.ids.filterMap fun id => rules[id]? := by
  have hentry (entry : Nat × Node) (hmem : entry ∈ g.nodes.entries) :
      rules[entry.1]? = some entry.2.rule.rule :=
    h entry.1 entry.2 (OrderedMap.get?_eq_some_iff.2 hmem)
  unfold memberRules ids OrderedMap.values OrderedMap.keys
  rw [List.map_map, List.filterMap_map]
  refine Eq.trans ?_ (List.filterMap_congr hentry).symm
  rw [List.filterMap_eq_map']
  rfl

theorem mem_memberRules_ofRules
    {rule : Rule} :
    rule ∈ (ofRules rules).memberRules ↔ rule ∈ rules := by
  have hnumbers := numbers_ofRules rules
  rw [mem_memberRules, List.mem_iff_getElem?]
  constructor
  · rintro ⟨id, node, hnode, rfl⟩
    exact ⟨id, positions_ofRules rules id node hnode⟩
  · rintro ⟨id, hrule⟩
    have hget : (RuleInstance.ofRules rules)[id]? = some ⟨id, rule⟩ := by
      rw [RuleInstance.getElem?_ofRules, hrule]
      rfl
    obtain ⟨node, hnode, heq⟩ := hnumbers.exists_node hget
    exact ⟨id, node, hnode, by rw [heq]⟩

end Reading

section ByPosition

theorem Numbers.ids_eq
    (h : g.Numbers instances) :
    g.ids = List.range instances.length := by
  have hascending : (List.range instances.length).Pairwise (fun a b => compare a b = .lt) :=
    List.pairwise_lt_range.imp Nat.compare_eq_lt.2
  have hkeys : g.nodes.keySet = ⟨List.range instances.length, hascending⟩ := by
    refine OrderedSet.ext_mem fun id => ?_
    rw [mem_keySet, h.contains_iff]
    exact List.mem_range.symm
  exact congrArg OrderedSet.toList hkeys

theorem ids_ofRules (rules : List Rule) :
    (ofRules rules).ids = List.range rules.length := by
  rw [(numbers_ofRules rules).ids_eq, RuleInstance.ofRules, List.length_map, List.length_zipIdx]

/-- The edges of the graph, in terms of the rules at the positions. -/
theorem hasEdge_ofRules_iff
    {i j : Nat} :
    (ofRules rules).hasEdge i j = true ↔
      ∃ reader writer, rules[i]? = some reader ∧ rules[j]? = some writer ∧
        ∃ predicate ∈ reader.body, predicate.name = writer.head.name := by
  refine edge_ofRules_iff.trans ?_
  simp only [RuleInstance.getElem?_ofRules, Option.map_eq_some_iff]
  constructor
  · rintro ⟨_, _, ⟨reader, hreader, rfl⟩, ⟨writer, hwriter, rfl⟩, hreads⟩
    exact ⟨reader, writer, hreader, hwriter, hreads⟩
  · rintro ⟨reader, writer, hreader, hwriter, hreads⟩
    exact ⟨_, _, ⟨reader, hreader, rfl⟩, ⟨writer, hwriter, rfl⟩, hreads⟩

theorem exists_node_ofRules
    {i : Nat} {rule : Rule}
    (h : rules[i]? = some rule) :
    ∃ node, (ofRules rules).node? i = some node ∧ node.id = i ∧ node.rule = ⟨i, rule⟩ := by
  have hget : (RuleInstance.ofRules rules)[i]? = some ⟨i, rule⟩ := by
    rw [RuleInstance.getElem?_ofRules, h]
    rfl
  obtain ⟨node, hnode, hrule⟩ := (numbers_ofRules rules).exists_node hget
  exact ⟨node, hnode, (wellFormed_ofRules rules).id_eq i node hnode, hrule⟩

/-- An edge carries the instance at the position where it ends. -/
theorem get?_adjacency_ofRules
    {i j : Nat} {node : Node} {target : RuleInstance}
    (hnode : (ofRules rules).node? i = some node) :
    node.adjacency.get? j = some target ↔
      (ofRules rules).hasEdge i j = true ∧
        ∃ writer, rules[j]? = some writer ∧ target = ⟨j, writer⟩ := by
  constructor
  · intro hget
    obtain ⟨node', hnode', rfl⟩ :=
      (wellFormed_ofRules rules).target_node i node j target hnode hget
    have hwriter := (numbers_ofRules rules).getElem?_of_node? hnode'
    rw [RuleInstance.getElem?_ofRules, Option.map_eq_some_iff] at hwriter
    obtain ⟨writer, hwriter, heq⟩ := hwriter
    exact ⟨edge_iff.2 ⟨node, node'.rule, hnode, hget⟩, writer, hwriter, heq.symm⟩
  · rintro ⟨hedge, writer, hwriter, rfl⟩
    obtain ⟨node', target, hnode', hget⟩ := edge_iff.1 hedge
    obtain rfl := Option.some.inj (hnode.symm.trans hnode')
    obtain ⟨found, hfound, rfl⟩ :=
      (wellFormed_ofRules rules).target_node i node j target hnode hget
    obtain ⟨found', hfound', _, hrule⟩ := exists_node_ofRules hwriter
    obtain rfl := Option.some.inj (hfound.symm.trans hfound')
    rw [hget, hrule]

end ByPosition

/-- The ids of the graph of a list of rules are the positions of the list, also where rules are
equal.  The node at a position wraps the instance at this position, and it has an edge to each
position whose rule derives a relation that a predicate of its body names, and no other edge. -/
theorem ofRules_by_position (rules : List Rule) :
    (ofRules rules).ids = List.range rules.length ∧
    (∀ i rule, rules[i]? = some rule →
      ∃ node, (ofRules rules).node? i = some node ∧ node.id = i ∧ node.rule = ⟨i, rule⟩ ∧
        ∀ j target, node.adjacency.get? j = some target ↔
          (ofRules rules).hasEdge i j = true ∧
            ∃ writer, rules[j]? = some writer ∧ target = ⟨j, writer⟩) ∧
    (∀ i j, (ofRules rules).hasEdge i j = true ↔
      ∃ reader writer, rules[i]? = some reader ∧ rules[j]? = some writer ∧
        ∃ predicate ∈ reader.body, predicate.name = writer.head.name) ∧
    ∀ i, (ofRules rules).hasEdge i i = true ↔
      ∃ rule, rules[i]? = some rule ∧
        ∃ predicate ∈ rule.body, predicate.name = rule.head.name := by
  refine ⟨ids_ofRules rules, ?nodes, fun _ _ => hasEdge_ofRules_iff, ?loops⟩
  case nodes =>
    intro i rule hrule
    obtain ⟨node, hnode, hid, hwraps⟩ := exists_node_ofRules hrule
    exact ⟨node, hnode, hid, hwraps, fun _ _ => get?_adjacency_ofRules hnode⟩
  case loops =>
    intro i
    rw [hasEdge_ofRules_iff]
    constructor
    · rintro ⟨reader, writer, hreader, hwriter, hreads⟩
      obtain rfl := Option.some.inj (hreader.symm.trans hwriter)
      exact ⟨reader, hreader, hreads⟩
    · rintro ⟨rule, hrule, hreads⟩
      exact ⟨rule, rule, hrule, hrule, hreads⟩

/-- Two rules of the same text that read themselves, and a rule that reads neither of them. -/
def twinRules : List Rule :=
  [⟨⟨"A", ["x"]⟩, [⟨"B", ["x"]⟩, ⟨"A", ["x"]⟩]⟩,
    ⟨⟨"A", ["x"]⟩, [⟨"B", ["x"]⟩, ⟨"A", ["x"]⟩]⟩,
    ⟨⟨"B", ["x"]⟩, [⟨"C", ["x"]⟩, ⟨"C", ["x"]⟩]⟩]

/-- The second of the twins has a node of its own, with edges to both twins and to the third
rule. -/
theorem ofRules_by_position_twins :
    (List.range 3).map (ofRules twinRules).successors = [[0, 1, 2], [0, 1, 2], []] ∧
    (ofRules twinRules).ids = List.range twinRules.length ∧
    twinRules[1]? = twinRules[0]? ∧
    ∃ node, (ofRules twinRules).node? 1 = some node ∧ node.id = 1 ∧
      node.rule = ⟨1, twinRules.head (by decide)⟩ ∧
      ∀ j target, node.adjacency.get? j = some target ↔
        (ofRules twinRules).hasEdge 1 j = true ∧
          ∃ writer, twinRules[j]? = some writer ∧ target = ⟨j, writer⟩ :=
  ⟨by cbv, (ofRules_by_position twinRules).1, rfl,
    (ofRules_by_position twinRules).2.1 1 (twinRules.head (by decide)) rfl⟩

end DependencyGraph

end RuleGraph

end Datalog
