import Datalog.Proofs.Graph.RuleGraph

/-!
# Dependency graphs of the same shape

**Shape.** Two graphs have the same shape if they have the same nodes and the same edges.  The rules
at the nodes do not count.

**Results.** What is computed from the ids and the edges is the same for graphs of one shape: the
text, the postorder, and the components with their order.  The graph of a list of rules has its
shape from the relation names alone, so rules that read and derive relations of the same names give
graphs of the same shape.
-/

namespace Datalog

section SameShape

theorem rel_getElem?_of_forall₂
    {α β : Type} {R : α → β → Prop} {l : List α} {l' : List β}
    (h : List.Forall₂ R l l')
    (i : Nat) :
    Option.Rel R l[i]? l'[i]? := by
  induction h generalizing i with
  | nil => exact Option.Rel.none
  | cons hhead _ ih =>
      cases i with
      | zero => exact Option.Rel.some hhead
      | succ i => exact ih i

/-- Two rules derive a relation of the same name and read relations of the same names. -/
structure Rule.SameNames (rule rule' : Rule) : Prop where
  head : rule.head.name = rule'.head.name
  body : ∀ name, (∃ predicate ∈ rule.body, predicate.name = name) ↔
    ∃ predicate ∈ rule'.body, predicate.name = name

namespace DependencyGraph

/-- The nodes and the edges are the same. -/
structure SameShape (g g' : DependencyGraph) : Prop where
  contains_eq : ∀ id, g.contains id = g'.contains id
  hasEdge_eq : ∀ a b, g.hasEdge a b = g'.hasEdge a b

variable {g g' : DependencyGraph}

section Views

theorem sameShape_of_iff
    (hcontains : ∀ id, g.contains id = true ↔ g'.contains id = true)
    (hedge : ∀ a b, g.Edge a b ↔ g'.Edge a b) :
    g.SameShape g' where
  contains_eq id := Bool.eq_iff_iff.2 (hcontains id)
  hasEdge_eq a b := Bool.eq_iff_iff.2 (hedge a b)

theorem SameShape.edge_iff
    (h : g.SameShape g')
    {a b : Nat} :
    g.Edge a b ↔ g'.Edge a b := by
  unfold Edge
  rw [h.hasEdge_eq]

theorem SameShape.keySet_eq
    (h : g.SameShape g') :
    g.nodes.keySet = g'.nodes.keySet := by
  refine OrderedSet.ext_mem fun id => ?_
  rw [mem_keySet, mem_keySet, h.contains_eq]

theorem SameShape.ids_eq
    (h : g.SameShape g') :
    g.ids = g'.ids :=
  congrArg OrderedSet.toList h.keySet_eq

theorem SameShape.isRecursive_eq
    (h : g.SameShape g') :
    g.isRecursive = g'.isRecursive := by
  unfold isRecursive
  rw [size_eq_length_ids, size_eq_length_ids, h.ids_eq]
  simp only [h.hasEdge_eq]

/-- The successors of a node are the nodes at the ends of its edges, ascending. -/
theorem successors_eq_filter (g : DependencyGraph) (id : Nat) :
    g.successors id = g.ids.filter (g.hasEdge id) := by
  unfold successors
  split
  · rename_i hnode
    simp [hasEdge, hnode]
  · rename_i node hnode
    have hset :
        node.adjacency.keySet.filter g.contains = g.nodes.keySet.filter (g.hasEdge id) := by
      refine OrderedSet.ext_mem fun target => ?_
      have hedge : target ∈ node.adjacency.keySet ↔ g.hasEdge id target = true :=
        OrderedMap.mem_keySet_iff.trans (edge_iff_of_node? hnode).symm
      rw [OrderedSet.mem_filter, OrderedSet.mem_filter, mem_keySet, hedge]
      exact and_comm
    exact congrArg OrderedSet.toList hset

theorem SameShape.successors_eq
    (h : g.SameShape g') :
    g.successors = g'.successors := by
  funext id
  rw [successors_eq_filter, successors_eq_filter, h.ids_eq]
  exact List.filter_congr fun target _ => h.hasEdge_eq id target

/-- The line of each node, by ascending ids. -/
theorem text_eq
    (hg : g.WellFormed) :
    g.text =
      String.join (g.ids.map fun id => "R" ++ toString id ++ ":" ++ ruleList (g.successors id) ++
        "\n") := by
  have hline (entry : Nat × Node) (hentry : entry ∈ g.nodes.entries) :
      entry.2.id = entry.1 ∧ entry.2.adjacency.keys = g.successors entry.1 := by
    have hnode : g.node? entry.1 = some entry.2 := OrderedMap.get?_eq_some_iff.2 hentry
    refine ⟨hg.id_eq entry.1 entry.2 hnode, ?_⟩
    simp only [successors, hnode]
    refine (List.filter_eq_self.2 fun target htarget => ?_).symm
    have hedge : g.Edge entry.1 target :=
      (edge_iff_of_node? hnode).2 (OrderedMap.mem_keySet_iff.1 htarget)
    exact contains_target hg hedge
  have hids : g.ids = g.nodes.entries.map (·.1) := rfl
  unfold text OrderedMap.values
  rw [hids, List.map_map, List.map_map]
  refine congrArg String.join (List.map_congr_left fun entry hentry => ?_)
  obtain ⟨hid, hkeys⟩ := hline entry hentry
  simp only [Function.comp_apply, hid, hkeys]

theorem SameShape.text_eq
    (h : g.SameShape g')
    (hg : g.WellFormed)
    (hg' : g'.WellFormed) :
    g.text = g'.text := by
  rw [DependencyGraph.text_eq hg, DependencyGraph.text_eq hg', h.ids_eq, h.successors_eq]

end Views

section Derived

theorem SameShape.invert
    (h : g.SameShape g')
    (hg : g.WellFormed)
    (hg' : g'.WellFormed) :
    g.invert.SameShape g'.invert := by
  refine sameShape_of_iff (fun id => ?_) fun a b => ?_
  · rw [contains_invert, contains_invert, h.contains_eq]
  · rw [edge_invert hg, edge_invert hg', h.edge_iff]

theorem SameShape.subgraph
    (h : g.SameShape g')
    (members : OrderedSet Nat) :
    (g.subgraph members).SameShape (g'.subgraph members) := by
  refine sameShape_of_iff (fun id => ?_) fun a b => ?_
  · rw [contains_subgraph, contains_subgraph, h.contains_eq]
  · rw [edge_subgraph, edge_subgraph, h.edge_iff]

end Derived

section Traversal

theorem traverse_congr
    (h : g.successors = g'.successors)
    (unvisited : OrderedSet Nat) (finished stack : List Nat) :
    g.traverse unvisited finished stack = g'.traverse unvisited finished stack := by
  induction unvisited, finished, stack using traverse.induct g with
  | case1 unvisited finished => rw [traverse, traverse]
  | case2 unvisited finished current stack hmem children ih =>
      rw [traverse, traverse, if_pos hmem, if_pos hmem, ← h]
      exact ih
  | case3 unvisited finished current stack hmem hfinished ih =>
      rw [traverse, traverse, if_neg hmem, if_neg hmem, if_pos hfinished, if_pos hfinished]
      exact ih
  | case4 unvisited finished current stack hmem hfinished ih =>
      rw [traverse, traverse, if_neg hmem, if_neg hmem, if_neg hfinished, if_neg hfinished]
      exact ih

theorem SameShape.postorder_eq
    (h : g.SameShape g') :
    g.postorder = g'.postorder := by
  have hstart : g.startFrom = g'.startFrom := by
    funext state id
    unfold startFrom
    rw [traverse_congr h.successors_eq]
  unfold postorder
  rw [hstart, h.ids_eq, h.keySet_eq]

theorem collect_congr
    (h : g.successors = g'.successors)
    (members unclaimed : OrderedSet Nat) (stack : List Nat) :
    g.collect members unclaimed stack = g'.collect members unclaimed stack := by
  induction members, unclaimed, stack using collect.induct g with
  | case1 members unclaimed => rw [collect, collect]
  | case2 members unclaimed current stack targets ih =>
      rw [collect, collect, ← h]
      exact ih

theorem componentsFrom_congr
    (h : g.successors = g'.successors)
    (unclaimed : OrderedSet Nat) (roots : List Nat) :
    g.componentsFrom unclaimed roots = g'.componentsFrom unclaimed roots := by
  induction roots generalizing unclaimed with
  | nil => rfl
  | cons root rest ih =>
      rw [componentsFrom, componentsFrom, collect_congr h]
      split
      · simp only [ih]
      · exact ih unclaimed

theorem SameShape.components_eq
    (h : g.SameShape g')
    (hg : g.WellFormed)
    (hg' : g'.WellFormed) :
    g.components = g'.components := by
  unfold components
  rw [h.keySet_eq, (h.invert hg hg').postorder_eq, componentsFrom_congr h.successors_eq]

/-- The components come in the same order and have the same members. -/
theorem SameShape.componentGraphs
    (h : g.SameShape g')
    (hg : g.WellFormed)
    (hg' : g'.WellFormed) :
    List.Forall₂ (fun c c' => ∃ members, c = g.subgraph members ∧ c' = g'.subgraph members)
      g.componentGraphs g'.componentGraphs := by
  unfold DependencyGraph.componentGraphs
  rw [h.components_eq hg hg', List.forall₂_map_left_iff, List.forall₂_map_right_iff,
    List.forall₂_same]
  exact fun component _ => ⟨component.members, rfl, rfl⟩

theorem postorderListing_eq
    (hg : g.WellFormed) :
    g.postorderListing =
      String.join (g.ids.map fun id => "R" ++ toString id ++ ": " ++
        toString (((g.postorder.idxOf? id).map (· + 1)).getD 0) ++ "\n") := by
  have hvalues : g.numbered.nodes.values =
      g.nodes.entries.map fun entry => g.numberedNode entry.1 entry.2 := by
    simp [numbered, numberedNode, OrderedMap.values, OrderedMap.filterMap]
  unfold postorderListing ids OrderedMap.keys
  rw [hvalues, List.map_map, List.map_map]
  refine congrArg String.join (List.map_congr_left fun entry hentry => ?_)
  have hid : entry.2.id = entry.1 :=
    hg.id_eq entry.1 entry.2 (OrderedMap.get?_eq_some_iff.2 hentry)
  simp only [Function.comp_apply, numberedNode, hid]

theorem SameShape.postorderListing_eq
    (h : g.SameShape g')
    (hg : g.WellFormed)
    (hg' : g'.WellFormed) :
    g.postorderListing = g'.postorderListing := by
  rw [DependencyGraph.postorderListing_eq hg, DependencyGraph.postorderListing_eq hg', h.ids_eq,
    h.postorder_eq]

end Traversal

section Rules

variable {rules rules' : List Rule}

theorem reads_iff
    {i j : Nat} {reader reader' writer writer' : Rule}
    (hreader : reader.SameNames reader')
    (hwriter : writer.SameNames writer') :
    (RuleInstance.mk i reader).Reads ⟨j, writer⟩ ↔
      (RuleInstance.mk i reader').Reads ⟨j, writer'⟩ := by
  unfold RuleInstance.Reads
  rw [hreader.body, hwriter.head]

/-- Rules that read and derive relations of the same names have graphs of the same shape. -/
theorem sameShape_ofRules
    (h : List.Forall₂ Rule.SameNames rules rules') :
    (ofRules rules).SameShape (ofRules rules') := by
  have hedge (a b : Nat) : (ofRules rules).Edge a b ↔ (ofRules rules').Edge a b := by
    rw [edge_ofRules_iff, edge_ofRules_iff]
    simp only [RuleInstance.getElem?_ofRules]
    have ha := rel_getElem?_of_forall₂ h a
    have hb := rel_getElem?_of_forall₂ h b
    generalize rules[a]? = reader, rules'[a]? = reader' at ha ⊢
    generalize rules[b]? = writer, rules'[b]? = writer' at hb ⊢
    cases ha with
    | none => simp
    | some hreader =>
        cases hb with
        | none => simp
        | some hwriter => simp [reads_iff hreader hwriter]
  refine sameShape_of_iff (fun id => ?_) hedge
  rw [(numbers_ofRules rules).contains_iff, (numbers_ofRules rules').contains_iff]
  simp [RuleInstance.ofRules, h.length_eq]

/-- At the nodes of two graphs of the same shape stand the rules of the same positions. -/
theorem SameShape.memberRules
    {R : Rule → Rule → Prop}
    (h : g.SameShape g')
    (hg : g.Positions rules)
    (hg' : g'.Positions rules')
    (hrules : List.Forall₂ R rules rules') :
    List.Forall₂ R g.memberRules g'.memberRules := by
  rw [hg.memberRules_eq, hg'.memberRules_eq, h.ids_eq]
  refine List.rel_filterMap (R := Eq) ?_ (List.forall₂_same.2 fun _ _ => rfl)
  rintro id _ rfl
  exact rel_getElem?_of_forall₂ hrules id

end Rules

end DependencyGraph

end SameShape

end Datalog
