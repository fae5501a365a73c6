import Datalog.Proofs.Graph.DepthFirst
import Datalog.Proofs.Graph.SameShape
import Mathlib.Data.List.Sort
import Mathlib.Order.Bounds.Basic

/-!
# Postorder numbers as finish numbers

**Search.** `DepthFirst` is the recursive depth-first search as a relation: an unvisited node is
visited, its successors are searched in ascending order, and then it finishes.  `DepthFirstForest`
starts such a search from the lowest unvisited node until no node is left.  Both read a relation
only: there is no stack, no marked node and no number in them.

**Numbers.** `SameButNumbers` is said of graphs that differ at most in the numbers written into
their nodes.

**Results.** A depth-first forest has one finish order, and that of a dependency graph is its
postorder.  Numbering a graph writes the positions in this order into its nodes, whatever was
written there before, and sorting the nodes by their numbers gives the order back.
-/

namespace Datalog

section FinishNumbers

section Search

/-- A depth-first search along `edge` from pending nodes, in their order: the nodes that are
unvisited before and after it, and the nodes that it finishes, the first one first. -/
inductive DepthFirst (edge : Nat → Nat → Prop) :
    Set Nat → List Nat → Set Nat → List Nat → Prop
  | done {unvisited : Set Nat} : DepthFirst edge unvisited [] unvisited []
  | skip {unvisited unvisited' : Set Nat} {id : Nat} {rest order : List Nat} :
      id ∉ unvisited →
      DepthFirst edge unvisited rest unvisited' order →
      DepthFirst edge unvisited (id :: rest) unvisited' order
  | visit {unvisited middle unvisited' : Set Nat} {id : Nat}
      {successors rest below beside : List Nat} :
      id ∈ unvisited →
      successors.Pairwise (· < ·) →
      (∀ target, target ∈ successors ↔ edge id target) →
      DepthFirst edge (unvisited \ {id}) successors middle below →
      DepthFirst edge middle rest unvisited' beside →
      DepthFirst edge unvisited (id :: rest) unvisited' (below ++ id :: beside)

/-- A depth-first forest on unvisited nodes, each tree of which starts from the lowest node that is
left, with the nodes in the order in which they finish. -/
inductive DepthFirstForest (edge : Nat → Nat → Prop) : Set Nat → List Nat → Prop
  | done : DepthFirstForest edge ∅ []
  | tree {unvisited unvisited' : Set Nat} {root : Nat} {order others : List Nat} :
      IsLeast unvisited root →
      DepthFirst edge unvisited [root] unvisited' order →
      DepthFirstForest edge unvisited' others →
      DepthFirstForest edge unvisited (order ++ others)

variable {edge : Nat → Nat → Prop} {unvisited unvisited' : Set Nat} {pending order : List Nat}

theorem DepthFirst.subset
    (h : DepthFirst edge unvisited pending unvisited' order) :
    unvisited' ⊆ unvisited := by
  induction h with
  | done => exact Set.Subset.rfl
  | skip _ _ ih => exact ih
  | visit _ _ _ _ _ ihBelow ihBeside =>
      exact ihBeside.trans (ihBelow.trans Set.sdiff_subset)

/-- A depth-first search has no choices. -/
theorem DepthFirst.unique
    {unvisited'' : Set Nat} {order' : List Nat}
    (h : DepthFirst edge unvisited pending unvisited' order)
    (h' : DepthFirst edge unvisited pending unvisited'' order') :
    unvisited' = unvisited'' ∧ order = order' := by
  induction h generalizing unvisited'' order' with
  | done =>
      cases h'
      exact ⟨rfl, rfl⟩
  | skip hid _ ih =>
      cases h' with
      | skip _ hrest => exact ih hrest
      | visit hmem => exact absurd hmem hid
  | visit hmem hascending hsuccessors _ _ ihBelow ihBeside =>
      cases h' with
      | skip hid => exact absurd hmem hid
      | visit _ hascending' hsuccessors' hbelow hbeside =>
          obtain rfl := hascending.eq_of_mem_iff hascending' fun target =>
            (hsuccessors target).trans (hsuccessors' target).symm
          obtain ⟨rfl, rfl⟩ := ihBelow hbelow
          obtain ⟨rfl, rfl⟩ := ihBeside hbeside
          exact ⟨rfl, rfl⟩

theorem DepthFirstForest.unique
    {order' : List Nat}
    (h : DepthFirstForest edge unvisited order)
    (h' : DepthFirstForest edge unvisited order') :
    order = order' := by
  induction h generalizing order' with
  | done =>
      cases h' with
      | done => rfl
      | tree hroot => exact absurd hroot.1 (Set.notMem_empty _)
  | tree hroot hsearch _ ih =>
      cases h' with
      | done => exact absurd hroot.1 (Set.notMem_empty _)
      | tree hroot' hsearch' hothers =>
          obtain rfl := hroot.unique hroot'
          obtain ⟨rfl, rfl⟩ := hsearch.unique hsearch'
          rw [ih hothers]

/-- Searching from all nodes in ascending order grows a forest: a node that is visited in its turn
is the lowest one left. -/
theorem DepthFirst.forest
    (h : DepthFirst edge unvisited pending unvisited' order)
    (hascending : pending.Pairwise (· < ·))
    (hall : ∀ x ∈ unvisited, x ∈ pending) :
    DepthFirstForest edge unvisited order := by
  induction pending generalizing unvisited order with
  | nil =>
      obtain rfl : unvisited = ∅ :=
        Set.eq_empty_of_forall_notMem fun x hx => List.not_mem_nil (hall x hx)
      cases h
      exact DepthFirstForest.done
  | cons id rest ih =>
      obtain ⟨hlowest, hrest⟩ := List.pairwise_cons.1 hascending
      cases h with
      | skip hid hothers =>
          refine ih hothers hrest fun x hx => (List.mem_cons.1 (hall x hx)).resolve_left ?_
          rintro rfl
          exact hid hx
      | @visit _ middle _ _ _ _ below beside hmem hsorted hsuccessors hbelow hbeside =>
          have hroot : IsLeast unvisited id := by
            refine ⟨hmem, fun x hx => ?_⟩
            rcases List.mem_cons.1 (hall x hx) with rfl | hx
            · exact Nat.le_refl _
            · exact Nat.le_of_lt (hlowest x hx)
          have htree : DepthFirst edge unvisited [id] middle (below ++ [id]) :=
            DepthFirst.visit hmem hsorted hsuccessors hbelow DepthFirst.done
          have hleft (x : Nat) (hx : x ∈ middle) : x ∈ rest := by
            obtain ⟨hold, hne⟩ := hbelow.subset hx
            exact (List.mem_cons.1 (hall x hold)).resolve_left hne
          rw [List.append_cons]
          exact DepthFirstForest.tree hroot htree (ih hbeside hrest hleft)

theorem FinishOrdered.nodup
    {l : List Nat}
    (h : FinishOrdered edge l) :
    l.Nodup := by
  induction h with
  | nil => exact List.nodup_nil
  | cons _ hid _ _ ih => exact List.nodup_cons.2 ⟨hid, ih⟩

end Search

/-- A node without its number. -/
def Node.unnumbered (node : Node) : Node :=
  { node with postorder := none }

@[simp] theorem Node.adjacency_unnumbered (node : Node) :
    node.unnumbered.adjacency = node.adjacency :=
  rfl

namespace DependencyGraph

variable {g g' : DependencyGraph}

section Order

theorem pairwise_ids (g : DependencyGraph) :
    g.ids.Pairwise (· < ·) :=
  g.nodes.keySet.ascending.imp Nat.compare_eq_lt.1

theorem pairwise_successors (g : DependencyGraph) (id : Nat) :
    (g.successors id).Pairwise (· < ·) := by
  rw [successors_eq_filter]
  exact g.pairwise_ids.filter _

/-- The search of a graph is a depth-first search along its edges. -/
theorem exists_depthFirst
    (hg : g.WellFormed)
    (unvisited : OrderedSet Nat) (finished pending : List Nat) :
    ∃ order,
      DepthFirst g.Edge {x | x ∈ unvisited} pending
        {x | x ∈ (g.search unvisited finished pending).1} order ∧
      (g.search unvisited finished pending).2 = order.reverse ++ finished := by
  induction unvisited, finished, pending using search_induction g with
  | nil unvisited finished =>
      rw [search_nil]
      exact ⟨[], DepthFirst.done, rfl⟩
  | skip unvisited finished id rest hmem ih =>
      obtain ⟨order, hrest, hfinished⟩ := ih
      rw [search_cons_of_not_mem g unvisited finished rest hmem]
      exact ⟨order, DepthFirst.skip hmem hrest, hfinished⟩
  | visit unvisited finished id rest hmem ihBelow ihBeside =>
      obtain ⟨below, hbelow, hfinished⟩ := ihBelow
      obtain ⟨beside, hbeside, hfinished'⟩ := ihBeside
      have herase : {x | x ∈ unvisited.erase id} = {x | x ∈ unvisited} \ {id} :=
        Set.ext fun _ => OrderedSet.mem_erase
      rw [herase] at hbelow
      rw [search_cons_of_mem g unvisited finished rest hmem]
      refine ⟨below ++ id :: beside, ?_, ?_⟩
      · exact DepthFirst.visit hmem (g.pairwise_successors id) (fun _ => mem_successors hg)
          hbelow hbeside
      · rw [hfinished', hfinished]
        simp

/-- The postorder is the finish order of the depth-first forest on the nodes. -/
theorem depthFirstForest_iff
    (hg : g.WellFormed)
    {order : List Nat} :
    DepthFirstForest g.Edge {id | g.contains id = true} order ↔ order = g.postorder := by
  have hpostorder : DepthFirstForest g.Edge {id | g.contains id = true} g.postorder := by
    obtain ⟨order, hsearch, hfinished⟩ := exists_depthFirst hg g.nodes.keySet [] g.ids
    have hnodes : {id | id ∈ g.nodes.keySet} = {id | g.contains id = true} :=
      Set.ext fun _ => mem_keySet
    rw [postorder_eq_search hg, hfinished, List.append_nil, List.reverse_reverse, ← hnodes]
    exact hsearch.forest g.pairwise_ids fun _ hid => hid
  constructor
  · exact fun h => h.unique hpostorder
  · rintro rfl
    exact hpostorder

theorem nodup_postorder
    (hg : g.WellFormed) :
    g.postorder.Nodup :=
  List.nodup_reverse.1 (finishOrdered_postorder hg).nodup

theorem perm_postorder
    (hg : g.WellFormed) :
    g.postorder.Perm g.ids :=
  (List.perm_ext_iff_of_nodup (nodup_postorder hg) g.nodup_ids).2 fun _ =>
    (mem_postorder hg).trans mem_ids.symm

theorem length_postorder
    (hg : g.WellFormed) :
    g.postorder.length = g.size := by
  rw [(perm_postorder hg).length_eq, size_eq_length_ids]

end Order

section Numbers

/-- The number that is written into the node with an id. -/
def number? (g : DependencyGraph) (id : Nat) : Option Nat :=
  (g.node? id).bind Node.postorder

/-- The ids of the nodes, sorted by the numbers that are written into the nodes. -/
def byNumber (g : DependencyGraph) : List Nat :=
  (g.nodes.values.mergeSort fun a b => (compare a.postorder b.postorder).isLE).map Node.id

/-- The graphs differ at most in the numbers that are written into their nodes. -/
def SameButNumbers (g g' : DependencyGraph) : Prop :=
  ∀ id, (g.node? id).map Node.unnumbered = (g'.node? id).map Node.unnumbered

theorem sameButNumbers_numbered (g : DependencyGraph) :
    g.numbered.SameButNumbers g := by
  intro id
  rw [node?_numbered, Option.map_map]
  rfl

theorem SameButNumbers.contains_eq
    (h : g.SameButNumbers g')
    (id : Nat) :
    g.contains id = g'.contains id := by
  have hsome := congrArg Option.isSome (h id)
  rwa [Option.isSome_map, Option.isSome_map] at hsome

theorem SameButNumbers.hasEdge_eq
    (h : g.SameButNumbers g')
    (a b : Nat) :
    g.hasEdge a b = g'.hasEdge a b := by
  have hnode := h a
  unfold hasEdge
  cases ha : g.node? a with
  | none =>
      rw [ha] at hnode
      rw [Option.map_eq_none_iff.1 hnode.symm]
  | some node =>
      rw [ha] at hnode
      obtain ⟨node', hnode', heq⟩ := Option.map_eq_some_iff.1 hnode.symm
      have hadjacency : node'.adjacency = node.adjacency := by
        rw [← node'.adjacency_unnumbered, heq, node.adjacency_unnumbered]
      simp only [hnode', hadjacency]

theorem SameButNumbers.sameShape
    (h : g.SameButNumbers g') :
    g.SameShape g' where
  contains_eq := h.contains_eq
  hasEdge_eq := h.hasEdge_eq

/-- Numbering does not depend on the numbers of an earlier one. -/
theorem SameButNumbers.numbered_eq
    (h : g.SameButNumbers g') :
    g.numbered = g'.numbered := by
  have hwritten (g : DependencyGraph) (id : Nat) :
      g.numbered.node? id =
        ((g.node? id).map Node.unnumbered).map (g.numberedNode id) := by
    rw [node?_numbered, Option.map_map]
    rfl
  have hnumbered : g.numberedNode = g'.numberedNode := by
    unfold numberedNode
    rw [h.sameShape.postorder_eq]
  refine congrArg DependencyGraph.mk (OrderedMap.ext_get? fun id => ?_)
  have hnode := hwritten g id
  rw [h id, hnumbered] at hnode
  exact hnode.trans (hwritten g' id).symm

theorem perm_byNumber
    (hg : g.WellFormed) :
    g.byNumber.Perm g.ids := by
  have hids : g.nodes.values.map Node.id = g.ids := by
    unfold OrderedMap.values ids OrderedMap.keys
    rw [List.map_map]
    exact List.map_congr_left fun entry hentry =>
      hg.id_eq entry.1 entry.2 (OrderedMap.get?_eq_some_iff.2 hentry)
  rw [← hids]
  exact (List.mergeSort_perm _ _).map Node.id

theorem pairwise_byNumber
    (hg : g.WellFormed) :
    g.byNumber.Pairwise fun a b => (compare (g.number? a) (g.number? b)).isLE = true := by
  have hnumber (node : Node) (h : node ∈ g.nodes.values) : g.number? node.id = node.postorder := by
    obtain ⟨id, hnode⟩ := OrderedMap.mem_values_iff.1 h
    rw [number?, hg.id_eq id node hnode]
    exact congrArg (Option.bind · Node.postorder) hnode
  have hsorted := List.pairwise_mergeSort
    (fun a b c : Node => Std.TransCmp.isLE_trans)
    (fun a b : Node => OrderedSet.isLE_total a.postorder b.postorder) g.nodes.values
  refine List.pairwise_map.2 (hsorted.imp_of_mem fun ha hb hle => ?_)
  rw [hnumber _ (List.mem_mergeSort.1 ha), hnumber _ (List.mem_mergeSort.1 hb)]
  exact hle

/-- The nodes get the numbers of their positions in the postorder, starting at one. -/
theorem number?_numbered_iff
    (hg : g.WellFormed)
    {id n : Nat} :
    g.numbered.number? id = some n ↔
      ∃ position, g.postorder[position]? = some id ∧ n = position + 1 := by
  have hidx :
      g.numbered.number? id = some n ↔ (g.postorder.idxOf? id).map (· + 1) = some n := by
    unfold number?
    rw [node?_numbered]
    cases hnode : g.node? id with
    | some node => exact Iff.rfl
    | none =>
        have hid : id ∉ g.postorder := by
          rw [mem_postorder hg, contains_iff, hnode]
          simp
        rw [List.idxOf?_eq_none_iff.2 hid]
        exact Iff.rfl
  rw [hidx, Option.map_eq_some_iff]
  refine exists_congr fun position => and_congr ?_ eq_comm
  rw [List.idxOf?_eq_some_iff, List.getElem?_eq_some_iff]
  refine exists_congr fun hposition => and_iff_left_of_imp ?_
  rintro rfl j hj heq
  exact hj.ne ((nodup_postorder hg).getElem_inj_iff.1 heq)

theorem number?_getElem_postorder
    (hg : g.WellFormed)
    {position : Nat}
    (h : position < g.postorder.length) :
    g.numbered.number? g.postorder[position] = some (position + 1) :=
  (number?_numbered_iff hg).2 ⟨position, List.getElem?_eq_getElem h, rfl⟩

/-- Every node gets one of the numbers. -/
theorem exists_number
    (hg : g.WellFormed)
    {id : Nat}
    (h : g.contains id = true) :
    ∃ n, 1 ≤ n ∧ n ≤ g.size ∧ g.numbered.number? id = some n := by
  obtain ⟨position, hposition, rfl⟩ := List.getElem_of_mem ((mem_postorder hg).2 h)
  refine ⟨position + 1, Nat.succ_pos position, ?_, number?_getElem_postorder hg hposition⟩
  rw [← length_postorder hg]
  exact hposition

/-- No two nodes share a number. -/
theorem number?_injective
    (hg : g.WellFormed)
    {id id' n : Nat}
    (h : g.numbered.number? id = some n)
    (h' : g.numbered.number? id' = some n) :
    id = id' := by
  obtain ⟨position, hposition, rfl⟩ := (number?_numbered_iff hg).1 h
  obtain ⟨position', hposition', heq⟩ := (number?_numbered_iff hg).1 h'
  obtain rfl := Nat.succ.inj heq
  exact Option.some.inj (hposition.symm.trans hposition')

/-- Every number belongs to one node. -/
theorem existsUnique_number
    (hg : g.WellFormed)
    {n : Nat}
    (hpos : 1 ≤ n)
    (hle : n ≤ g.size) :
    ∃! id, g.numbered.number? id = some n := by
  obtain ⟨position, rfl⟩ := Nat.exists_eq_add_of_le' hpos
  have hposition : position < g.postorder.length := by
    rw [length_postorder hg]
    exact hle
  have hnumber := number?_getElem_postorder hg hposition
  exact ⟨g.postorder[position], hnumber, fun id h => number?_injective hg h hnumber⟩

/-- Sorting the numbered nodes by their numbers lists their ids as the postorder does. -/
theorem byNumber_numbered
    (hg : g.WellFormed) :
    g.numbered.byNumber = g.postorder := by
  have hnumbered := wellFormed_numbered hg
  have hperm : g.numbered.byNumber.Perm g.postorder := by
    refine (perm_byNumber hnumbered).trans ?_
    rw [(sameButNumbers_numbered g).sameShape.ids_eq]
    exact (perm_postorder hg).symm
  have hascending : g.postorder.Pairwise fun a b =>
      (compare (g.numbered.number? a) (g.numbered.number? b)).isLE = true := by
    refine List.pairwise_iff_getElem.2 fun i j hi hj hlt => ?_
    rw [number?_getElem_postorder hg hi, number?_getElem_postorder hg hj]
    exact Nat.isLE_compare.2 (Nat.succ_le_succ hlt.le)
  refine hperm.eq_of_pairwise ?_ (pairwise_byNumber hnumbered) hascending
  intro a b ha _ hab hba
  obtain ⟨n, _, _, hn⟩ := exists_number hg ((mem_postorder hg).1 (hperm.mem_iff.1 ha))
  have heq := Std.LawfulEqCmp.eq_of_compare (Std.OrientedCmp.isLE_antisymm hab hba)
  exact number?_injective hg hn (heq.symm.trans hn)

end Numbers

section Numbering

/-- The nodes of `g` carry in `g'` the finish numbers of its depth-first forest. -/
structure CarriesFinishNumbers (g g' : DependencyGraph) (order : List Nat) : Prop where
  forest_iff : ∀ l, DepthFirstForest g.Edge {id | g.contains id = true} l ↔ l = order
  kept : g'.SameButNumbers g
  number_iff : ∀ id n,
    g'.number? id = some n ↔ ∃ position, order[position]? = some id ∧ n = position + 1
  exists_number : ∀ id, g.contains id = true →
    ∃ n, 1 ≤ n ∧ n ≤ g.size ∧ g'.number? id = some n
  existsUnique_id : ∀ n, 1 ≤ n → n ≤ g.size → ∃! id, g'.number? id = some n
  byNumber_eq : g'.byNumber = order

/-- On every graph that is built, numbering writes the finish numbers of the depth-first forest,
over any numbers that a graph with the same nodes and edges carries; by ascending numbers the ids
are the postorder. -/
theorem finishNumbers_of_built
    (g : DependencyGraph)
    (hg : g.Built) :
    g.CarriesFinishNumbers g.numbered g.postorder ∧
      ∀ earlier : DependencyGraph, earlier.SameButNumbers g → earlier.numbered = g.numbered := by
  have hwellFormed := hg.wellFormed
  refine ⟨?_, fun earlier h => h.numbered_eq⟩
  exact
    { forest_iff := fun _ => depthFirstForest_iff hwellFormed
      kept := sameButNumbers_numbered g
      number_iff := fun _ _ => number?_numbered_iff hwellFormed
      exists_number := fun _ h => exists_number hwellFormed h
      existsUnique_id := fun _ hpos hle => existsUnique_number hwellFormed hpos hle
      byNumber_eq := byNumber_numbered hwellFormed }

/-- Four rules with a cycle, a self-loop and a node that two others lead to, numbered before the
second one got an edge to the third one. -/
def regrownGraph : DependencyGraph :=
  let b : Rule := ⟨⟨"B", ["x"]⟩, [⟨"D", ["x"]⟩]⟩
  let c : Rule := ⟨⟨"C", ["x"]⟩, [⟨"C", ["x"]⟩, ⟨"D", ["x"]⟩]⟩
  let rules : List Rule :=
    [⟨⟨"A", ["x"]⟩, [b.head, c.head]⟩, b, c, ⟨⟨"D", ["x"]⟩, [⟨"A", ["x"]⟩]⟩]
  ((ofRules rules).numbered.addDependency ⟨1, b⟩ (some ⟨2, c⟩)).1

/-- The second and the third rule change places when the graph is numbered again. -/
theorem finishNumbers_of_regrownGraph :
    regrownGraph.Built ∧ regrownGraph.byNumber = [3, 1, 2, 0] ∧
      regrownGraph.postorder = [3, 2, 1, 0] ∧
      regrownGraph.CarriesFinishNumbers regrownGraph.numbered regrownGraph.postorder ∧
      ∀ earlier : DependencyGraph,
        earlier.SameButNumbers regrownGraph → earlier.numbered = regrownGraph.numbered := by
  have hbuilt : regrownGraph.Built :=
    Built.addDependency _ _ (Built.numbered (Built.ofRules _))
  exact ⟨hbuilt, by cbv, by cbv, finishNumbers_of_built regrownGraph hbuilt⟩

end Numbering

end DependencyGraph

end FinishNumbers

end Datalog
