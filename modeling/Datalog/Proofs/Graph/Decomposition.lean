import Datalog.Proofs.Graph.DepthFirst
import Mathlib.Data.List.Pairwise
import Mathlib.Data.List.Permutation
import Mathlib.Logic.ExistsUnique

/-!
# The strongly connected components of a dependency graph

**Collecting.** What is collected from a stack are its nodes and all that they reach along edges
into unclaimed nodes.

**Claiming.** The roots are taken from the last finished node of the reversed graph on.  Until the
end every node with an edge to an unclaimed node is itself unclaimed, so a root collects exactly
its strongly connected component, and no edge leads from it to a node that is claimed later.

**Results.** The component graphs split the graph into its strongly connected components, each
after those that it has edges to; a component is recursive if and only if its nodes lie on cycles.
-/

namespace Datalog

section Decomposition

namespace DependencyGraph

/-- Each of two nodes can be reached from the other. -/
def StronglyConnected (g : DependencyGraph) (a b : Nat) : Prop :=
  g.Reaches a b ∧ g.Reaches b a

theorem StronglyConnected.symm
    {g : DependencyGraph} {a b : Nat}
    (h : g.StronglyConnected a b) :
    g.StronglyConnected b a :=
  ⟨h.2, h.1⟩

theorem StronglyConnected.trans
    {g : DependencyGraph} {a b c : Nat}
    (h : g.StronglyConnected a b)
    (h' : g.StronglyConnected b c) :
    g.StronglyConnected a c :=
  ⟨h.1.trans h'.1, h'.2.trans h.2⟩

/-- An edge that ends in a set. -/
def EdgeInto (g : DependencyGraph) (nodes : OrderedSet Nat) (a b : Nat) : Prop :=
  g.Edge a b ∧ b ∈ nodes

/-- A walk that stays in a set after its first node. -/
abbrev ReachesInto (g : DependencyGraph) (nodes : OrderedSet Nat) : Nat → Nat → Prop :=
  Relation.ReflTransGen (g.EdgeInto nodes)

theorem ReachesInto.mono
    {g : DependencyGraph} {nodes nodes' : OrderedSet Nat} {a b : Nat}
    (hsubset : ∀ x ∈ nodes, x ∈ nodes')
    (h : g.ReachesInto nodes a b) :
    g.ReachesInto nodes' a b :=
  Relation.ReflTransGen.mono (fun _ _ hedge => ⟨hedge.1, hsubset _ hedge.2⟩) _ _ h

theorem ReachesInto.reaches
    {g : DependencyGraph} {nodes : OrderedSet Nat} {a b : Nat}
    (h : g.ReachesInto nodes a b) :
    g.Reaches a b :=
  Relation.ReflTransGen.mono (fun _ _ hedge => hedge.1) _ _ h

section Collecting

variable {g : DependencyGraph}

/-- A walk from the stack starts with the top of the stack alone, or passes by its successors for
the last time, or does not meet them. -/
theorem exists_reachesInto_cons_iff
    (hg : g.WellFormed)
    (unclaimed : OrderedSet Nat) (current : Nat) (stack : List Nat) {x : Nat} :
    (∃ start ∈ current :: stack, g.ReachesInto unclaimed start x) ↔
      x = current ∨
        ∃ start ∈
            (unclaimed.filter fun id => (g.successors current).contains id).toList ++ stack,
          g.ReachesInto
            (unclaimed.filter fun id => !(g.successors current).contains id) start x := by
  constructor
  · rintro ⟨start, hstart, hwalk⟩
    induction hwalk with
    | refl =>
        rcases List.mem_cons.1 hstart with rfl | hstart
        · exact Or.inl rfl
        · exact Or.inr ⟨start, List.mem_append_right _ hstart, Relation.ReflTransGen.refl⟩
    | @tail b c _ hedge ih =>
        by_cases hc : c ∈ g.successors current
        · refine Or.inr ⟨c, List.mem_append_left _ ?_, Relation.ReflTransGen.refl⟩
          exact OrderedSet.mem_filter.2 ⟨hedge.2, List.contains_iff_mem.2 hc⟩
        · rcases ih with rfl | ⟨start', hstart', hwalk'⟩
          · exact absurd ((mem_successors hg).2 hedge.1) hc
          · refine Or.inr ⟨start', hstart', hwalk'.tail ⟨hedge.1, ?_⟩⟩
            exact OrderedSet.mem_filter.2 ⟨hedge.2, by simpa using hc⟩
  · have hsubset (y : Nat)
        (hy : y ∈ unclaimed.filter fun id => !(g.successors current).contains id) :
        y ∈ unclaimed :=
      (OrderedSet.mem_filter.1 hy).1
    rintro (rfl | ⟨start, hstart, hwalk⟩)
    · exact ⟨x, List.mem_cons_self, Relation.ReflTransGen.refl⟩
    · rcases List.mem_append.1 hstart with hstart | hstart
      · obtain ⟨hmem, hnext⟩ := OrderedSet.mem_filter.1 (OrderedSet.mem_toList.1 hstart)
        have hedge : g.Edge current start :=
          (mem_successors hg).1 (List.contains_iff_mem.1 hnext)
        exact ⟨current, List.mem_cons_self,
          Relation.ReflTransGen.head ⟨hedge, hmem⟩ (ReachesInto.mono hsubset hwalk)⟩
      · exact ⟨start, List.mem_cons_of_mem _ hstart, ReachesInto.mono hsubset hwalk⟩

/-- Collecting gathers what the stack reaches through unclaimed nodes. -/
theorem mem_collect
    (hg : g.WellFormed)
    (members unclaimed : OrderedSet Nat) (stack : List Nat) {x : Nat} :
    x ∈ (g.collect members unclaimed stack).1 ↔
      x ∈ members ∨ ∃ start ∈ stack, g.ReachesInto unclaimed start x := by
  induction members, unclaimed, stack using collect.induct g with
  | case1 members unclaimed =>
      rw [collect]
      simp
  | case2 members unclaimed current stack targets ih =>
      rw [collect, ih, OrderedSet.mem_insert, exists_reachesInto_cons_iff hg]
      exact or_assoc.trans or_left_comm

/-- The unclaimed nodes that are not collected stay unclaimed. -/
theorem mem_collect_unclaimed
    (hg : g.WellFormed)
    (members unclaimed : OrderedSet Nat) (stack : List Nat)
    (hdisjoint : ∀ x ∈ unclaimed, x ∉ members ∧ x ∉ stack) {x : Nat} :
    x ∈ (g.collect members unclaimed stack).2 ↔
      x ∈ unclaimed ∧ x ∉ (g.collect members unclaimed stack).1 := by
  induction members, unclaimed, stack using collect.induct g with
  | case1 members unclaimed =>
      rw [collect]
      exact (and_iff_left_of_imp fun h => (hdisjoint x h).1).symm
  | case2 members unclaimed current stack targets ih =>
      have hrest (y : Nat) (hy : y ∈ unclaimed.filter fun id => !targets.contains id) :
          y ∉ members.insert current ∧
            y ∉ (unclaimed.filter fun id => targets.contains id).toList ++ stack := by
        obtain ⟨hmem, hnot⟩ := OrderedSet.mem_filter.1 hy
        obtain ⟨hmembers, hstack⟩ := hdisjoint y hmem
        rw [List.mem_cons, not_or] at hstack
        constructor
        · rw [OrderedSet.mem_insert, not_or]
          exact ⟨hstack.1, hmembers⟩
        · rw [List.mem_append, not_or]
          refine ⟨fun h => ?_, hstack.2⟩
          have htarget := (OrderedSet.mem_filter.1 (OrderedSet.mem_toList.1 h)).2
          rw [htarget] at hnot
          cases hnot
      rw [collect, ih hrest, OrderedSet.mem_filter]
      constructor
      · rintro ⟨⟨hmem, _⟩, hnot⟩
        exact ⟨hmem, hnot⟩
      · rintro ⟨hmem, hnot⟩
        refine ⟨⟨hmem, ?_⟩, hnot⟩
        cases htarget : targets.contains x with
        | false => rfl
        | true =>
            have hstart := List.mem_append_left stack (OrderedSet.mem_filter.2 ⟨hmem, htarget⟩)
            exact absurd
              ((mem_collect hg _ _ _).2 (Or.inr ⟨x, hstart, Relation.ReflTransGen.refl⟩)) hnot

end Collecting

section Claiming

variable {g : DependencyGraph}

/-- What holds before a root is taken: the unclaimed nodes are among the roots still to come, they
include every node with an edge to one of them, and the roots stand in the finish order of the
reversed graph. -/
structure Claimable (g : DependencyGraph) (unclaimed : OrderedSet Nat) (roots : List Nat) :
    Prop where
  mem_roots : ∀ x ∈ unclaimed, x ∈ roots
  closed : ∀ x y, g.Edge x y → y ∈ unclaimed → x ∈ unclaimed
  ordered : FinishOrdered (fun x y => g.Edge y x) roots

theorem reaches_of_reaches_flip
    {a b : Nat}
    (h : Relation.ReflTransGen (fun x y => g.Edge y x) a b) :
    g.Reaches b a :=
  Relation.reflTransGen_swap.1 h

theorem Claimable.mem_of_reaches
    {unclaimed : OrderedSet Nat} {roots : List Nat} {x y : Nat}
    (h : g.Claimable unclaimed roots)
    (hwalk : g.Reaches x y)
    (hy : y ∈ unclaimed) :
    x ∈ unclaimed := by
  induction hwalk using Relation.ReflTransGen.head_induction_on with
  | refl => exact hy
  | head hedge _ ih => exact h.closed _ _ hedge ih

/-- The unclaimed nodes that a root reaches through unclaimed nodes reach the root. -/
theorem Claimable.reaches_root
    {unclaimed : OrderedSet Nat} {rest : List Nat} {root x : Nat}
    (h : g.Claimable unclaimed (root :: rest))
    (hwalk : g.ReachesInto (unclaimed.erase root) root x) :
    g.Reaches x root := by
  obtain ⟨hmem, hclosed, hordered⟩ := h
  cases hordered with
  | @cons _ descendants earlier _ hroot hdescendants hearlier =>
      -- The walk never enters the nodes that finished before the root was visited.
      have hstay : x = root ∨ x ∈ descendants := by
        induction hwalk with
        | refl => exact Or.inl rfl
        | @tail b c _ hedge ih =>
            obtain ⟨hc, hne⟩ := OrderedSet.mem_erase.1 hedge.2
            rcases List.mem_append.1 ((List.mem_cons.1 (hmem c hc)).resolve_left hne) with hc | hc
            · exact Or.inr hc
            · obtain ⟨hneb, hnotb⟩ := hearlier c hc b hedge.1
              rcases ih with rfl | hb
              · exact absurd rfl hneb
              · exact absurd hb hnotb
      rcases hstay with rfl | hx
      · exact Relation.ReflTransGen.refl
      · exact reaches_of_reaches_flip (hdescendants x hx)

/-- A root collects its strongly connected component. -/
theorem Claimable.mem_collect_root
    (hg : g.WellFormed)
    {unclaimed : OrderedSet Nat} {rest : List Nat} {root x : Nat}
    (h : g.Claimable unclaimed (root :: rest))
    (hroot : root ∈ unclaimed) :
    x ∈ (g.collect ∅ (unclaimed.erase root) [root]).1 ↔ g.StronglyConnected root x := by
  have hiff :
      x ∈ (g.collect ∅ (unclaimed.erase root) [root]).1 ↔
        g.ReachesInto (unclaimed.erase root) root x := by
    rw [mem_collect hg]
    simp
  rw [hiff]
  clear hiff
  constructor
  · exact fun hwalk => ⟨ReachesInto.reaches hwalk, h.reaches_root hwalk⟩
  · rintro ⟨hwalk, hback⟩
    induction hwalk with
    | refl => exact Relation.ReflTransGen.refl
    | @tail b c _ hedge ih =>
        by_cases hc : c = root
        · rw [hc]
        · have hmem : c ∈ unclaimed := h.mem_of_reaches hback hroot
          exact (ih (Relation.ReflTransGen.head hedge hback)).tail
            ⟨hedge, OrderedSet.mem_erase.2 ⟨hmem, hc⟩⟩

theorem Claimable.mem_remaining
    (hg : g.WellFormed)
    {unclaimed : OrderedSet Nat} {rest : List Nat} {root x : Nat}
    (h : g.Claimable unclaimed (root :: rest))
    (hroot : root ∈ unclaimed) :
    x ∈ (g.collect ∅ (unclaimed.erase root) [root]).2 ↔
      x ∈ unclaimed ∧ ¬ g.StronglyConnected root x := by
  have hdisjoint (y : Nat) (hy : y ∈ unclaimed.erase root) :
      y ∉ (∅ : OrderedSet Nat) ∧ y ∉ [root] :=
    ⟨OrderedSet.not_mem_empty y, by simpa using (OrderedSet.mem_erase.1 hy).2⟩
  rw [mem_collect_unclaimed hg _ _ _ hdisjoint, h.mem_collect_root hg hroot, OrderedSet.mem_erase]
  constructor
  · rintro ⟨⟨hmem, _⟩, hnot⟩
    exact ⟨hmem, hnot⟩
  · rintro ⟨hmem, hnot⟩
    refine ⟨⟨hmem, ?_⟩, hnot⟩
    rintro rfl
    exact hnot ⟨Relation.ReflTransGen.refl, Relation.ReflTransGen.refl⟩

/-- Unclaimed nodes that a root's component has edges to belong to the component. -/
theorem Claimable.stronglyConnected_of_edge
    (hg : g.WellFormed)
    {unclaimed : OrderedSet Nat} {rest : List Nat} {root a b : Nat}
    (h : g.Claimable unclaimed (root :: rest))
    (hroot : root ∈ unclaimed)
    (ha : g.StronglyConnected root a)
    (hedge : g.Edge a b)
    (hb : b ∈ unclaimed) :
    g.StronglyConnected root b := by
  by_cases hne : b = root
  · rw [hne]
    exact ⟨Relation.ReflTransGen.refl, Relation.ReflTransGen.refl⟩
  · have hcollected := (h.mem_collect_root hg hroot).2 ha
    rw [mem_collect hg] at hcollected
    have hwalk : g.ReachesInto (unclaimed.erase root) root a := by
      simpa using hcollected
    rw [← h.mem_collect_root hg hroot, mem_collect hg]
    refine Or.inr ⟨root, List.mem_singleton.2 rfl, hwalk.tail ⟨hedge, ?_⟩⟩
    exact OrderedSet.mem_erase.2 ⟨hb, hne⟩

/-- After a root has claimed its component, the next root may be taken. -/
theorem Claimable.next
    (hg : g.WellFormed)
    {unclaimed : OrderedSet Nat} {rest : List Nat} {root : Nat}
    (h : g.Claimable unclaimed (root :: rest))
    (hroot : root ∈ unclaimed) :
    g.Claimable (g.collect ∅ (unclaimed.erase root) [root]).2 rest := by
  refine ⟨?_, ?_, ?_⟩
  · intro x hx
    obtain ⟨hmem, hnot⟩ := (h.mem_remaining hg hroot).1 hx
    refine (List.mem_cons.1 (h.mem_roots x hmem)).resolve_left ?_
    rintro rfl
    exact hnot ⟨Relation.ReflTransGen.refl, Relation.ReflTransGen.refl⟩
  · intro x y hedge hy
    obtain ⟨hmem, hnot⟩ := (h.mem_remaining hg hroot).1 hy
    refine (h.mem_remaining hg hroot).2 ⟨h.closed x y hedge hmem, ?_⟩
    exact fun hx => hnot (h.stronglyConnected_of_edge hg hroot hx hedge hmem)
  · cases h.ordered with
    | cons hrest _ _ _ => exact hrest

/-- A root that is claimed already is passed over. -/
theorem Claimable.skip
    {unclaimed : OrderedSet Nat} {rest : List Nat} {root : Nat}
    (h : g.Claimable unclaimed (root :: rest))
    (hroot : root ∉ unclaimed) :
    g.Claimable unclaimed rest := by
  refine ⟨?_, h.closed, ?_⟩
  · intro x hx
    refine (List.mem_cons.1 (h.mem_roots x hx)).resolve_left ?_
    rintro rfl
    exact hroot hx
  · cases h.ordered with
    | cons hrest _ _ _ => exact hrest

/-- The components found among unclaimed nodes: each is the strongly connected component of its
root, together they are the unclaimed nodes, and no edge leads from one to a later one. -/
structure Partition
    (g : DependencyGraph) (unclaimed : OrderedSet Nat) (components : List Component) : Prop where
  mem_iff : ∀ x, x ∈ unclaimed ↔ ∃ c ∈ components, x ∈ c.members
  connected : ∀ c ∈ components, ∀ x, x ∈ c.members ↔ g.StronglyConnected c.root x
  ordered :
    components.Pairwise fun c d =>
      ∀ a ∈ c.members, ∀ b ∈ d.members, a ≠ b ∧ ¬ g.Edge a b

theorem partition_componentsFrom
    (hg : g.WellFormed)
    (roots : List Nat) (unclaimed : OrderedSet Nat)
    (h : g.Claimable unclaimed roots) :
    g.Partition unclaimed (g.componentsFrom unclaimed roots) := by
  induction roots generalizing unclaimed with
  | nil =>
      rw [componentsFrom]
      refine ⟨fun x => ?_, by simp, List.Pairwise.nil⟩
      have hnone : x ∉ unclaimed := fun hx => List.not_mem_nil (h.mem_roots x hx)
      simp [hnone]
  | cons root rest ih =>
      rw [componentsFrom]
      split
      · rename_i hroot
        obtain ⟨hmem, hconnected, hordered⟩ := ih _ (h.next hg hroot)
        refine ⟨?_, ?_, ?_⟩
        · intro x
          simp only [List.mem_cons, exists_eq_or_imp]
          rw [← hmem, h.mem_remaining hg hroot,
            h.mem_collect_root hg hroot]
          constructor
          · intro hx
            by_cases hroot' : g.StronglyConnected root x
            · exact Or.inl hroot'
            · exact Or.inr ⟨hx, hroot'⟩
          · rintro (hx | ⟨hx, _⟩)
            · exact h.mem_of_reaches hx.2 hroot
            · exact hx
        · intro c hc x
          rcases List.mem_cons.1 hc with rfl | hc
          · exact h.mem_collect_root hg hroot
          · exact hconnected c hc x
        · refine List.pairwise_cons.2 ⟨?_, hordered⟩
          intro d hd a ha b hb
          have ha' := (h.mem_collect_root hg hroot).1 ha
          obtain ⟨hb', hnot⟩ := (h.mem_remaining hg hroot).1 ((hmem b).2 ⟨d, hd, hb⟩)
          constructor
          · rintro rfl
            exact hnot ha'
          · exact fun hedge => hnot (h.stronglyConnected_of_edge hg hroot ha' hedge hb')
      · rename_i hroot
        exact ih unclaimed (h.skip hroot)

theorem claimable_start
    (hg : g.WellFormed) :
    g.Claimable g.nodes.keySet g.invert.postorder.reverse := by
  refine ⟨?_, ?_, ?_⟩
  · intro x hx
    rw [List.mem_reverse, mem_postorder (wellFormed_invert hg), contains_invert]
    exact mem_keySet.1 hx
  · exact fun x y hedge _ => mem_keySet.2 (contains_source hedge)
  · have hordered := finishOrdered_postorder (wellFormed_invert hg)
    have hflip : g.invert.Edge = fun x y => g.Edge y x := by
      funext x y
      exact propext (edge_invert hg)
    rw [hflip] at hordered
    exact hordered

theorem partition_components
    (hg : g.WellFormed) :
    g.Partition g.nodes.keySet g.components :=
  partition_componentsFrom hg _ _ (claimable_start hg)

end Claiming

section Parts

variable {g : DependencyGraph}

/-- The parts of a graph are subgraphs: each node is in exactly one of them, together with the nodes
that are strongly connected to it; no part has an edge to a later one; each has the edges between
its nodes; and a part is recursive if its nodes, some or all of them, lie on cycles. -/
structure Decomposes (g : DependencyGraph) (parts : List DependencyGraph) : Prop where
  subgraph :
    ∀ part ∈ parts, ∃ members, part = g.subgraph members
  contains_iff :
    ∀ id, g.contains id = true ↔ ∃ part ∈ parts, part.contains id = true
  unique_part :
    ∀ id, g.contains id = true →
      ∃! i : Fin parts.length, (parts.get i).contains id = true
  same_part_iff :
    ∀ a b, g.contains a = true → g.contains b = true →
      ((∃ part ∈ parts, part.contains a = true ∧ part.contains b = true) ↔
        g.StronglyConnected a b)
  edge_backward :
    ∀ a b, g.hasEdge a b = true →
      ∀ i j : Fin parts.length,
        (parts.get i).contains a = true → (parts.get j).contains b = true → j ≤ i
  hasEdge_iff :
    ∀ part ∈ parts, ∀ a b,
      part.hasEdge a b = true ↔
        part.contains a = true ∧ part.contains b = true ∧ g.hasEdge a b = true
  isRecursive_iff_exists :
    ∀ part ∈ parts,
      part.isRecursive = true ↔ ∃ id, part.contains id = true ∧ g.OnCycle id
  isRecursive_iff_forall :
    ∀ part ∈ parts,
      part.isRecursive = true ↔ ∀ id, part.contains id = true → g.OnCycle id

/-- A graph has more than one node exactly if two of its ids differ. -/
theorem one_lt_size_iff :
    1 < g.size ↔ ∃ a b, g.contains a = true ∧ g.contains b = true ∧ a ≠ b := by
  have hnodup := g.nodup_ids
  simp only [size_eq_length_ids, ← mem_ids]
  cases h : g.ids with
  | nil => simp
  | cons first rest =>
      rw [h] at hnodup
      cases rest with
      | nil =>
          constructor
          · intro hlt
            exact absurd hlt (Nat.lt_irrefl 1)
          · rintro ⟨a, b, ha, hb, hne⟩
            exact absurd ((List.mem_singleton.1 ha).trans (List.mem_singleton.1 hb).symm) hne
      | cons second rest =>
          have hne : first ≠ second := (List.pairwise_cons.1 hnodup).1 second List.mem_cons_self
          exact ⟨fun _ => ⟨first, second, List.mem_cons_self, by simp, hne⟩, fun _ => by simp⟩

theorem isRecursive_iff :
    g.isRecursive = true ↔
      (∃ a b, g.contains a = true ∧ g.contains b = true ∧ a ≠ b) ∨ ∃ a, g.Edge a a := by
  have hloop : (g.ids.any fun id => g.hasEdge id id) = true ↔ ∃ a, g.Edge a a := by
    rw [List.any_eq_true]
    constructor
    · rintro ⟨a, _, ha⟩
      exact ⟨a, ha⟩
    · rintro ⟨a, ha⟩
      exact ⟨a, mem_ids.2 (contains_source ha), ha⟩
  rw [isRecursive, Bool.or_eq_true, decide_eq_true_iff, hloop, one_lt_size_iff]

/-- Two different nodes of a strongly connected component lie on a cycle. -/
theorem StronglyConnected.onCycle
    {a b : Nat}
    (h : g.StronglyConnected a b)
    (hne : a ≠ b) :
    g.OnCycle a := by
  rcases Relation.reflTransGen_iff_eq_or_transGen.1 h.1 with heq | hwalk
  · exact absurd heq.symm hne
  · exact hwalk.trans_left h.2

/-- A node on a cycle has an edge to a node of its strongly connected component. -/
theorem OnCycle.exists_edge
    {a : Nat}
    (h : g.OnCycle a) :
    ∃ b, g.Edge a b ∧ g.StronglyConnected a b := by
  obtain ⟨b, hedge, hback⟩ := Relation.TransGen.head'_iff.1 h
  exact ⟨b, hedge, Relation.ReflTransGen.single hedge, hback⟩

theorem contains_component
    {c : Component}
    (hpartition : g.Partition g.nodes.keySet g.components)
    (hc : c ∈ g.components)
    {id : Nat} :
    (g.subgraph c.members).contains id = true ↔ id ∈ c.members := by
  rw [contains_subgraph]
  exact and_iff_left_of_imp fun h => mem_keySet.1 ((hpartition.mem_iff id).2 ⟨c, hc, h⟩)

theorem onCycle_of_isRecursive
    {c : Component}
    (hpartition : g.Partition g.nodes.keySet g.components)
    (hc : c ∈ g.components)
    (h : (g.subgraph c.members).isRecursive = true)
    {id : Nat}
    (hid : id ∈ c.members) :
    g.OnCycle id := by
  have hconnected (a b : Nat) (ha : a ∈ c.members) (hb : b ∈ c.members) :
      g.StronglyConnected a b :=
    ((hpartition.connected c hc a).1 ha).symm.trans ((hpartition.connected c hc b).1 hb)
  rcases isRecursive_iff.1 h with ⟨a, b, ha, hb, hne⟩ | ⟨a, ha⟩
  · rw [contains_component hpartition hc] at ha hb
    by_cases hida : id = a
    · exact (hconnected id b hid hb).onCycle (hida ▸ hne)
    · exact (hconnected id a hid ha).onCycle hida
  · obtain ⟨hmem, _, hedge⟩ := edge_subgraph.1 ha
    by_cases hida : id = a
    · rw [hida]
      exact Relation.TransGen.single hedge
    · exact (hconnected id a hid hmem).onCycle hida

theorem isRecursive_of_onCycle
    {c : Component}
    (hpartition : g.Partition g.nodes.keySet g.components)
    (hc : c ∈ g.components)
    {id : Nat}
    (hid : id ∈ c.members)
    (h : g.OnCycle id) :
    (g.subgraph c.members).isRecursive = true := by
  obtain ⟨b, hedge, hconnected⟩ := h.exists_edge
  have hb : b ∈ c.members :=
    (hpartition.connected c hc b).2 (((hpartition.connected c hc id).1 hid).trans hconnected)
  by_cases hne : id = b
  · subst hne
    exact isRecursive_iff.2 (Or.inr ⟨id, edge_subgraph.2 ⟨hid, hid, hedge⟩⟩)
  · refine isRecursive_iff.2 (Or.inl ⟨id, b, ?_, ?_, hne⟩)
    · exact (contains_component hpartition hc).2 hid
    · exact (contains_component hpartition hc).2 hb

/-- A component is recursive if and only if any one of its nodes lies on a cycle. -/
theorem isRecursive_component_iff
    {c : Component}
    (hpartition : g.Partition g.nodes.keySet g.components)
    (hc : c ∈ g.components)
    {id : Nat}
    (hid : id ∈ c.members) :
    (g.subgraph c.members).isRecursive = true ↔ g.OnCycle id :=
  ⟨fun h => onCycle_of_isRecursive hpartition hc h hid,
    isRecursive_of_onCycle hpartition hc hid⟩

theorem root_mem
    {c : Component}
    (hpartition : g.Partition g.nodes.keySet g.components)
    (hc : c ∈ g.components) :
    c.root ∈ c.members :=
  (hpartition.connected c hc c.root).2
    ⟨Relation.ReflTransGen.refl, Relation.ReflTransGen.refl⟩

theorem exists_component_of_mem
    {part : DependencyGraph}
    (h : part ∈ g.componentGraphs) :
    ∃ c ∈ g.components, part = g.subgraph c.members := by
  obtain ⟨c, hc, rfl⟩ := List.mem_map.1 h
  exact ⟨c, hc, rfl⟩

theorem contains_iff_exists_part
    (hpartition : g.Partition g.nodes.keySet g.components)
    {id : Nat} :
    g.contains id = true ↔ ∃ part ∈ g.componentGraphs, part.contains id = true := by
  constructor
  · intro hid
    obtain ⟨c, hc, hmem⟩ := (hpartition.mem_iff id).1 (mem_keySet.2 hid)
    exact ⟨g.subgraph c.members, List.mem_map_of_mem hc,
      (contains_component hpartition hc).2 hmem⟩
  · rintro ⟨part, hpart, hid⟩
    obtain ⟨c, _, rfl⟩ := exists_component_of_mem hpart
    exact (contains_subgraph.1 hid).2

theorem exists_part_iff_stronglyConnected
    (hpartition : g.Partition g.nodes.keySet g.components)
    {a b : Nat}
    (ha : g.contains a = true) :
    (∃ part ∈ g.componentGraphs, part.contains a = true ∧ part.contains b = true) ↔
      g.StronglyConnected a b := by
  constructor
  · rintro ⟨part, hpart, hmema, hmemb⟩
    obtain ⟨c, hc, rfl⟩ := exists_component_of_mem hpart
    rw [contains_component hpartition hc, hpartition.connected c hc] at hmema hmemb
    exact hmema.symm.trans hmemb
  · intro hconnected
    obtain ⟨part, hpart, hmema⟩ := (contains_iff_exists_part hpartition).1 ha
    obtain ⟨c, hc, rfl⟩ := exists_component_of_mem hpart
    refine ⟨_, hpart, hmema, ?_⟩
    rw [contains_component hpartition hc, hpartition.connected c hc] at hmema ⊢
    exact hmema.trans hconnected

/-- Different parts have no node in common, and no part has an edge to a later one. -/
theorem pairwise_componentGraphs
    (hpartition : g.Partition g.nodes.keySet g.components) :
    g.componentGraphs.Pairwise fun part later =>
      ∀ a b, part.contains a = true → later.contains b = true → a ≠ b ∧ ¬ g.Edge a b := by
  refine List.pairwise_map.2 (hpartition.ordered.imp ?_)
  intro c d h a b ha hb
  exact h a (contains_subgraph.1 ha).1 b (contains_subgraph.1 hb).1

theorem part_eq_of_contains
    (hpartition : g.Partition g.nodes.keySet g.components)
    {i j : Fin g.componentGraphs.length} {id : Nat}
    (hi : (g.componentGraphs.get i).contains id = true)
    (hj : (g.componentGraphs.get j).contains id = true) :
    i = j := by
  have hpairwise := List.pairwise_iff_get.1 (pairwise_componentGraphs hpartition)
  rcases Nat.lt_trichotomy i j with hlt | heq | hlt
  · exact absurd rfl (hpairwise i j hlt id id hi hj).1
  · exact Fin.ext heq
  · exact absurd rfl (hpairwise j i hlt id id hj hi).1

end Parts

/-- The component graphs are the strongly connected components, each after those that it has edges
to. -/
theorem decomposes_componentGraphs
    (g : DependencyGraph)
    (hg : g.Built) :
    g.Decomposes g.componentGraphs := by
  have hpartition := partition_components hg.wellFormed
  have hpairwise := List.pairwise_iff_get.1 (pairwise_componentGraphs hpartition)
  refine ⟨?subgraph, fun id => contains_iff_exists_part hpartition, ?unique_part,
    fun a b ha _ => exists_part_iff_stronglyConnected hpartition ha, ?edge_backward,
    ?hasEdge, ?exists_cycle, ?forall_cycle⟩
  case subgraph =>
    intro part hpart
    obtain ⟨c, _, heq⟩ := exists_component_of_mem hpart
    exact ⟨c.members, heq⟩
  case unique_part =>
    intro id hid
    obtain ⟨part, hpart, hmem⟩ := (contains_iff_exists_part hpartition).1 hid
    obtain ⟨i, rfl⟩ := List.mem_iff_get.1 hpart
    exact ⟨i, hmem, fun j hj => part_eq_of_contains hpartition hj hmem⟩
  case edge_backward =>
    intro a b hedge i j hi hj
    rcases Nat.lt_or_ge i j with hlt | hle
    · exact absurd hedge (hpairwise i j hlt a b hi hj).2
    · exact hle
  case hasEdge =>
    intro part hpart a b
    obtain ⟨c, hc, rfl⟩ := exists_component_of_mem hpart
    rw [contains_component hpartition hc, contains_component hpartition hc]
    exact edge_subgraph
  case exists_cycle =>
    intro part hpart
    obtain ⟨c, hc, rfl⟩ := exists_component_of_mem hpart
    constructor
    · intro hrecursive
      have hroot := root_mem hpartition hc
      exact ⟨c.root, (contains_component hpartition hc).2 hroot,
        (isRecursive_component_iff hpartition hc hroot).1 hrecursive⟩
    · rintro ⟨id, hid, hcycle⟩
      rw [contains_component hpartition hc] at hid
      exact (isRecursive_component_iff hpartition hc hid).2 hcycle
  case forall_cycle =>
    intro part hpart
    obtain ⟨c, hc, rfl⟩ := exists_component_of_mem hpart
    constructor
    · intro hrecursive id hid
      rw [contains_component hpartition hc] at hid
      exact (isRecursive_component_iff hpartition hc hid).1 hrecursive
    · intro hcycle
      have hroot := root_mem hpartition hc
      exact (isRecursive_component_iff hpartition hc hroot).2
        (hcycle c.root ((contains_component hpartition hc).2 hroot))

/-- Two rules that read each other, one that reads the first of them, and one that reads itself. -/
def mutualRules : List Rule :=
  [⟨⟨"A", ["x"]⟩, [⟨"B", ["x"]⟩]⟩,
    ⟨⟨"B", ["x"]⟩, [⟨"A", ["x"]⟩]⟩,
    ⟨⟨"C", ["x"]⟩, [⟨"A", ["x"]⟩]⟩,
    ⟨⟨"D", ["x"]⟩, [⟨"D", ["x"]⟩]⟩]

theorem decomposes_mutualRules :
    (ofRules mutualRules).Built ∧
      (ofRules mutualRules).componentGraphs.map ids = [[3], [0, 1], [2]] ∧
      (ofRules mutualRules).Decomposes (ofRules mutualRules).componentGraphs :=
  ⟨Built.ofRules mutualRules, by cbv,
    decomposes_componentGraphs (ofRules mutualRules) (Built.ofRules mutualRules)⟩

end DependencyGraph

end Decomposition

end Datalog
