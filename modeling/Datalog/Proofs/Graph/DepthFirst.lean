import Datalog.Proofs.Graph.Formation

/-!
# The recursive depth-first search behind the postorder

**Algorithm.** `explore` visits a list of nodes in turn.  A node that is not visited yet is visited,
then its successors are explored, then it finishes.  There is no stack of its own: what the
traversal keeps on its stack is here the recursion.

**Finish order.** `FinishOrdered` is said of the finished nodes, the last one first: behind each
node stand first its descendants, all reachable from it, then nodes that finished before it was
visited and have no edge to it or to one of its descendants.

**Results.** The traversal with a stack finishes the nodes as the recursive search does, and its
finish order is `FinishOrdered`.
-/

namespace Datalog

section DepthFirst

/-- The order in which a depth-first search along `edge` finishes its nodes, the last one first. -/
inductive FinishOrdered (edge : Nat → Nat → Prop) : List Nat → Prop
  | nil : FinishOrdered edge []
  | cons {id : Nat} {descendants earlier : List Nat} :
      FinishOrdered edge (descendants ++ earlier) →
      id ∉ descendants ++ earlier →
      (∀ x ∈ descendants, Relation.ReflTransGen edge id x) →
      (∀ x ∈ earlier, ∀ y, edge x y → y ≠ id ∧ y ∉ descendants) →
      FinishOrdered edge (id :: (descendants ++ earlier))

namespace DependencyGraph

/-- Explores nodes in turn.  Gives the nodes that are still unvisited and the finished ones, the
last one first. -/
def explore
    (g : DependencyGraph) (unvisited : OrderedSet Nat) (finished : List Nat) :
    List Nat → { state : OrderedSet Nat × List Nat // state.1.size ≤ unvisited.size }
  | [] => ⟨(unvisited, finished), Nat.le_refl _⟩
  | id :: rest =>
      if hmem : id ∈ unvisited then
        let below := explore g (unvisited.erase id) finished (g.successors id)
        let beside := explore g below.1.1 (id :: below.1.2) rest
        ⟨beside.1, Nat.le_trans beside.2
          (Nat.le_trans below.2 (Nat.le_of_lt (OrderedSet.size_erase_lt hmem)))⟩
      else
        explore g unvisited finished rest
termination_by pending => (unvisited.size, pending.length)
decreasing_by
  · exact Prod.Lex.left _ _ (OrderedSet.size_erase_lt hmem)
  · exact Prod.Lex.left _ _ (Nat.lt_of_le_of_lt below.2 (OrderedSet.size_erase_lt hmem))
  · exact Prod.Lex.right _ (Nat.lt_succ_self _)

/-- The unvisited and the finished nodes after exploring. -/
def search
    (g : DependencyGraph) (unvisited : OrderedSet Nat) (finished pending : List Nat) :
    OrderedSet Nat × List Nat :=
  (g.explore unvisited finished pending).1

section Equations

variable (g : DependencyGraph) (unvisited : OrderedSet Nat) (finished rest : List Nat)

@[simp] theorem search_nil :
    g.search unvisited finished [] = (unvisited, finished) := by
  rw [search, explore]

theorem search_cons_of_mem
    {id : Nat}
    (h : id ∈ unvisited) :
    g.search unvisited finished (id :: rest) =
      g.search (g.search (unvisited.erase id) finished (g.successors id)).1
        (id :: (g.search (unvisited.erase id) finished (g.successors id)).2) rest := by
  rw [search, explore, dif_pos h]
  rfl

theorem search_cons_of_not_mem
    {id : Nat}
    (h : id ∉ unvisited) :
    g.search unvisited finished (id :: rest) = g.search unvisited finished rest := by
  rw [search, explore, dif_neg h]
  rfl

/-- Induction along the search: a visited node has what is below it and what is beside it. -/
@[elab_as_elim] theorem search_induction
    {motive : OrderedSet Nat → List Nat → List Nat → Prop}
    (nil : ∀ unvisited finished, motive unvisited finished [])
    (visit :
      ∀ unvisited finished id rest,
        id ∈ unvisited →
        motive (unvisited.erase id) finished (g.successors id) →
        motive (g.search (unvisited.erase id) finished (g.successors id)).1
          (id :: (g.search (unvisited.erase id) finished (g.successors id)).2) rest →
        motive unvisited finished (id :: rest))
    (skip :
      ∀ unvisited finished id rest,
        id ∉ unvisited → motive unvisited finished rest →
        motive unvisited finished (id :: rest))
    (pending : List Nat) :
    motive unvisited finished pending := by
  induction unvisited, finished, pending using explore.induct g with
  | case1 unvisited finished => exact nil unvisited finished
  | case2 unvisited finished id rest hmem _ hbelow hbeside _ =>
      exact visit unvisited finished id rest hmem hbelow hbeside
  | case3 unvisited finished id rest hmem hrest =>
      exact skip unvisited finished id rest hmem hrest

end Equations

section Specification

variable {g : DependencyGraph}

/-- Searching visits nodes and never forgets one. -/
theorem mem_of_mem_search
    {unvisited : OrderedSet Nat} {finished pending : List Nat} {x : Nat}
    (h : x ∈ (g.search unvisited finished pending).1) :
    x ∈ unvisited := by
  induction unvisited, finished, pending using search_induction g with
  | nil unvisited finished => simpa using h
  | visit unvisited finished id rest hmem ihBelow ihBeside =>
      rw [search_cons_of_mem g unvisited finished rest hmem] at h
      exact (OrderedSet.mem_erase.1 (ihBelow (ihBeside h))).1
  | skip unvisited finished id rest hmem ih =>
      rw [search_cons_of_not_mem g unvisited finished rest hmem] at h
      exact ih h

/-- Every node that was to be explored is visited in the end. -/
theorem not_mem_search
    {unvisited : OrderedSet Nat} {finished pending : List Nat} {x : Nat}
    (h : x ∈ pending) :
    x ∉ (g.search unvisited finished pending).1 := by
  induction unvisited, finished, pending using search_induction g with
  | nil unvisited finished => exact absurd h List.not_mem_nil
  | visit unvisited finished id rest hmem _ ihBeside =>
      rw [search_cons_of_mem g unvisited finished rest hmem]
      rcases List.mem_cons.1 h with rfl | h
      · intro hx
        exact (OrderedSet.mem_erase.1 (mem_of_mem_search (mem_of_mem_search hx))).2 rfl
      · exact ihBeside h
  | skip unvisited finished id rest hmem ih =>
      rw [search_cons_of_not_mem g unvisited finished rest hmem]
      rcases List.mem_cons.1 h with rfl | h
      · exact fun hx => hmem (mem_of_mem_search hx)
      · exact ih h

/-- What the finished nodes of a search satisfy between two of its steps. -/
structure Settled
    (g : DependencyGraph) (unvisited : OrderedSet Nat) (finished : List Nat) : Prop where
  visited : ∀ x ∈ finished, x ∉ unvisited
  closed : ∀ x ∈ finished, ∀ y, g.Edge x y → y ∉ unvisited
  ordered : FinishOrdered g.Edge finished

theorem Settled.erase
    {unvisited : OrderedSet Nat} {finished : List Nat}
    (h : g.Settled unvisited finished)
    (id : Nat) :
    g.Settled (unvisited.erase id) finished where
  visited x hx hmem := h.visited x hx (OrderedSet.mem_erase.1 hmem).1
  closed x hx y hxy hmem := h.closed x hx y hxy (OrderedSet.mem_erase.1 hmem).1
  ordered := h.ordered

/-- What exploring pending nodes does: it finishes exactly the nodes that it visits, each of them
reachable from a pending one, and leaves the search settled. -/
structure Explored
    (g : DependencyGraph) (unvisited : OrderedSet Nat) (finished pending : List Nat)
    (unvisited' : OrderedSet Nat) (new : List Nat) : Prop where
  search_eq : g.search unvisited finished pending = (unvisited', new ++ finished)
  mem_new : ∀ x, x ∈ new ↔ x ∈ unvisited ∧ x ∉ unvisited'
  reach : ∀ x ∈ new, ∃ start ∈ pending, g.Reaches start x
  settled : g.Settled unvisited' (new ++ finished)

theorem Explored.subset
    {unvisited unvisited' : OrderedSet Nat} {finished pending new : List Nat} {x : Nat}
    (h : g.Explored unvisited finished pending unvisited' new)
    (hx : x ∈ unvisited') :
    x ∈ unvisited := by
  have hsearch : x ∈ (g.search unvisited finished pending).1 := by
    rw [h.search_eq]
    exact hx
  exact mem_of_mem_search hsearch

theorem Explored.not_mem
    {unvisited unvisited' : OrderedSet Nat} {finished pending new : List Nat} {x : Nat}
    (h : g.Explored unvisited finished pending unvisited' new)
    (hx : x ∈ pending) :
    x ∉ unvisited' := by
  have hsearch : x ∉ (g.search unvisited finished pending).1 := not_mem_search hx
  rw [h.search_eq] at hsearch
  exact hsearch

section Visit

variable {unvisited unvisited' : OrderedSet Nat} {finished below : List Nat} {id : Nat}

theorem Explored.reaches
    (hg : g.WellFormed)
    (h : g.Explored (unvisited.erase id) finished (g.successors id) unvisited' below)
    {x : Nat}
    (hx : x ∈ below) :
    g.Reaches id x := by
  obtain ⟨start, hstart, hwalk⟩ := h.reach x hx
  exact Relation.ReflTransGen.head ((mem_successors hg).1 hstart) hwalk

theorem Explored.id_not_mem
    (h : g.Explored (unvisited.erase id) finished (g.successors id) unvisited' below)
    (hsettled : g.Settled unvisited finished)
    (hmem : id ∈ unvisited) :
    id ∉ below ++ finished := by
  intro hid
  rcases List.mem_append.1 hid with hid | hid
  · exact (OrderedSet.mem_erase.1 ((h.mem_new id).1 hid).1).2 rfl
  · exact hsettled.visited id hid hmem

/-- A node finishes after everything below it, and the search is settled again. -/
theorem Explored.finish
    (hg : g.WellFormed)
    (h : g.Explored (unvisited.erase id) finished (g.successors id) unvisited' below)
    (hsettled : g.Settled unvisited finished)
    (hmem : id ∈ unvisited) :
    g.Settled unvisited' (id :: (below ++ finished)) := by
  refine ⟨?_, ?_, ?_⟩
  · intro x hx
    rcases List.mem_cons.1 hx with rfl | hx
    · exact fun hx => (OrderedSet.mem_erase.1 (h.subset hx)).2 rfl
    · exact h.settled.visited x hx
  · intro x hx y hxy
    rcases List.mem_cons.1 hx with rfl | hx
    · exact h.not_mem ((mem_successors hg).2 hxy)
    · exact h.settled.closed x hx y hxy
  · refine FinishOrdered.cons h.settled.ordered (h.id_not_mem hsettled hmem)
      (fun x hx => h.reaches hg hx) ?_
    intro x hx y hxy
    have hy : y ∉ unvisited := hsettled.closed x hx y hxy
    constructor
    · rintro rfl
      exact hy hmem
    · intro hbelow
      exact hy (OrderedSet.mem_erase.1 ((h.mem_new y).1 hbelow).1).1

end Visit

/-- Every search from a settled state explores its pending nodes. -/
theorem exists_explored
    (hg : g.WellFormed)
    (unvisited : OrderedSet Nat) (finished pending : List Nat)
    (hsettled : g.Settled unvisited finished) :
    ∃ unvisited' new, g.Explored unvisited finished pending unvisited' new := by
  induction unvisited, finished, pending using search_induction g with
  | nil unvisited finished =>
      exact ⟨unvisited, [], by simp, by simp, by simp, hsettled⟩
  | skip unvisited finished id rest hmem ih =>
      obtain ⟨unvisited', new, h⟩ := ih hsettled
      refine ⟨unvisited', new, ?_, h.mem_new, ?_, h.settled⟩
      · rw [search_cons_of_not_mem g unvisited finished rest hmem, h.search_eq]
      · intro x hx
        obtain ⟨start, hstart, hwalk⟩ := h.reach x hx
        exact ⟨start, List.mem_cons_of_mem _ hstart, hwalk⟩
  | visit unvisited finished id rest hmem ihBelow ihBeside =>
      obtain ⟨middle, below, hbelow⟩ := ihBelow (hsettled.erase id)
      rw [hbelow.search_eq] at ihBeside
      obtain ⟨unvisited', beside, hbeside⟩ := ihBeside (hbelow.finish hg hsettled hmem)
      refine ⟨unvisited', beside ++ id :: below, ?_, ?_, ?_, ?_⟩
      · rw [search_cons_of_mem g unvisited finished rest hmem, hbelow.search_eq,
          hbeside.search_eq, List.append_assoc, List.cons_append]
      · intro x
        have hfirst (h : x ∈ middle) : x ∈ unvisited ∧ x ≠ id :=
          OrderedSet.mem_erase.1 (hbelow.subset h)
        have hlast (h : x ∈ unvisited') : x ∈ middle := hbeside.subset h
        rw [List.mem_append, List.mem_cons, hbeside.mem_new, hbelow.mem_new,
          OrderedSet.mem_erase]
        by_cases hx : x = id
        · subst hx
          grind
        · grind
      · intro x hx
        rcases List.mem_append.1 hx with hx | hx
        · obtain ⟨start, hstart, h⟩ := hbeside.reach x hx
          exact ⟨start, List.mem_cons_of_mem _ hstart, h⟩
        · rcases List.mem_cons.1 hx with rfl | hx
          · exact ⟨x, List.mem_cons_self, Relation.ReflTransGen.refl⟩
          · exact ⟨id, List.mem_cons_self, hbelow.reaches hg hx⟩
      · rw [List.append_assoc, List.cons_append]
        exact hbeside.settled

end Specification

section Traversal

variable {g : DependencyGraph}

theorem traverse_cons_of_mem
    {unvisited : OrderedSet Nat} {finished stack : List Nat} {id : Nat}
    (h : id ∈ unvisited) :
    g.traverse unvisited finished (id :: stack) =
      g.traverse (unvisited.erase id) finished
        ((g.successors id).filter (unvisited.erase id).contains ++ id :: stack) := by
  rw [traverse, if_pos h]

theorem traverse_cons_of_finished
    {unvisited : OrderedSet Nat} {finished stack : List Nat} {id : Nat}
    (hvisited : id ∉ unvisited)
    (h : id ∈ finished) :
    g.traverse unvisited finished (id :: stack) = g.traverse unvisited finished stack := by
  rw [traverse, if_neg hvisited, if_pos (List.contains_iff_mem.2 h)]

theorem traverse_cons_of_unfinished
    {unvisited : OrderedSet Nat} {finished stack : List Nat} {id : Nat}
    (hvisited : id ∉ unvisited)
    (h : id ∉ finished) :
    g.traverse unvisited finished (id :: stack) =
      g.traverse unvisited (id :: finished) stack := by
  rw [traverse, if_neg hvisited, if_neg (mt List.contains_iff_mem.1 h)]

/-- With pending nodes on top of its stack, the traversal first explores them.  The stack lacks
those that were visited before they could be put there. -/
theorem traverse_append
    (hg : g.WellFormed)
    (unvisited : OrderedSet Nat) (finished pending : List Nat)
    (hsettled : g.Settled unvisited finished)
    (pushed : Nat → Bool)
    (hunvisited : ∀ x ∈ unvisited, pushed x = true)
    (hpushed : ∀ x, pushed x = true → x ∈ unvisited ∨ x ∈ finished)
    (stack : List Nat) :
    g.traverse unvisited finished (pending.filter pushed ++ stack) =
      g.traverse (g.search unvisited finished pending).1
        (g.search unvisited finished pending).2 stack := by
  induction unvisited, finished, pending using search_induction g generalizing pushed stack with
  | nil unvisited finished => rw [search_nil, List.filter_nil, List.nil_append]
  | skip unvisited finished id rest hmem ih =>
      rw [search_cons_of_not_mem g unvisited finished rest hmem]
      by_cases hid : pushed id = true
      · rw [List.filter_cons_of_pos hid, List.cons_append,
          traverse_cons_of_finished hmem ((hpushed id hid).resolve_left hmem)]
        exact ih hsettled pushed hunvisited hpushed stack
      · rw [List.filter_cons_of_neg hid]
        exact ih hsettled pushed hunvisited hpushed stack
  | visit unvisited finished id rest hmem ihBelow ihBeside =>
      obtain ⟨middle, below, hbelow⟩ :=
        exists_explored hg (unvisited.erase id) finished (g.successors id) (hsettled.erase id)
      have hid : id ∉ middle := fun h => (OrderedSet.mem_erase.1 (hbelow.subset h)).2 rfl
      rw [search_cons_of_mem g unvisited finished rest hmem,
        List.filter_cons_of_pos (hunvisited id hmem), List.cons_append,
        traverse_cons_of_mem hmem,
        ihBelow (hsettled.erase id) (unvisited.erase id).contains
          (fun x hx => OrderedSet.contains_iff.2 hx)
          (fun x hx => Or.inl (OrderedSet.contains_iff.1 hx))]
      rw [hbelow.search_eq] at ihBeside ⊢
      rw [traverse_cons_of_unfinished hid (hbelow.id_not_mem hsettled hmem)]
      refine ihBeside (hbelow.finish hg hsettled hmem) pushed
        (fun x hx => hunvisited x (OrderedSet.mem_erase.1 (hbelow.subset hx)).1) ?_ stack
      intro x hx
      have hmiddle := hbelow.mem_new x
      rw [OrderedSet.mem_erase] at hmiddle
      have hold := hpushed x hx
      grind

/-- Starting the traversal from each node in turn is one search of all of them. -/
theorem foldl_startFrom
    (hg : g.WellFormed)
    (ids : List Nat) (unvisited : OrderedSet Nat) (finished : List Nat)
    (hsettled : g.Settled unvisited finished) :
    ids.foldl g.startFrom (unvisited, finished) = g.search unvisited finished ids := by
  induction ids generalizing unvisited finished with
  | nil => rw [search_nil, List.foldl_nil]
  | cons id rest ih =>
      rw [List.foldl_cons, startFrom]
      by_cases hmem : id ∈ unvisited
      · obtain ⟨middle, below, hbelow⟩ :=
          exists_explored hg (unvisited.erase id) finished (g.successors id) (hsettled.erase id)
        have hstart :
            g.traverse unvisited finished [id] = (middle, id :: (below ++ finished)) := by
          have hone := traverse_append hg unvisited finished [id] hsettled
            (fun x => unvisited.contains x || finished.contains x)
            (fun x hx => by simp [hx]) (fun x hx => by simpa using hx) []
          rw [search_cons_of_mem g unvisited finished [] hmem, hbelow.search_eq, search_nil,
            List.filter_cons_of_pos (by simp [hmem]), List.filter_nil, List.append_nil,
            traverse] at hone
          exact hone
        rw [if_pos hmem, hstart, search_cons_of_mem g unvisited finished rest hmem,
          hbelow.search_eq]
        exact ih middle _ (hbelow.finish hg hsettled hmem)
      · rw [if_neg hmem, search_cons_of_not_mem g unvisited finished rest hmem]
        exact ih unvisited finished hsettled

theorem settled_start (g : DependencyGraph) :
    g.Settled g.nodes.keySet [] where
  visited := by simp
  closed := by simp
  ordered := FinishOrdered.nil

/-- The postorder is the finish order of the recursive search from all nodes, ascending. -/
theorem postorder_eq_search
    (hg : g.WellFormed) :
    g.postorder = (g.search g.nodes.keySet [] g.ids).2.reverse := by
  rw [postorder, foldl_startFrom hg g.ids g.nodes.keySet [] g.settled_start]

/-- Every node occurs in the postorder. -/
theorem mem_postorder
    (hg : g.WellFormed)
    {id : Nat} :
    id ∈ g.postorder ↔ g.contains id = true := by
  obtain ⟨unvisited', new, h⟩ := exists_explored hg g.nodes.keySet [] g.ids g.settled_start
  rw [postorder_eq_search hg, h.search_eq, List.append_nil, List.mem_reverse, h.mem_new,
    mem_keySet]
  exact and_iff_left_of_imp fun hid => h.not_mem (mem_ids.2 hid)

/-- Read from its last node, the postorder is a finish order. -/
theorem finishOrdered_postorder
    (hg : g.WellFormed) :
    FinishOrdered g.Edge g.postorder.reverse := by
  obtain ⟨unvisited', new, h⟩ := exists_explored hg g.nodes.keySet [] g.ids g.settled_start
  rw [postorder_eq_search hg, h.search_eq, List.reverse_reverse]
  exact h.settled.ordered

end Traversal

end DependencyGraph

end DepthFirst

end Datalog
