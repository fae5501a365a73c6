import Datalog.DependencyGraph.Basic

/-!
# Postorder numbers

**Algorithm.** A depth-first forest starts from the lowest id that is not visited yet and explores
lower ids first.  The traversal keeps its own stack, whose top is the head of the list: a node
that comes up for the first time is visited and its unvisited successors are put above it; when it
comes up again everything above it is done, and it finishes unless it did so before.

**Numbers.** The number of a node is its place among the finished ones, starting at one.

**Measure.** Each step either visits a node or shortens the stack.
-/

namespace Datalog

section Postorder

namespace DependencyGraph

/-- Runs the traversal until the stack is empty.  Gives the nodes that are still unvisited and
the finished ones, the last one first. -/
def traverse
    (g : DependencyGraph) (unvisited : OrderedSet Nat) (finished : List Nat) :
    List Nat → OrderedSet Nat × List Nat
  | [] => (unvisited, finished)
  | current :: stack =>
      if current ∈ unvisited then
        let children := (g.successors current).filter fun child =>
          (unvisited.erase current).contains child
        traverse g (unvisited.erase current) finished (children ++ current :: stack)
      else if finished.contains current then
        traverse g unvisited finished stack
      else
        traverse g unvisited (current :: finished) stack
termination_by stack => (unvisited.size, stack.length)
decreasing_by
  · rename_i hmem
    exact Prod.Lex.left _ _ (OrderedSet.size_erase_lt hmem)
  · exact Prod.Lex.right _ (Nat.lt_succ_self _)
  · exact Prod.Lex.right _ (Nat.lt_succ_self _)

/-- Starts a traversal from an id, unless it is visited. -/
def startFrom
    (g : DependencyGraph) (state : OrderedSet Nat × List Nat) (id : Nat) :
    OrderedSet Nat × List Nat :=
  if id ∈ state.1 then
    g.traverse state.1 state.2 [id]
  else
    state

/-- The ids in the order in which the depth-first forest finishes them. -/
def postorder (g : DependencyGraph) : List Nat :=
  (g.ids.foldl g.startFrom (g.nodes.keySet, [])).2.reverse

/-- The graph with the postorder numbers written into its nodes. -/
def numbered (g : DependencyGraph) : DependencyGraph :=
  let order := g.postorder
  ⟨g.nodes.filterMap fun id node =>
    some { node with postorder := (order.idxOf? id).map (· + 1) }⟩

/-- One line for each node: its id and its number. -/
def postorderListing (g : DependencyGraph) : String :=
  String.join (g.numbered.nodes.values.map fun node =>
    "R" ++ toString node.id ++ ": " ++ toString (node.postorder.getD 0) ++ "\n")

end DependencyGraph

end Postorder

end Datalog
