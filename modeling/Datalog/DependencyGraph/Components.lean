import Datalog.DependencyGraph.Postorder

/-!
# Strongly connected components

**Algorithm.** The reversed graph is numbered in postorder.  In descending order of the numbers,
each node that no component has claimed yet is the root of the next one, which consists of the
unclaimed nodes that can be reached from the root in the graph itself.

**Order.** A component comes after every component that its rules read from.  The order in which its
own nodes are visited does not matter, as they are collected in a set.
-/

namespace Datalog

section Components

namespace DependencyGraph

/-- Collects what can be reached from the stack through unclaimed nodes.  Gives the collected
nodes and those that are still unclaimed. -/
def collect
    (g : DependencyGraph) (members unclaimed : OrderedSet Nat) :
    List Nat → OrderedSet Nat × OrderedSet Nat
  | [] => (members, unclaimed)
  | current :: stack =>
      let targets := g.successors current
      collect g (members.insert current)
        (unclaimed.filter fun id => !targets.contains id)
        ((unclaimed.filter fun id => targets.contains id).toList ++ stack)
termination_by stack => unclaimed.size + stack.length
decreasing_by
  have hsplit :=
    OrderedSet.size_filter_add_size_filter_not
      (fun id => (g.successors current).contains id) unclaimed
  simp only [OrderedSet.size, List.length_append, List.length_cons] at hsplit ⊢
  omega

/-- A component: the node it was found from and all its members. -/
structure Component where
  root : Nat
  members : OrderedSet Nat

/-- The components found from a list of roots; a root that is claimed already is passed over. -/
def componentsFrom (g : DependencyGraph) (unclaimed : OrderedSet Nat) : List Nat → List Component
  | [] => []
  | root :: rest =>
      if root ∈ unclaimed then
        let (members, remaining) := g.collect ∅ (unclaimed.erase root) [root]
        ⟨root, members⟩ :: componentsFrom g remaining rest
      else
        componentsFrom g unclaimed rest

/-- The strongly connected components, each after those it reads from. -/
def components (g : DependencyGraph) : List Component :=
  g.componentsFrom g.nodes.keySet g.invert.postorder.reverse

/-- The components as graphs of their own. -/
def componentGraphs (g : DependencyGraph) : List DependencyGraph :=
  g.components.map fun component => g.subgraph component.members

/-- The events of finding the components. -/
def componentEvents (g : DependencyGraph) : List Event :=
  g.components.map fun component => .component component.root component.members.size

end DependencyGraph

end Components

end Datalog
