import Datalog.Event
import Datalog.OrderedMap
import Datalog.Program

/-!
# The dependency graph of rules

**Type.** Each node wraps one rule instance.  An edge from `a` to `b` means that a body predicate
of the rule at `a` reads the relation that the rule at `b` derives.  Two rules of the same text
are two instances, hence two nodes.

**Operations.** The graph of a list of rules, adding a node or an edge, reversal, and the subgraph
of a set of ids.  Ids are never handed out twice: a new node takes the number after the last one.
-/

namespace Datalog

section DependencyGraph

/-- One rule of a list of rules: its text alone does not tell it from an equal one. -/
structure RuleInstance where
  index : Nat
  rule : Rule
deriving DecidableEq, Repr

namespace RuleInstance

/-- The rules of a list as instances. -/
def ofRules (rules : List Rule) : List RuleInstance :=
  rules.zipIdx.map fun (rule, index) => ⟨index, rule⟩

/-- Whether some body predicate of `reader` names the relation of the head of `writer`. -/
def Reads (reader writer : RuleInstance) : Prop :=
  ∃ predicate ∈ reader.rule.body, predicate.name = writer.rule.head.name

end RuleInstance

/-- A rule instance with the targets of its edges. -/
structure Node where
  id : Nat
  rule : RuleInstance
  /-- The rule instance at the end of each edge, by id. -/
  adjacency : OrderedMap Nat RuleInstance
  /-- The finish number of the last postorder traversal, starting at one. -/
  postorder : Option Nat
deriving DecidableEq

/-- A node without edges. -/
def Node.isolated (id : Nat) (rule : RuleInstance) : Node :=
  ⟨id, rule, ∅, none⟩

/-- Nodes by id. -/
structure DependencyGraph where
  nodes : OrderedMap Nat Node
deriving DecidableEq

namespace DependencyGraph

/-- The graph without nodes. -/
def empty : DependencyGraph :=
  ⟨∅⟩

/-- The number of nodes. -/
def size (g : DependencyGraph) : Nat :=
  g.nodes.size

/-- The ids of the nodes, ascending. -/
def ids (g : DependencyGraph) : List Nat :=
  g.nodes.keys

/-- The node with an id. -/
def node? (g : DependencyGraph) (id : Nat) : Option Node :=
  g.nodes.get? id

/-- Whether there is a node with this id. -/
def contains (g : DependencyGraph) (id : Nat) : Bool :=
  g.nodes.contains id

/-- Whether there is an edge between two ids. -/
def hasEdge (g : DependencyGraph) (source target : Nat) : Bool :=
  match g.node? source with
  | none => false
  | some node => node.adjacency.contains target

/-- The targets of the edges of a node that are nodes themselves, ascending. -/
def successors (g : DependencyGraph) (id : Nat) : List Nat :=
  match g.node? id with
  | none => []
  | some node => node.adjacency.keys.filter g.contains

/-- Whether the rules must be repeated until nothing changes: there is more than one rule, or the
only one reads its own head. -/
def isRecursive (g : DependencyGraph) : Bool :=
  1 < g.size || g.ids.any fun id => g.hasEdge id id

/-- The ids as `R0,R1`. -/
def memberList (g : DependencyGraph) : String :=
  ruleList g.ids

/-- One line for each node: its id, a colon and the targets of its edges. -/
def text (g : DependencyGraph) : String :=
  String.join (g.nodes.values.map fun node =>
    "R" ++ toString node.id ++ ":" ++ ruleList node.adjacency.keys ++ "\n")

section Growth

/-- The id of the node that wraps a rule instance. -/
def idOf? (g : DependencyGraph) (rule : RuleInstance) : Option Nat :=
  (g.nodes.values.find? fun node => node.rule = rule).map Node.id

/-- The number after the last id. -/
def nextId (g : DependencyGraph) : Nat :=
  match g.ids.getLast? with
  | none => 0
  | some last => last + 1

/-- The graph with a node for the rule instance, and the id of that node. -/
def register (g : DependencyGraph) (rule : RuleInstance) : DependencyGraph × Nat :=
  match g.idOf? rule with
  | some id => (g, id)
  | none => (⟨g.nodes.insert g.nextId (Node.isolated g.nextId rule)⟩, g.nextId)

/-- Adds an edge between two ids; the flag says whether it is new. -/
def addEdge
    (g : DependencyGraph) (source target : Nat) (rule : RuleInstance) :
    DependencyGraph × Bool :=
  match g.node? source with
  | none => (g, false)
  | some node =>
      (⟨g.nodes.insert source { node with adjacency := node.adjacency.insert target rule }⟩,
        !node.adjacency.contains target)

/-- Adds the edge from `parent` to `child`, with their nodes where they are missing.  Without a
child, only makes sure that `parent` has a node.  The flag says whether the graph changed. -/
def addDependency
    (g : DependencyGraph) (parent : RuleInstance) (child : Option RuleInstance) :
    DependencyGraph × Bool :=
  let (withParent, source) := g.register parent
  match child with
  | none => (withParent, g.size < withParent.size)
  | some rule =>
      let (withChild, target) := withParent.register rule
      let (result, added) := withChild.addEdge source target rule
      (result, added || g.size < withChild.size)

/-- The dependencies of a list of rule instances: for each body predicate an edge to every
instance that derives the relation it names. -/
def dependencies (rules : List RuleInstance) : List (RuleInstance × RuleInstance) :=
  rules.flatMap fun reader =>
    reader.rule.body.flatMap fun predicate =>
      (rules.filter fun writer => writer.rule.head.name == predicate.name).map fun writer =>
        (reader, writer)

/-- The graph of a list of rules.  All rules get their nodes first, so that ids are indices. -/
def ofRules (rules : List Rule) : DependencyGraph :=
  let instances := RuleInstance.ofRules rules
  let isolated := instances.foldl (fun g rule => (g.addDependency rule none).1) empty
  (dependencies instances).foldl
    (fun g (reader, writer) => (g.addDependency reader (some writer)).1) isolated

end Growth

section Derived

/-- The same nodes with every edge reversed. -/
def invert (g : DependencyGraph) : DependencyGraph :=
  ⟨g.nodes.filterMap fun id node =>
    some
      { Node.isolated id node.rule with
        adjacency := g.nodes.filterMap fun _ source =>
          if source.adjacency.contains id then some source.rule else none }⟩

/-- The nodes with an id in the set, and the edges between them. -/
def subgraph (g : DependencyGraph) (members : OrderedSet Nat) : DependencyGraph :=
  ⟨g.nodes.filterMap fun id node =>
    if members.contains id then
      some
        { Node.isolated id node.rule with
          adjacency := node.adjacency.filterMap fun target rule =>
            if members.contains target then some rule else none }
    else
      none⟩

end Derived

end DependencyGraph

end DependencyGraph

end Datalog
