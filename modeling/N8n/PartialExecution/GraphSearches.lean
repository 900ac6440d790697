import N8n.Library.Closure
import N8n.PartialExecution.DirectedGraph

/-! The nodes below a node of the graph and the connections above it
(`getChildren` and `getParentConnections` in `directed-graph.ts`).
-/

namespace N8n.PartialExecution

open DepthFirst (Reaches)
open Library

namespace DirectedGraph

/-- Every call below another one has added a node, so `fuel` need not exceed the number of
connections.
-/
def getChildrenRecursive (graph : DirectedGraph)
    : Nat → INode → List INode → Except JsError (List INode)
  | 0, _, children => .ok children
  | fuel + 1, node, children => do
      let directChildren ← graph.getDirectChildConnections node
      directChildren.foldlM
        (fun children directChild =>
          if directChild.toNode ∈ children then return children
          else
            getChildrenRecursive graph fuel directChild.toNode
              (children ++ [directChild.toNode]))
        children

def getChildren (graph : DirectedGraph) (node : INode) : Except JsError (List INode) :=
  graph.getChildrenRecursive (graph.connections.values.length + 1) node []

/-- Every call below another one has added a connection. -/
def getParentConnectionsRecursive (graph : DirectedGraph)
    : Nat → INode → List GraphConnection → Except JsError (List GraphConnection)
  | 0, _, connections => .ok connections
  | fuel + 1, node, connections => do
      let parentConnections ← graph.getDirectParentConnections node
      parentConnections.foldlM
        (fun connections connection =>
          if connection ∈ connections then return connections
          else
            getParentConnectionsRecursive graph fuel connection.fromNode
              (connections ++ [connection]))
        connections

def getParentConnections (graph : DirectedGraph) (node : INode)
    : Except JsError (List GraphConnection) :=
  graph.getParentConnectionsRecursive (graph.connections.values.length + 1) node []

/-- A connection of the graph leads from the one node to the other. -/
def Connected (graph : DirectedGraph) (source target : INode) : Prop :=
  ∃ connection ∈ graph.connections.values,
    connection.fromNode = source ∧ connection.toNode = target

/-- Connections lead from the one node to the other, or they are the same. -/
def Leads (graph : DirectedGraph) : INode → INode → Prop :=
  Relation.ReflTransGen graph.Connected

/-- A connection of a type other than `main` leads from the one node to the other. -/
def Serves (graph : DirectedGraph) (source target : INode) : Prop :=
  ∃ connection ∈ graph.connections.values,
    connection.type ≠ .main ∧ connection.fromNode = source ∧ connection.toNode = target

/-- The node is a sub-node of `root`: a chain of non-main connections attaches it. -/
def SubNode (graph : DirectedGraph) (node root : INode) : Prop :=
  Relation.TransGen graph.Serves node root

variable {graph : DirectedGraph} {node source target : INode}

theorem leads_of_serves (chain : Relation.ReflTransGen graph.Serves source target)
    : graph.Leads source target := by
  induction chain with
  | refl => exact .refl
  | tail _ serves ih =>
      obtain ⟨connection, here, _, ends⟩ := serves
      exact ih.tail ⟨connection, here, ends⟩

theorem WellFormed.connected_mem (wellFormed : graph.WellFormed)
    (connected : graph.Connected source target)
    : source ∈ graph.nodes.values ∧ target ∈ graph.nodes.values := by
  obtain ⟨connection, here, rfl, rfl⟩ := connected
  exact ⟨wellFormed.fromExists connection here, wellFormed.toExists connection here⟩

theorem WellFormed.leads_mem (wellFormed : graph.WellFormed)
    (leads : graph.Leads source target) (inside : source ∈ graph.nodes.values)
    : target ∈ graph.nodes.values := by
  induction leads with
  | refl => exact inside
  | tail _ connected _ => exact (wellFormed.connected_mem connected).2

/-- The nodes that the connections out of a node enter. -/
def childrenOf (graph : DirectedGraph) (node : INode) : List INode :=
  (graph.connections.values.filter (fun connection => connection.fromNode = node)).map
    GraphConnection.toNode

def connectionsInto (graph : DirectedGraph) (node : INode) : List GraphConnection :=
  graph.connections.values.filter (fun connection => connection.toNode = node)

theorem mem_childrenOf : target ∈ graph.childrenOf source ↔ graph.Connected source target := by
  simp [childrenOf, Connected, and_assoc]

theorem mem_connectionsInto {connection : GraphConnection}
    : connection ∈ graph.connectionsInto node
      ↔ connection ∈ graph.connections.values ∧ connection.toNode = node := by
  simp [connectionsInto]

section

variable (wellFormed : graph.WellFormed) (inside : node ∈ graph.nodes.values)

include wellFormed inside

theorem WellFormed.getDirectChildConnections
    : graph.getDirectChildConnections node
      = .ok (graph.connections.values.filter
          (fun connection => connection.fromNode = node)) := by
  simp only [DirectedGraph.getDirectChildConnections, ok, wellFormed.nodeExists_iff.mpr inside]
  rfl

theorem WellFormed.getDirectParentConnections
    : graph.getDirectParentConnections node = .ok (graph.connectionsInto node) := by
  simp only [DirectedGraph.getDirectParentConnections, ok, wellFormed.nodeExists_iff.mpr inside]
  rfl

theorem WellFormed.getChildrenRecursive (fuel : Nat) (children : List INode)
    : graph.getChildrenRecursive fuel node children
      = .ok (explore graph.childrenOf id fuel node children) := by
  induction fuel generalizing node children with
  | zero => rfl
  | succ fuel ih =>
      rw [DirectedGraph.getChildrenRecursive, wellFormed.getDirectChildConnections inside,
        explore_succ, childrenOf, List.foldl_map]
      apply Exec.foldlM_eq_ok
      intro connection member children
      unfold exploreEdge
      split
      · rfl
      · exact ih (wellFormed.toExists connection (List.mem_filter.mp member).1) _

theorem WellFormed.getParentConnectionsRecursive (fuel : Nat) (connections : List GraphConnection)
    : graph.getParentConnectionsRecursive fuel node connections
      = .ok (explore graph.connectionsInto GraphConnection.fromNode fuel node
          connections) := by
  induction fuel generalizing node connections with
  | zero => rfl
  | succ fuel ih =>
      rw [DirectedGraph.getParentConnectionsRecursive,
        wellFormed.getDirectParentConnections inside, explore_succ]
      apply Exec.foldlM_eq_ok
      intro connection member connections
      unfold exploreEdge
      split
      · rfl
      · exact ih (wellFormed.fromExists connection (mem_connectionsInto.mp member).1) _

end

theorem reaches_childrenOf
    : Reaches graph.childrenOf source target ↔ graph.Leads source target := by
  have same : (fun source target => target ∈ graph.childrenOf source) = graph.Connected := by
    funext source target
    exact propext mem_childrenOf
  unfold Reaches Leads
  rw [same]

theorem reaches_connectionsInto
    : Reaches (fun node => (graph.connectionsInto node).map GraphConnection.fromNode)
        target source
      ↔ graph.Leads source target := by
  have same : (fun target source =>
      source ∈ (graph.connectionsInto target).map GraphConnection.fromNode)
      = Function.swap graph.Connected := by
    funext target source
    simp [mem_connectionsInto, Connected, Function.swap, and_comm, and_assoc]
  unfold Reaches Leads
  rw [same, Relation.reflTransGen_swap]

section

variable (wellFormed : graph.WellFormed) (inside : node ∈ graph.nodes.values)

include wellFormed inside

/-- `getChildren` answers the nodes that at least one connection leads to. -/
theorem WellFormed.getChildren
    : ∃ children, graph.getChildren node = .ok children
        ∧ ∀ child, child ∈ children ↔ Relation.TransGen graph.Connected node child := by
  refine ⟨_, wellFormed.getChildrenRecursive inside _ [], ?_⟩
  intro child
  have finite : ∀ node, ∀ child ∈ graph.childrenOf node,
      child ∈ (graph.connections.values.map GraphConnection.toNode).toFinset := by
    intro node child member
    obtain ⟨connection, here, _, rfl⟩ := mem_childrenOf.mp member
    exact List.mem_toFinset.mpr (List.mem_map_of_mem here)
  have few := List.toFinset_card_le (graph.connections.values.map GraphConnection.toNode)
  rw [List.length_map] at few
  rw [mem_explore_iff finite (by omega), Relation.TransGen.tail'_iff]
  simp only [List.map_id, mem_childrenOf]
  exact exists_congr fun parent => and_congr_left' reaches_childrenOf

/-- `getParentConnections` answers the connections from whose target a path leads to the
node.
-/
theorem WellFormed.getParentConnections
    : ∃ connections, graph.getParentConnections node = .ok connections
        ∧ ∀ connection, connection ∈ connections
            ↔ connection ∈ graph.connections.values ∧ graph.Leads connection.toNode node := by
  refine ⟨_, wellFormed.getParentConnectionsRecursive inside _ [], ?_⟩
  intro connection
  have finite : ∀ node, ∀ connection ∈ graph.connectionsInto node,
      connection ∈ graph.connections.values.toFinset := by
    intro node connection member
    exact List.mem_toFinset.mpr (mem_connectionsInto.mp member).1
  have few := List.toFinset_card_le graph.connections.values
  rw [mem_explore_iff finite (by omega)]
  simp only [mem_connectionsInto, reaches_connectionsInto]
  constructor
  · rintro ⟨_, leads, here, rfl⟩
    exact ⟨here, leads⟩
  · rintro ⟨here, leads⟩
    exact ⟨_, leads, here, rfl⟩

end

end DirectedGraph

end N8n.PartialExecution
