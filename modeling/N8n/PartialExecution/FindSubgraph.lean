import N8n.Library.BackwardTrails
import N8n.PartialExecution.GraphSearches

/-! The part of the graph that a partial execution needs
(`packages/core/src/execution-engine/partial-execution-utils/find-subgraph.ts`).
-/

namespace N8n.PartialExecution

open Library

/-- A connection as an argument of `addConnection`. -/
def GraphConnection.toInput (connection : GraphConnection) : ConnectionInput where
  fromNode := connection.fromNode
  toNode := connection.toNode
  type := some connection.type
  outputIndex := some connection.outputIndex
  inputIndex := some connection.inputIndex

/-- `newGraph.addNodes(connection.from, connection.to); newGraph.addConnection(connection)`. -/
def addWithNodes (newGraph : DirectedGraph) (connection : GraphConnection)
    : Except JsError DirectedGraph :=
  (newGraph.addNodes [connection.fromNode, connection.toNode]).addConnection
    connection.toInput

/-- A branch enters no node twice before it is kept or dropped, so `fuel` need not exceed
the number of nodes.
-/
def findSubgraphRecursive (graph : DirectedGraph) (destinationNode trigger : INode)
    : Nat → INode → DirectedGraph → List GraphConnection → Except JsError DirectedGraph
  | 0, _, newGraph, _ => .ok newGraph
  | fuel + 1, current, newGraph, currentBranch => do
      if current = trigger then
        currentBranch.foldlM addWithNodes (newGraph.addNode trigger)
      else
        let parentConnections ← graph.getDirectParentConnections current
        if parentConnections.length = 0 then return newGraph
        let isCycleWithDestinationNode :=
          current = destinationNode && currentBranch.any (fun c => c.toNode = destinationNode)
        if isCycleWithDestinationNode then return newGraph
        let isCycleWithCurrentNode := currentBranch.any (fun c => c.toNode = current)
        if isCycleWithCurrentNode then currentBranch.foldlM addWithNodes newGraph
        else
          parentConnections.foldlM
            (fun newGraph parentConnection =>
              if parentConnection.type ≠ .main then return newGraph
              else
                findSubgraphRecursive graph destinationNode trigger fuel
                  parentConnection.fromNode newGraph (currentBranch ++ [parentConnection]))
            newGraph

/-- Adds the connections of other types above a node of the subgraph. -/
def addSubNodes (graph subgraph : DirectedGraph) (node : INode)
    : Except JsError DirectedGraph := do
  let parentConnections ← graph.getParentConnections node
  parentConnections.foldlM
    (fun subgraph connection =>
      if connection.type = .main then return subgraph else addWithNodes subgraph connection)
    subgraph

def findSubgraph (graph : DirectedGraph) (destination trigger : INode)
    : Except JsError DirectedGraph := do
  let subgraph ← findSubgraphRecursive graph destination trigger
    (graph.nodes.values.length + 1) destination .empty []
  subgraph.nodes.values.foldlM (addSubNodes graph) subgraph

/-! ### Parts of a graph -/

namespace DirectedGraph

/-- `newGraph` is the part of the graph with these nodes and connections. -/
structure IsPart (graph newGraph : DirectedGraph) (nodes : Set INode)
    (connections : Set GraphConnection)
    : Prop where
  nodesKeyed : newGraph.nodes.KeyedBy INode.name
  connectionsKeyed : newGraph.connections.KeyedBy makeKey
  mem_nodes : ∀ node, node ∈ newGraph.nodes.values ↔ node ∈ nodes
  mem_connections : ∀ connection,
    connection ∈ newGraph.connections.values ↔ connection ∈ connections
  ofNodes : ∀ node ∈ nodes, node ∈ graph.nodes.values
  ofConnections : ∀ connection ∈ connections, connection ∈ graph.connections.values

variable {graph newGraph : DirectedGraph} {nodes : Set INode}
  {connections : Set GraphConnection} {node : INode} {connection : GraphConnection}

theorem IsPart.empty (graph : DirectedGraph) : graph.IsPart .empty ∅ ∅ where
  nodesKeyed := Dict.KeyedBy.empty
  connectionsKeyed := Dict.KeyedBy.empty
  mem_nodes := by simp [DirectedGraph.empty, Dict.values, Dict.empty]
  mem_connections := by simp [DirectedGraph.empty, Dict.values, Dict.empty]
  ofNodes := by simp
  ofConnections := by simp

theorem IsPart.congr {nodes' : Set INode} {connections' : Set GraphConnection}
    (part : graph.IsPart newGraph nodes connections) (sameNodes : nodes = nodes')
    (sameConnections : connections = connections')
    : graph.IsPart newGraph nodes' connections' :=
  sameNodes ▸ sameConnections ▸ part

section

variable (wellFormed : graph.WellFormed) (part : graph.IsPart newGraph nodes connections)

include wellFormed part

theorem IsPart.addNode (inside : node ∈ graph.nodes.values)
    : graph.IsPart (newGraph.addNode node) (nodes ∪ {node}) connections where
  nodesKeyed := part.nodesKeyed.set node
  connectionsKeyed := part.connectionsKeyed
  mem_nodes other := by
    have subset : ∀ node ∈ newGraph.nodes.values, node ∈ graph.nodes.values :=
      fun node member => part.ofNodes node ((part.mem_nodes node).mp member)
    rw [DirectedGraph.addNode,
      part.nodesKeyed.mem_values_set_of_subset wellFormed.nodesKeyed subset inside,
      part.mem_nodes]
    rfl
  mem_connections := part.mem_connections
  ofNodes other member := by
    rcases member with old | rfl
    · exact part.ofNodes other old
    · exact inside
  ofConnections := part.ofConnections

theorem IsPart.addConnection (inside : connection ∈ graph.connections.values)
    (fromNode : connection.fromNode ∈ nodes) (toNode : connection.toNode ∈ nodes)
    : ∃ result,
        newGraph.addConnection connection.toInput = .ok result
        ∧ graph.IsPart result nodes (connections ∪ {connection}) := by
  have exists_ : ∀ node ∈ nodes, newGraph.nodeExists node = true := by
    intro node member
    have present := (part.mem_nodes node).mpr member
    simpa [nodeExists] using part.nodesKeyed.mem_values.mp present
  have subset : ∀ other ∈ newGraph.connections.values, other ∈ graph.connections.values :=
    fun other member => part.ofConnections other ((part.mem_connections other).mp member)
  refine ⟨⟨newGraph.nodes, newGraph.connections.set (makeKey connection) connection⟩, ?_, ?_⟩
  · simp only [DirectedGraph.addConnection, GraphConnection.toInput, ok, exists_ _ fromNode,
      exists_ _ toNode]
    rfl
  · refine ⟨part.nodesKeyed, part.connectionsKeyed.set connection, part.mem_nodes, ?_,
      part.ofNodes, ?_⟩
    · intro other
      rw [part.connectionsKeyed.mem_values_set_of_subset wellFormed.connectionsKeyed subset
        inside, part.mem_connections]
      rfl
    · rintro other (old | rfl)
      · exact part.ofConnections other old
      · exact inside

end

/-- The nodes at the ends of a connection. -/
def ends (connection : GraphConnection) : Set INode := {connection.fromNode, connection.toNode}

theorem IsPart.addWithNodes (wellFormed : graph.WellFormed)
    (part : graph.IsPart newGraph nodes connections)
    (inside : connection ∈ graph.connections.values)
    : ∃ result,
        addWithNodes newGraph connection = .ok result
        ∧ graph.IsPart result (nodes ∪ ends connection) (connections ∪ {connection}) := by
  have withFrom := part.addNode wellFormed (wellFormed.fromExists connection inside)
  have withBoth := withFrom.addNode wellFormed (wellFormed.toExists connection inside)
  rw [Set.union_assoc] at withBoth
  exact withBoth.addConnection wellFormed inside (by simp [ends]) (by simp [ends])

/-- What each turn of a loop adds to a part is in the part after the loop, by induction on
the items.
-/
theorem IsPart.foldlM {ι : Type} {step : DirectedGraph → ι → Except JsError DirectedGraph}
    {addedNodes : ι → Set INode} {addedConnections : ι → Set GraphConnection} {items : List ι}
    (steps : ∀ item ∈ items, ∀ newGraph nodes connections,
      graph.IsPart newGraph nodes connections
      → ∃ result,
          step newGraph item = .ok result
          ∧ graph.IsPart result (nodes ∪ addedNodes item)
              (connections ∪ addedConnections item))
    (part : graph.IsPart newGraph nodes connections)
    : ∃ result,
        items.foldlM step newGraph = .ok result
        ∧ graph.IsPart result (nodes ∪ {node | ∃ item ∈ items, node ∈ addedNodes item})
            (connections
              ∪ {connection | ∃ item ∈ items, connection ∈ addedConnections item}) := by
  induction items generalizing newGraph nodes connections with
  | nil => exact ⟨newGraph, rfl, part.congr (by simp) (by simp)⟩
  | cons item rest ih =>
      obtain ⟨between, taken, grown⟩ := steps item (.head _) _ _ _ part
      obtain ⟨result, ran, whole⟩ :=
        ih (fun other member => steps other (.tail _ member)) grown
      refine ⟨result, ?_, whole.congr ?_ ?_⟩
      · rw [List.foldlM_cons, taken]
        exact ran
      · ext node
        simp [or_assoc]
      · ext connection
        simp [or_assoc]

/-! ### The branches that are kept -/

section Search

variable (graph : DirectedGraph) (destination trigger : INode)

def Main (connection : GraphConnection) : Prop :=
  connection ∈ graph.connections.values ∧ connection.type = .main

/-- The search has come along the branch to the node and has not had to stop before. -/
abbrev Branch : List GraphConnection → INode → Prop :=
  Trail GraphConnection.fromNode GraphConnection.toNode graph.Main destination trigger

/-- A branch that the search keeps, after it has come along `branch`. -/
structure KeptBranch (branch kept : List GraphConnection) (last : INode) : Prop where
  isPrefix : branch <+: kept
  isBranch : graph.Branch destination trigger kept last
  ended : Ended GraphConnection.toNode destination trigger kept last

def keptNodes (branch : List GraphConnection) : Set INode :=
  {node | ∃ kept last, graph.KeptBranch destination trigger branch kept last
    ∧ (node = last ∨ ∃ connection ∈ kept, node ∈ ends connection)}

def keptConnections (branch : List GraphConnection) : Set GraphConnection :=
  {connection | ∃ kept last, graph.KeptBranch destination trigger branch kept last
    ∧ connection ∈ kept}

variable {graph destination trigger}
  {branch kept : List GraphConnection} {current last : INode}

theorem branch_mem (wellFormed : graph.WellFormed) (inside : destination ∈ graph.nodes.values)
    (way : graph.Branch destination trigger branch current)
    : current ∈ graph.nodes.values := by
  cases way with
  | nil => exact inside
  | snoc _ here _ _ => exact wellFormed.fromExists _ here.1

/-- A branch that has ended is kept as it is. -/
theorem keptBranch_of_ended (way : graph.Branch destination trigger branch current)
    (ended : Ended GraphConnection.toNode destination trigger branch current)
    : graph.KeptBranch destination trigger branch kept last
      ↔ kept = branch ∧ last = current := by
  constructor
  · intro keeps
    have stops := ended.imp_right And.right
    obtain rfl := way.eq_of_prefix stops keeps.isBranch keeps.isPrefix
    exact ⟨rfl, keeps.isBranch.last_unique way⟩
  · rintro ⟨rfl, rfl⟩
    exact ⟨List.prefix_refl _, way, ended⟩

theorem not_keptBranch_of_cycle (way : graph.Branch destination trigger branch destination)
    (notTrigger : destination ≠ trigger)
    (again : destination ∈ branch.map GraphConnection.toNode)
    : ¬ graph.KeptBranch destination trigger branch kept last := by
  intro keeps
  obtain rfl := way.eq_of_prefix (.inr again) keeps.isBranch keeps.isPrefix
  obtain rfl := keeps.isBranch.last_unique way
  rcases keeps.ended with isTrigger | ⟨away, _⟩
  · exact notTrigger isTrigger
  · exact away rfl

section

variable (way : graph.Branch destination trigger branch current)

include way

/-- From a node without parents, no branch is kept: it cannot lie on a loop. -/
theorem not_keptBranch_of_noParents (notTrigger : current ≠ trigger)
    (noParents : (graph.connectionsInto current).length = 0) (kept : List GraphConnection)
    (last : INode)
    : ¬ graph.KeptBranch destination trigger branch kept last := by
  have none : ∀ connection, ¬ (graph.Main connection ∧ connection.toNode = current) := by
    rintro connection ⟨main, into⟩
    have member := mem_connectionsInto.mpr ⟨main.1, into⟩
    rw [List.length_eq_zero_iff.mp noParents] at member
    contradiction
  intro keeps
  obtain ⟨rest, rfl⟩ := keeps.isPrefix
  cases rest with
  | nil =>
      rw [List.append_nil] at keeps
      obtain rfl := keeps.isBranch.last_unique way
      rcases keeps.ended with isTrigger | ⟨_, again⟩
      · exact notTrigger isTrigger
      · obtain ⟨connection, member, into⟩ := List.mem_map.mp again
        exact none connection ⟨(way.edges connection member).1, into⟩
  | cons connection rest =>
      obtain ⟨before, main, _, _⟩ := keeps.isBranch.split
      exact none connection ⟨main, before.last_unique way⟩

/-- A branch that has not ended is continued by the main connections into its node. -/
theorem keptBranch_iff
    (notEnded : ¬ Ended GraphConnection.toNode destination trigger branch current)
    : graph.KeptBranch destination trigger branch kept last
      ↔ ∃ connection ∈ graph.connectionsInto current,
          connection.type = .main
          ∧ graph.KeptBranch destination trigger (branch ++ [connection]) kept last := by
  constructor
  · intro keeps
    obtain ⟨rest, rfl⟩ := keeps.isPrefix
    cases rest with
    | nil =>
        rw [List.append_nil] at keeps
        obtain rfl := keeps.isBranch.last_unique way
        exact absurd keeps.ended notEnded
    | cons connection rest =>
        obtain ⟨before, ⟨here, isMain⟩, _, _⟩ := keeps.isBranch.split
        have same := before.last_unique way
        refine ⟨connection, mem_connectionsInto.mpr ⟨here, same⟩, isMain, ?_,
          keeps.isBranch, keeps.ended⟩
        exact ⟨rest, by simp⟩
  · rintro ⟨connection, _, _, keeps⟩
    exact ⟨(List.prefix_append _ _).trans keeps.isPrefix, keeps.isBranch, keeps.ended⟩

end

theorem any_toNode {node : INode}
    : (branch.any (fun c => c.toNode = node)) = true
      ↔ node ∈ branch.map GraphConnection.toNode := by
  simp [List.any_eq_true, List.mem_map]

section

variable (way : graph.Branch destination trigger branch current)
  (ended : Ended GraphConnection.toNode destination trigger branch current)

include way ended

/-- What the search adds when it comes to the end of a branch. -/
theorem keptNodes_of_ended
    : graph.keptNodes destination trigger branch
        = {current} ∪ {node | ∃ connection ∈ branch, node ∈ ends connection} := by
  ext node
  simp only [keptNodes, keptBranch_of_ended way ended, Set.mem_ofPred_eq, Set.mem_union,
    Set.mem_singleton_iff]
  constructor
  · rintro ⟨_, _, ⟨rfl, rfl⟩, added⟩
    exact added
  · intro added
    exact ⟨branch, current, ⟨rfl, rfl⟩, added⟩

theorem keptConnections_of_ended
    : graph.keptConnections destination trigger branch
      = {connection | connection ∈ branch} := by
  ext connection
  simp only [keptConnections, keptBranch_of_ended way ended, Set.mem_ofPred_eq]
  constructor
  · rintro ⟨_, _, ⟨rfl, rfl⟩, member⟩
    exact member
  · intro member
    exact ⟨branch, current, ⟨rfl, rfl⟩, member⟩

end

section

variable (way : graph.Branch destination trigger branch current)
  (notEnded : ¬ Ended GraphConnection.toNode destination trigger branch current)

include way notEnded

/-- Of a branch that has not ended that is kept which is kept of it with one more connection. -/
theorem exists_kept_iff (added : List GraphConnection → INode → Prop)
    : (∃ kept last, graph.KeptBranch destination trigger branch kept last ∧ added kept last)
      ↔ ∃ connection ∈ graph.connectionsInto current,
          connection.type = .main
          ∧ ∃ kept last,
              graph.KeptBranch destination trigger (branch ++ [connection]) kept last
              ∧ added kept last := by
  simp only [keptBranch_iff way notEnded]
  constructor
  · rintro ⟨kept, last, ⟨connection, member, isMain, keeps⟩, isAdded⟩
    exact ⟨connection, member, isMain, kept, last, keeps, isAdded⟩
  · rintro ⟨connection, member, isMain, kept, last, keeps, isAdded⟩
    exact ⟨kept, last, ⟨connection, member, isMain, keeps⟩, isAdded⟩

theorem keptNodes_of_not_ended
    : graph.keptNodes destination trigger branch
        = {node | ∃ connection ∈ graph.connectionsInto current,
            connection.type = .main
            ∧ node ∈ graph.keptNodes destination trigger (branch ++ [connection])} := by
  ext node
  exact exists_kept_iff way notEnded _

theorem keptConnections_of_not_ended
    : graph.keptConnections destination trigger branch
        = {other | ∃ connection ∈ graph.connectionsInto current,
            connection.type = .main
            ∧ other ∈ graph.keptConnections destination trigger (branch ++ [connection])} := by
  ext other
  exact exists_kept_iff way notEnded _

end

theorem IsPart.of_none (part : graph.IsPart newGraph nodes connections)
    (none : ∀ kept last, ¬ graph.KeptBranch destination trigger branch kept last)
    : graph.IsPart newGraph (nodes ∪ graph.keptNodes destination trigger branch)
        (connections ∪ graph.keptConnections destination trigger branch) := by
  apply part.congr
  · simp [keptNodes, none]
  · simp [keptConnections, none]

theorem IsPart.keepBranch (wellFormed : graph.WellFormed)
    (part : graph.IsPart newGraph nodes connections)
    (way : graph.Branch destination trigger branch current)
    : ∃ result,
        branch.foldlM PartialExecution.addWithNodes newGraph = .ok result
        ∧ graph.IsPart result
            (nodes ∪ {node | ∃ connection ∈ branch, node ∈ ends connection})
            (connections ∪ {connection | connection ∈ branch}) := by
  have turn (connection : GraphConnection) (member : connection ∈ branch)
      (newGraph : DirectedGraph) (nodes : Set INode) (connections : Set GraphConnection)
      (part : graph.IsPart newGraph nodes connections) :=
    part.addWithNodes wellFormed (way.edges connection member).1.1
  obtain ⟨result, ran, grown⟩ := part.foldlM turn
  exact ⟨result, ran, grown.congr rfl (by simp)⟩

/-- The search adds the branches that are kept, by induction on the fuel and, at a node where
no branch ends, along the loop over its main connections.
-/
theorem findSubgraphRecursive_part (wellFormed : graph.WellFormed)
    (inside : destination ∈ graph.nodes.values) (fuel : Nat)
    (enough : graph.nodes.values.length < fuel + branch.length)
    (way : graph.Branch destination trigger branch current)
    (part : graph.IsPart newGraph nodes connections)
    : ∃ result,
        findSubgraphRecursive graph destination trigger fuel current newGraph branch
          = .ok result
        ∧ graph.IsPart result (nodes ∪ graph.keptNodes destination trigger branch)
            (connections ∪ graph.keptConnections destination trigger branch) := by
  induction fuel generalizing branch current newGraph nodes connections with
  | zero =>
      have few := way.length_le (fun connection main => wellFormed.toExists connection main.1)
      omega
  | succ fuel ih =>
      rw [findSubgraphRecursive]
      by_cases isTrigger : current = trigger
      · obtain ⟨result, ran, grown⟩ := (part.addNode wellFormed (isTrigger ▸
          branch_mem wellFormed inside way)).keepBranch wellFormed way
        refine ⟨result, by rw [if_pos isTrigger]; exact ran, grown.congr ?_ ?_⟩
        · rw [keptNodes_of_ended way (.inl isTrigger), isTrigger, Set.union_assoc]
        · rw [keptConnections_of_ended way (.inl isTrigger)]
      rw [if_neg isTrigger, wellFormed.getDirectParentConnections
        (branch_mem wellFormed inside way)]
      simp only [bind, Except.bind, Bool.and_eq_true, decide_eq_true_eq, any_toNode]
      by_cases noParents : (graph.connectionsInto current).length = 0
      · rw [if_pos noParents]
        exact ⟨newGraph, rfl,
          part.of_none (not_keptBranch_of_noParents way isTrigger noParents)⟩
      rw [if_neg noParents]
      by_cases again : current ∈ branch.map GraphConnection.toNode
      · by_cases isDestination : current = destination
        · subst isDestination
          rw [if_pos ⟨rfl, again⟩]
          refine ⟨newGraph, rfl, part.of_none ?_⟩
          exact fun _ _ => not_keptBranch_of_cycle way isTrigger again
        · have ended : Ended GraphConnection.toNode destination trigger branch current :=
            .inr ⟨isDestination, again⟩
          obtain ⟨result, ran, grown⟩ := part.keepBranch wellFormed way
          rw [if_neg (fun both => isDestination both.1), if_pos again]
          refine ⟨result, ran, grown.congr ?_ ?_⟩
          · obtain ⟨connection, member, into⟩ := List.mem_map.mp again
            rw [keptNodes_of_ended way ended]
            congr 1
            refine (Set.union_eq_self_of_subset_left ?_).symm
            rintro node rfl
            exact ⟨connection, member, into ▸ .inr rfl⟩
          · rw [keptConnections_of_ended way ended]
      · have notCycle
            : ¬ (current = destination ∧ destination ∈ branch.map GraphConnection.toNode) :=
          fun both => again (both.1 ▸ both.2)
        rw [if_neg notCycle, if_neg again]
        have turn (connection : GraphConnection)
            (member : connection ∈ graph.connectionsInto current) (newGraph : DirectedGraph)
            (nodes : Set INode) (connections : Set GraphConnection)
            (part : graph.IsPart newGraph nodes connections)
            : ∃ result,
                (if connection.type ≠ .main then pure newGraph
                  else
                    findSubgraphRecursive graph destination trigger fuel connection.fromNode
                      newGraph (branch ++ [connection])) = .ok result
                ∧ graph.IsPart result
                    (nodes ∪ {node | connection.type = .main
                      ∧ node ∈ graph.keptNodes destination trigger (branch ++ [connection])})
                    (connections ∪ {other | connection.type = .main
                      ∧ other ∈ graph.keptConnections destination trigger
                          (branch ++ [connection])}) := by
          obtain ⟨here, into⟩ := mem_connectionsInto.mp member
          by_cases isMain : connection.type = .main
          · have next := (into ▸ way : graph.Branch destination trigger branch
              connection.toNode).snoc ⟨here, isMain⟩ (into ▸ isTrigger) (into ▸ again)
            have enoughLeft
                : graph.nodes.values.length < fuel + (branch ++ [connection]).length := by
              rw [List.length_append, List.length_singleton]
              omega
            obtain ⟨result, ran, grown⟩ := ih enoughLeft next part
            refine ⟨result, by rw [if_neg (not_not.mpr isMain)]; exact ran, grown.congr ?_ ?_⟩
            · simp [isMain]
            · simp [isMain]
          · exact ⟨newGraph, by rw [if_pos isMain]; rfl,
              part.congr (by simp [isMain]) (by simp [isMain])⟩
        obtain ⟨result, ran, grown⟩ := part.foldlM turn
        have notEnded : ¬ Ended GraphConnection.toNode destination trigger branch current := by
          rintro (isGoal | ⟨_, visited⟩)
          · exact isTrigger isGoal
          · exact again visited
        refine ⟨result, ran, grown.congr ?_ ?_⟩
        · rw [keptNodes_of_not_ended way notEnded]
          rfl
        · rw [keptConnections_of_not_ended way notEnded]
          rfl

/-! ### What is found -/

variable (graph destination trigger)

/-- The connections of types other than `main` from whose target a path leads to the node. -/
def servingConnections (node : INode) : Set GraphConnection :=
  {connection | connection ∈ graph.connections.values ∧ connection.type ≠ .main
    ∧ graph.Leads connection.toNode node}

/-- The connection is on a main path from the trigger to the destination that does not come
through the destination before its end.
-/
abbrev OnMainPath : GraphConnection → Prop :=
  OnPath GraphConnection.fromNode GraphConnection.toNode graph.Main destination trigger

/-- A main connection leads from the one node to the other, not from the destination and not
to the trigger.
-/
abbrev MainForth : INode → INode → Prop :=
  Forth GraphConnection.fromNode GraphConnection.toNode graph.Main destination trigger

/-- The nodes on main paths from the trigger to the destination. -/
def PathNode (node : INode) : Prop :=
  (∃ connection, graph.OnMainPath destination trigger connection ∧ node ∈ ends connection)
  ∨ node = trigger ∧ trigger = destination

/-- The node is on a main path, or the trigger or the destination, or a sub-node of such a
node.
-/
def IsNeeded (node : INode) : Prop :=
  ∃ root,
    (graph.PathNode destination trigger root ∨ root = trigger ∨ root = destination)
    ∧ Relation.ReflTransGen graph.Serves node root

/-- The result has the main connections on main paths from the trigger to the destination,
and no nodes but those on such paths, the trigger, the destination and sub-nodes of these.
-/
structure IsSubgraph (result : DirectedGraph) : Prop where
  mainConnections : ∀ connection, connection.type = .main
    → (connection ∈ result.connections.values
        ↔ graph.OnMainPath destination trigger connection)
  nodes : ∀ node ∈ result.nodes.values, graph.IsNeeded destination trigger node

variable {graph destination trigger}

theorem addSubNodes_part (wellFormed : graph.WellFormed) (inside : node ∈ graph.nodes.values)
    (part : graph.IsPart newGraph nodes connections)
    : ∃ result,
        addSubNodes graph newGraph node = .ok result
        ∧ graph.IsPart result
            (nodes
              ∪ {other | ∃ connection ∈ graph.servingConnections node, other ∈ ends connection})
            (connections ∪ graph.servingConnections node) := by
  obtain ⟨parents, found, mem_parents⟩ := wellFormed.getParentConnections inside
  have turn (connection : GraphConnection) (member : connection ∈ parents)
      (newGraph : DirectedGraph) (nodes : Set INode) (connections : Set GraphConnection)
      (part : graph.IsPart newGraph nodes connections)
      : ∃ result,
          (if connection.type = .main then pure newGraph
            else PartialExecution.addWithNodes newGraph connection) = .ok result
          ∧ graph.IsPart result
              (nodes ∪ {other | connection.type ≠ .main ∧ other ∈ ends connection})
              (connections ∪ {other | connection.type ≠ .main ∧ other = connection}) := by
    by_cases isMain : connection.type = .main
    · exact ⟨newGraph, by rw [if_pos isMain]; rfl,
        part.congr (by simp [isMain]) (by simp [isMain])⟩
    · obtain ⟨result, ran, grown⟩ :=
        part.addWithNodes wellFormed ((mem_parents connection).mp member).1
      exact ⟨result, by rw [if_neg isMain]; exact ran,
        grown.congr (by simp [isMain]) (by simp [isMain])⟩
  obtain ⟨result, ran, grown⟩ := part.foldlM turn
  refine ⟨result, by rw [addSubNodes, found]; exact ran, grown.congr ?_ ?_⟩
  · ext other
    simp only [servingConnections, mem_parents, Set.mem_union, Set.mem_ofPred_eq]
    grind
  · ext other
    simp only [servingConnections, mem_parents, Set.mem_union, Set.mem_ofPred_eq]
    grind

variable (trigger) in
theorem findSubgraph_part (wellFormed : graph.WellFormed)
    (inside : destination ∈ graph.nodes.values)
    : ∃ result,
        findSubgraph graph destination trigger = .ok result
        ∧ graph.IsPart result
            (graph.keptNodes destination trigger []
              ∪ {other | ∃ node ∈ graph.keptNodes destination trigger [],
                  ∃ connection ∈ graph.servingConnections node, other ∈ ends connection})
            (graph.keptConnections destination trigger []
              ∪ {connection | ∃ node ∈ graph.keptNodes destination trigger [],
                  connection ∈ graph.servingConnections node}) := by
  have way : graph.Branch destination trigger [] destination := .nil
  obtain ⟨subgraph, searched, found⟩ := findSubgraphRecursive_part wellFormed inside
    (graph.nodes.values.length + 1) (by simp) way (IsPart.empty graph)
  rw [Set.empty_union, Set.empty_union] at found
  have turn (node : INode) (member : node ∈ subgraph.nodes.values) (newGraph : DirectedGraph)
      (nodes : Set INode) (connections : Set GraphConnection)
      (part : graph.IsPart newGraph nodes connections) :=
    addSubNodes_part wellFormed (found.ofNodes node ((found.mem_nodes node).mp member)) part
  obtain ⟨result, ran, grown⟩ := found.foldlM turn
  refine ⟨result, by rw [findSubgraph, searched]; exact ran, grown.congr ?_ ?_⟩
  · simp only [found.mem_nodes]
    rfl
  · simp only [found.mem_nodes]

theorem mem_keptConnections (wellFormed : graph.WellFormed)
    : connection ∈ graph.keptConnections destination trigger []
      ↔ OnWay GraphConnection.fromNode GraphConnection.toNode graph.Main destination trigger
          connection := by
  rw [← mem_ended_trail_iff (fun connection main => wellFormed.toExists connection main.1)]
  constructor
  · rintro ⟨kept, last, keeps, member⟩
    exact ⟨kept, last, keeps.isBranch, keeps.ended, member⟩
  · rintro ⟨kept, last, way, ended, member⟩
    exact ⟨kept, last, ⟨List.nil_prefix, way, ended⟩, member⟩

/-- Besides the ends of the connections, the search finds the trigger if it is the
destination.
-/
theorem mem_keptNodes
    : node ∈ graph.keptNodes destination trigger []
      ↔ (∃ connection ∈ graph.keptConnections destination trigger [], node ∈ ends connection)
        ∨ node = trigger ∧ trigger = destination := by
  constructor
  · rintro ⟨kept, last, keeps, rfl | ⟨connection, member, isEnd⟩⟩
    · by_cases moved : kept = []
      · subst moved
        have atStart := keeps.isBranch.eq_start
        rcases keeps.ended with isTrigger | ⟨away, _⟩
        · exact .inr ⟨isTrigger, isTrigger.symm.trans atStart⟩
        · exact absurd atStart away
      · obtain ⟨connection, member, from_⟩ := keeps.isBranch.exists_last moved
        exact .inl ⟨connection, ⟨kept, node, keeps, member⟩, .inl from_.symm⟩
    · exact .inl ⟨connection, ⟨kept, last, keeps, member⟩, isEnd⟩
  · rintro (⟨connection, ⟨kept, last, keeps, member⟩, isEnd⟩ | ⟨rfl, rfl⟩)
    · exact ⟨kept, last, keeps, .inr ⟨connection, member, isEnd⟩⟩
    · exact ⟨[], node, ⟨List.nil_prefix, .nil, .inl rfl⟩, .inl rfl⟩

/-- The main connections are the right ones exactly when the search keeps no others than
those on main paths.
-/
theorem mainConnections_iff (wellFormed : graph.WellFormed) {result : DirectedGraph}
    {found : Set INode}
    (part : graph.IsPart result nodes (graph.keptConnections destination trigger []
      ∪ {connection | ∃ node ∈ found, connection ∈ graph.servingConnections node}))
    : (∀ connection, connection.type = .main
        → (connection ∈ result.connections.values
            ↔ graph.OnMainPath destination trigger connection))
      ↔ ∀ connection,
          OnWay GraphConnection.fromNode GraphConnection.toNode graph.Main destination trigger
              connection
            ↔ graph.OnMainPath destination trigger connection := by
  have mem_result : ∀ connection, connection.type = .main
      → (connection ∈ result.connections.values
          ↔ OnWay GraphConnection.fromNode GraphConnection.toNode graph.Main destination trigger
              connection) := by
    intro connection isMain
    rw [part.mem_connections, Set.mem_union, mem_keptConnections wellFormed]
    refine or_iff_left ?_
    rintro ⟨node, _, _, notMain, _⟩
    exact notMain isMain
  constructor
  · intro same connection
    constructor
    · intro onWay
      exact (same connection onWay.here.2).mp ((mem_result connection onWay.here.2).mpr onWay)
    · intro onPath
      exact (mem_result connection onPath.here.2).mp
        ((same connection onPath.here.2).mpr onPath)
  · intro same connection isMain
    exact (mem_result connection isMain).trans (same connection)

theorem isNeeded_of_serves (here : connection ∈ graph.connections.values)
    (notMain : connection.type ≠ .main)
    (needed : graph.IsNeeded destination trigger connection.toNode)
    : graph.IsNeeded destination trigger connection.fromNode := by
  obtain ⟨root, isRoot, chain⟩ := needed
  exact ⟨root, isRoot, chain.head ⟨connection, here, notMain, rfl, rfl⟩⟩

/-- The subgraph is as it should be if and only if every main loop on the way to the
destination can be reached from the trigger, no main path comes back to the trigger, and
every node with sub-nodes above a node of a main path is needed itself.
-/
theorem findSubgraph_iff (wellFormed : graph.WellFormed)
    (inside : destination ∈ graph.nodes.values)
    : (∃ result,
        findSubgraph graph destination trigger = .ok result
        ∧ graph.IsSubgraph destination trigger result)
      ↔ (∀ node,
          Relation.TransGen (graph.MainForth destination trigger) node node
          → Relation.ReflTransGen (graph.MainForth destination trigger) node destination
          → Relation.ReflTransGen (graph.MainForth destination trigger) trigger node)
        ∧ (∀ connection,
            graph.OnMainPath destination trigger connection → connection.toNode ≠ trigger)
        ∧ ∀ connection ∈ graph.connections.values, connection.type ≠ .main
            → ∀ node, graph.PathNode destination trigger node
              → graph.Leads connection.toNode node
              → graph.IsNeeded destination trigger connection.toNode := by
  obtain ⟨result, ran, part⟩ := findSubgraph_part trigger wellFormed inside
  have only : (∃ result,
      findSubgraph graph destination trigger = .ok result
      ∧ graph.IsSubgraph destination trigger result)
      ↔ graph.IsSubgraph destination trigger result := by
    simp [ran]
  rw [only, ← and_assoc, ← onWay_iff_onPath]
  constructor
  · intro isSubgraph
    have same := (mainConnections_iff wellFormed part).mp isSubgraph.mainConnections
    refine ⟨same, ?_⟩
    intro connection here notMain node onPath leads
    apply isSubgraph.nodes
    rw [part.mem_nodes]
    refine .inr ⟨node, ?_, connection, ⟨here, notMain, leads⟩, .inr rfl⟩
    rw [mem_keptNodes]
    simp only [mem_keptConnections wellFormed, same]
    exact onPath
  · rintro ⟨same, above⟩
    have pathNode : ∀ node, node ∈ graph.keptNodes destination trigger []
        → graph.PathNode destination trigger node := by
      intro node member
      simp only [mem_keptNodes, mem_keptConnections wellFormed, same] at member
      exact member
    refine ⟨(mainConnections_iff wellFormed part).mpr same, ?_⟩
    intro node member
    rw [part.mem_nodes] at member
    rcases member with kept | ⟨root, kept, connection, ⟨here, notMain, leads⟩, isEnd⟩
    · exact ⟨node, .inl (pathNode node kept), .refl⟩
    · have needed := above connection here notMain root (pathNode root kept) leads
      rcases isEnd with rfl | rfl
      · exact isNeeded_of_serves here notMain needed
      · exact needed

end Search

def manualTrigger : INode := ⟨"1", "Trigger", "set", false⟩

def sharedNode : INode := ⟨"2", "Last", "set", false⟩

def webhookTrigger : INode := ⟨"3", "Webhook", "set", false⟩

def webhookAgent : INode := ⟨"4", "Agent", "set", false⟩

def webhookModel : INode := ⟨"5", "Model", "set", false⟩

/-- The webhook starts an agent, which a model serves, and the trigger starts the node behind
the agent.
-/
def twoTriggers : DirectedGraph where
  nodes := Dict.empty.insertAll INode.name
    [manualTrigger, sharedNode, webhookTrigger, webhookAgent, webhookModel]
  connections := Dict.empty.insertAll makeKey
    [
      ⟨manualTrigger, sharedNode, .main, 0, 0⟩,
      ⟨webhookTrigger, webhookAgent, .main, 0, 0⟩,
      ⟨webhookModel, webhookAgent, .aiLanguageModel, 0, 0⟩,
      ⟨webhookAgent, sharedNode, .main, 0, 0⟩
    ]

theorem twoTriggers_wellFormed : twoTriggers.WellFormed where
  nodesKeyed := Dict.KeyedBy.empty.insertAll _
  connectionsKeyed := Dict.KeyedBy.empty.insertAll _
  fromExists := by decide +kernel
  toExists := by decide +kernel

/-- Along main connections the names get shorter, so there is no loop. -/
theorem twoTriggers_no_loop (destination trigger node : INode)
    : ¬ Relation.TransGen (twoTriggers.MainForth destination trigger) node node := by
  have shorter : ∀ connection ∈ twoTriggers.connections.values, connection.type = .main
      → connection.toNode.name.length < connection.fromNode.name.length := by
    decide +kernel
  have decreases : ∀ first second,
      Relation.TransGen (twoTriggers.MainForth destination trigger) first second
        → second.name.length < first.name.length := by
    intro first second path
    induction path with
    | single forth =>
        obtain ⟨⟨connection, main, rfl, rfl, _⟩, _⟩ := forth
        exact shorter connection main.1 main.2
    | tail _ forth ih =>
        obtain ⟨⟨connection, main, rfl, rfl, _⟩, _⟩ := forth
        exact (shorter connection main.1 main.2).trans ih
  intro loop
  exact absurd (decreases node node loop) (Nat.lt_irrefl _)

/-- From the webhook, the agent and its model are found as they should be. -/
theorem findSubgraph_webhook
    : ∃ result,
        findSubgraph twoTriggers sharedNode webhookTrigger = .ok result
        ∧ twoTriggers.IsSubgraph sharedNode webhookTrigger result := by
  have noneInto : ∀ connection ∈ twoTriggers.connections.values,
      connection.toNode ≠ webhookTrigger := by
    decide +kernel
  have serving : ∀ connection ∈ twoTriggers.connections.values, connection.type ≠ .main
      → connection.toNode = webhookAgent := by
    decide +kernel
  refine (findSubgraph_iff twoTriggers_wellFormed (by decide +kernel)).mpr ⟨?_, ?_, ?_⟩
  · intro node loop
    exact absurd loop (twoTriggers_no_loop _ _ node)
  · intro connection onPath
    exact noneInto connection onPath.here.1
  · intro connection here notMain _ _ _
    rw [serving connection here notMain]
    refine ⟨webhookAgent,
      .inl (.inl ⟨⟨webhookAgent, sharedNode, .main, 0, 0⟩, ?_, .inl rfl⟩), .refl⟩
    refine ⟨⟨by decide +kernel, rfl⟩, by decide, .single ?_, .refl⟩
    exact ⟨⟨webhookTrigger, webhookAgent, .main, 0, 0⟩, ⟨by decide +kernel, rfl⟩, rfl, rfl,
      by decide⟩

/-- From the trigger, the agent is found along with its model, though no path from the trigger
comes through the agent.
-/
theorem findSubgraph_trigger
    : ¬ ∃ result,
        findSubgraph twoTriggers sharedNode manualTrigger = .ok result
        ∧ twoTriggers.IsSubgraph sharedNode manualTrigger result := by
  rintro ⟨result, ran, isSubgraph⟩
  have found : webhookAgent ∈ result.nodes.values := by
    have computed : ((findSubgraph twoTriggers sharedNode manualTrigger).toOption.map
        (fun result => result.nodes.values))
          = some [manualTrigger, sharedNode, webhookModel, webhookAgent] := by
      decide +kernel
    rw [ran] at computed
    have listed
        : result.nodes.values = [manualTrigger, sharedNode, webhookModel, webhookAgent] :=
      Option.some.inj computed
    rw [listed]
    simp
  obtain ⟨root, isRoot, chain⟩ := isSubgraph.nodes webhookAgent found
  have isAgent : root = webhookAgent := by
    have noneFrom : ∀ connection ∈ twoTriggers.connections.values, connection.type ≠ .main
        → connection.fromNode ≠ webhookAgent := by
      decide +kernel
    rcases Relation.ReflTransGen.cases_head chain with same | ⟨_, serves, _⟩
    · exact same.symm
    · obtain ⟨connection, here, notMain, from_, _⟩ := serves
      exact absurd from_ (noneFrom connection here notMain)
  subst isAgent
  have onlyTrigger : ∀ node, Relation.ReflTransGen (Link GraphConnection.fromNode
      GraphConnection.toNode twoTriggers.Main sharedNode) manualTrigger node
      → node = manualTrigger ∨ node = sharedNode := by
    have fromTrigger : ∀ connection ∈ twoTriggers.connections.values,
        connection.fromNode = manualTrigger → connection.toNode = sharedNode := by
      decide +kernel
    intro node path
    induction path with
    | refl => exact .inl rfl
    | tail _ link ih =>
        obtain ⟨connection, main, rfl, rfl, notStart⟩ := link
        exact .inr (fromTrigger connection main.1 (ih.resolve_right notStart))
  rcases isRoot with (⟨connection, onPath, isEnd⟩ | ⟨same, _⟩) | same | same
  · have leaves := (onlyTrigger _ onPath.leaves).resolve_right onPath.notStart
    have apart : ∀ connection ∈ twoTriggers.connections.values,
        connection.fromNode = manualTrigger
          → webhookAgent ≠ connection.fromNode ∧ webhookAgent ≠ connection.toNode := by
      decide +kernel
    obtain ⟨notFrom, notTo⟩ := apart connection onPath.here.1 leaves
    rcases isEnd with isFrom | isTo
    · exact notFrom isFrom
    · exact notTo isTo
  · exact absurd same (by decide)
  · exact absurd same (by decide)
  · exact absurd same (by decide)

end DirectedGraph

end N8n.PartialExecution
