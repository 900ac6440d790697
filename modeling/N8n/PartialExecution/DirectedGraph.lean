import N8n.Library.Exec
import N8n.Library.Text
import N8n.Workflow.Interfaces

/-! The graph that partial executions edit
(`packages/core/src/execution-engine/partial-execution-utils/directed-graph.ts`).
Nodes of one graph have different names, so comparing two of them by value is comparing
the objects.
-/

namespace N8n.PartialExecution

structure GraphConnection where
  fromNode : INode
  toNode : INode
  type : NodeConnectionType
  outputIndex : Nat
  inputIndex : Nat
  deriving DecidableEq, Repr

/-- The argument of `addConnection`, whose missing fields take their defaults. -/
structure ConnectionInput where
  fromNode : INode
  toNode : INode
  type : Option NodeConnectionType
  outputIndex : Option Nat
  inputIndex : Option Nat
  deriving DecidableEq, Repr

def makeKey (connection : GraphConnection) : String :=
  connection.fromNode.name ++ "-" ++ connection.type.name ++ "-"
    ++ toString connection.outputIndex ++ "-" ++ toString connection.inputIndex ++ "-"
    ++ connection.toNode.name

structure DirectedGraph where
  nodes : Dict String INode
  connections : Dict String GraphConnection
  deriving DecidableEq

structure RemoveNodeBaseOptions where
  reconnectConnections : Bool
  skipConnectionFn : GraphConnection → Bool

namespace DirectedGraph

def empty : DirectedGraph := ⟨Dict.empty, Dict.empty⟩

/-- `this.nodes.get(node.name) === node`. -/
def nodeExists (graph : DirectedGraph) (node : INode) : Bool :=
  graph.nodes.get? node.name = some node

/-- `a.ok(condition)`. -/
def ok (condition : Bool) : Except JsError Unit :=
  if condition then pure () else throw (.assertion none)

/-- All connections, or those to `toNode`. -/
def getConnections (graph : DirectedGraph) (toNode : Option INode) : List GraphConnection :=
  graph.connections.values.filter (fun connection =>
    match toNode with
    | some node => connection.toNode = node
    | none => true)

def addNode (graph : DirectedGraph) (node : INode) : DirectedGraph :=
  { graph with nodes := graph.nodes.set node.name node }

def addNodes (graph : DirectedGraph) (nodes : List INode) : DirectedGraph :=
  nodes.foldl addNode graph

def addConnection (graph : DirectedGraph) (connectionInput : ConnectionInput)
    : Except JsError DirectedGraph := do
  ok (graph.nodeExists connectionInput.fromNode)
  ok (graph.nodeExists connectionInput.toNode)
  let connection : GraphConnection := {
    fromNode := connectionInput.fromNode
    toNode := connectionInput.toNode
    type := connectionInput.type.getD .main
    outputIndex := connectionInput.outputIndex.getD 0
    inputIndex := connectionInput.inputIndex.getD 0
  }
  return { graph with connections := graph.connections.set (makeKey connection) connection }

def addConnections (graph : DirectedGraph) (connectionInputs : List ConnectionInput)
    : Except JsError DirectedGraph :=
  connectionInputs.foldlM addConnection graph

def getDirectChildConnections (graph : DirectedGraph) (node : INode)
    : Except JsError (List GraphConnection) := do
  ok (graph.nodeExists node)
  return graph.connections.values.filter (fun connection => connection.fromNode = node)

def getDirectParentConnections (graph : DirectedGraph) (node : INode)
    : Except JsError (List GraphConnection) := do
  ok (graph.nodeExists node)
  return graph.connections.values.filter (fun connection => connection.toNode = node)

/-- Every connection into the node joined to every connection out of it. -/
def reconnected (skipConnectionFn : GraphConnection → Bool)
    (incomingConnections outgoingConnections : List GraphConnection)
    : List GraphConnection :=
  (incomingConnections.filter (fun incoming => !skipConnectionFn incoming)).flatMap
    (fun incoming =>
      (outgoingConnections.filter (fun outgoing => !skipConnectionFn outgoing)).map
        (fun outgoing =>
          { incoming with toNode := outgoing.toNode, inputIndex := outgoing.inputIndex }))

def deleteConnectionsOf (connections : Dict String GraphConnection) (node : INode)
    : Dict String GraphConnection :=
  connections.filter (fun connection =>
    !(connection.toNode = node || connection.fromNode = node))

/-- Answers the new connections, if any were asked for, and the graph afterwards. -/
def removeNode (graph : DirectedGraph) (node : INode) (options : RemoveNodeBaseOptions)
    : Except JsError (Option (List GraphConnection) × DirectedGraph) := do
  if options.reconnectConnections then
    let incomingConnections ← graph.getDirectParentConnections node
    let outgoingConnections ← graph.getDirectChildConnections node
    let newConnections :=
      reconnected options.skipConnectionFn incomingConnections outgoingConnections
    return (some newConnections,
      {
        nodes := graph.nodes.delete node.name
        connections :=
          (deleteConnectionsOf graph.connections node).insertAll makeKey newConnections
      })
  else
    return (none,
      {
        nodes := graph.nodes.delete node.name
        connections := deleteConnectionsOf graph.connections node
      })

def clone (graph : DirectedGraph) : Except JsError DirectedGraph :=
  (empty.addNodes graph.nodes.values).addConnections
    ((graph.getConnections none).map (fun connection =>
      {
        fromNode := connection.fromNode
        toNode := connection.toNode
        type := some connection.type
        outputIndex := some connection.outputIndex
        inputIndex := some connection.inputIndex
      }))

/-- The loops over `connections`, outputs and their targets, by which both builders add the
connections of a workflow.
-/
def addWorkflowConnections (getNode : String → Option INode) (connections : IConnections)
    (graph : DirectedGraph)
    : Except JsError DirectedGraph :=
  connections.entries.foldlM
    (fun graph (fromNodeName, iConnection) =>
      match getNode fromNodeName with
      | none => throw (.assertion none)
      | some fromNode =>
          iConnection.entries.foldlM
            (fun graph (outputType, outputs) =>
              outputs.zipIdx.foldlM
                (fun graph (conns, outputIndex) =>
                  (conns.getD []).foldlM
                    (fun graph conn =>
                      match getNode conn.node with
                      | none => throw (.assertion none)
                      | some toNode =>
                          addConnection graph
                            {
                              fromNode
                              toNode
                              type := some outputType
                              outputIndex := some outputIndex
                              inputIndex := some conn.index
                            })
                    graph)
                graph)
            graph)
    graph

def fromNodesAndConnections (nodes : List INode) (connections : IConnections)
    : Except JsError DirectedGraph :=
  let nodeMap : Dict String INode := Dict.empty.insertAll INode.name nodes
  addWorkflowConnections nodeMap.get? connections (empty.addNodes nodes)

/-- Texts without dashes can be read back from their join. -/
theorem append_dash_inj {first first' rest rest' : List Char} (clean : '-' ∉ first)
    (clean' : '-' ∉ first') (same : first ++ '-' :: rest = first' ++ '-' :: rest')
    : first = first' ∧ rest = rest' := by
  induction first generalizing first' with
  | nil =>
      cases first' with
      | nil => exact ⟨rfl, List.cons.inj same |>.2⟩
      | cons char chars => exact absurd ((List.cons.inj same).1 ▸ (.head _)) clean'
  | cons char chars ih =>
      cases first' with
      | nil => exact absurd ((List.cons.inj same).1 ▸ (.head _)) clean
      | cons char' chars' =>
          simp only [List.mem_cons, not_or] at clean clean'
          simp only [List.cons_append, List.cons.injEq] at same
          obtain ⟨rfl, later⟩ := same
          simpa using ih clean.2 clean'.2 later

theorem dash_not_mem_toString (index : Nat) : '-' ∉ (toString index).toList := by
  intro member
  rw [Text.toList_toString] at member
  have digit := Nat.isDigit_of_mem_toDigits (by decide) (by decide) member
  exact absurd digit (by decide)

theorem dash_not_mem_name (type : NodeConnectionType) : '-' ∉ type.name.toList := by
  cases type <;> decide

theorem name_injective {type type' : NodeConnectionType}
    (same : type.name.toList = type'.name.toList)
    : type = type' := by
  revert same
  cases type <;> cases type' <;> decide

/-- The key tells the names of the ends, the type and the indices of a connection, as long
as the names have no dashes.
-/
theorem makeKey_injective {first second : GraphConnection}
    (clean : '-' ∉ first.fromNode.name.toList)
    (clean' : '-' ∉ second.fromNode.name.toList) (same : makeKey first = makeKey second)
    : first.fromNode.name = second.fromNode.name
      ∧ first.type = second.type
      ∧ first.outputIndex = second.outputIndex
      ∧ first.inputIndex = second.inputIndex
      ∧ first.toNode.name = second.toNode.name := by
  have chars := congrArg String.toList same
  have dash : "-".toList = ['-'] := rfl
  simp only [makeKey, String.toList_append, dash, List.append_assoc, List.singleton_append]
    at chars
  obtain ⟨names, chars⟩ := append_dash_inj clean clean' chars
  obtain ⟨types, chars⟩ :=
    append_dash_inj (dash_not_mem_name _) (dash_not_mem_name _) chars
  obtain ⟨outputs, chars⟩ :=
    append_dash_inj (dash_not_mem_toString _) (dash_not_mem_toString _) chars
  obtain ⟨inputs, chars⟩ :=
    append_dash_inj (dash_not_mem_toString _) (dash_not_mem_toString _) chars
  exact ⟨String.toList_injective names, name_injective types, Text.toString_injective outputs,
    Text.toString_injective inputs, String.toList_injective chars⟩

/-- Nodes are kept under their names, connections under their keys, and both ends of every
connection are nodes of the graph.
-/
structure WellFormed (graph : DirectedGraph) : Prop where
  nodesKeyed : graph.nodes.KeyedBy INode.name
  connectionsKeyed : graph.connections.KeyedBy makeKey
  fromExists : ∀ connection ∈ graph.connections.values,
    connection.fromNode ∈ graph.nodes.values
  toExists : ∀ connection ∈ graph.connections.values,
    connection.toNode ∈ graph.nodes.values

theorem WellFormed.nodeExists_iff {graph : DirectedGraph} (wellFormed : graph.WellFormed)
    {node : INode}
    : graph.nodeExists node = true ↔ node ∈ graph.nodes.values := by
  simp [nodeExists, wellFormed.nodesKeyed.mem_values]

theorem addNodes_eq (graph : DirectedGraph) (nodes : List INode)
    : graph.addNodes nodes = { graph with nodes := graph.nodes.insertAll INode.name nodes } := by
  induction nodes generalizing graph with
  | nil => rfl
  | cons node rest ih => exact ih (graph.addNode node)

/-- A graph without connections, as the builders start from, is well formed. -/
theorem wellFormed_addNodes (nodes : List INode) : (empty.addNodes nodes).WellFormed where
  nodesKeyed := by
    rw [addNodes_eq]
    exact Dict.KeyedBy.empty.insertAll nodes
  connectionsKeyed := by
    rw [addNodes_eq]
    exact Dict.KeyedBy.empty
  fromExists := by simp [addNodes_eq, empty, Dict.empty, Dict.values]
  toExists := by simp [addNodes_eq, empty, Dict.empty, Dict.values]

theorem WellFormed.addConnection {graph result : DirectedGraph} {input : ConnectionInput}
    (wellFormed : graph.WellFormed) (added : graph.addConnection input = .ok result)
    : result.WellFormed := by
  by_cases fromExists : graph.nodeExists input.fromNode = true
  · by_cases toExists : graph.nodeExists input.toNode = true
    · simp only [DirectedGraph.addConnection, ok, fromExists, toExists, if_true] at added
      cases added
      refine ⟨wellFormed.nodesKeyed, wellFormed.connectionsKeyed.set _, ?_, ?_⟩
      · intro connection member
        rcases wellFormed.connectionsKeyed.mem_values_set.mp member with rfl | ⟨kept, _⟩
        · exact wellFormed.nodeExists_iff.mp fromExists
        · exact wellFormed.fromExists connection kept
      · intro connection member
        rcases wellFormed.connectionsKeyed.mem_values_set.mp member with rfl | ⟨kept, _⟩
        · exact wellFormed.nodeExists_iff.mp toExists
        · exact wellFormed.toExists connection kept
    · simp [DirectedGraph.addConnection, ok, fromExists, toExists] at added
      contradiction
  · simp [DirectedGraph.addConnection, ok, fromExists] at added
    contradiction

/-- The loops over the connections of a workflow keep a graph well formed: each connection that
is added has passed the assertions on its ends.
-/
theorem WellFormed.addWorkflowConnections {getNode : String → Option INode}
    {connections : IConnections} {graph result : DirectedGraph} (wellFormed : graph.WellFormed)
    (added : addWorkflowConnections getNode connections graph = .ok result)
    : result.WellFormed := by
  refine Exec.foldlM_preserves ?_ wellFormed added
  intro first ⟨fromNodeName, iConnection⟩ second firstFormed added
  simp only at added
  split at added
  · contradiction
  · refine Exec.foldlM_preserves ?_ firstFormed added
    intro first ofType second firstFormed added
    refine Exec.foldlM_preserves ?_ firstFormed added
    intro first ofIndex second firstFormed added
    refine Exec.foldlM_preserves ?_ firstFormed added
    intro first conn second firstFormed added
    split at added
    · contradiction
    · exact firstFormed.addConnection added

theorem wellFormed_fromNodesAndConnections {nodes : List INode} {connections : IConnections}
    {graph : DirectedGraph} (built : fromNodesAndConnections nodes connections = .ok graph)
    : graph.WellFormed :=
  (wellFormed_addNodes nodes).addWorkflowConnections built

end DirectedGraph

end N8n.PartialExecution
