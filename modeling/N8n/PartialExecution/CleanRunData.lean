import N8n.Library.Removal
import N8n.PartialExecution.GraphSearches

/-! The run data that a partial execution starts with
(`packages/core/src/execution-engine/partial-execution-utils/clean-run-data.ts`).
-/

namespace N8n.PartialExecution

variable {Item : Type}

def DirectedGraph.hasNode (graph : DirectedGraph) (nodeName : String) : Bool :=
  (graph.nodes.get? nodeName).isSome

/-- The body of the loop over the connections that lead to a node. -/
def deleteSubNode (newRunData : IRunData Item) (subNodeConnection : GraphConnection)
    : IRunData Item :=
  if subNodeConnection.type = .main then newRunData
  else newRunData.delete subNodeConnection.fromNode.name

/-- The body of the loop over a node to clean and its children. -/
def deleteWithSubNodes (graph : DirectedGraph) (newRunData : IRunData Item) (node : INode)
    : Except JsError (IRunData Item) := do
  let subNodeConnections ← graph.getParentConnections node
  return subNodeConnections.foldl deleteSubNode (newRunData.delete node.name)

/-- The body of the outer loop. -/
def cleanNode (graph : DirectedGraph) (newRunData : IRunData Item) (nodeToClean : INode)
    : Except JsError (IRunData Item) := do
  let newRunData := newRunData.delete nodeToClean.name
  let children ← graph.getChildren nodeToClean
  (nodeToClean :: children).foldlM (deleteWithSubNodes graph) newRunData

/-- The body of the loop over what is left. -/
def deleteOutside (graph : DirectedGraph) (newRunData : IRunData Item) (nodeName : String)
    : IRunData Item :=
  if graph.hasNode nodeName then newRunData else newRunData.delete nodeName

def cleanRunData (runData : IRunData Item) (graph : DirectedGraph) (nodesToClean : List INode)
    : Except JsError (IRunData Item) := do
  let newRunData ← nodesToClean.foldlM (cleanNode graph) runData
  return newRunData.keys.foldl (deleteOutside graph) newRunData

namespace DirectedGraph

variable (graph : DirectedGraph) (nodesToClean : List INode)

/-- The node is one of the nodes to clean, or below one. -/
def Below (node : INode) : Prop := ∃ nodeToClean ∈ nodesToClean, graph.Leads nodeToClean node

/-- The nodes that lose their run data: those below the nodes to clean, and their sub-nodes. -/
def Outdated (node : INode) : Prop :=
  graph.Below nodesToClean node
  ∨ ∃ root, graph.Below nodesToClean root ∧ graph.SubNode node root

/-- What is left is the unchanged run data of the other nodes of the graph. -/
def Cleaned (runData newRunData : IRunData Item) : Prop :=
  ∀ nodeName runs,
    newRunData.get? nodeName = some runs
      ↔ runData.get? nodeName = some runs
        ∧ ∃ node ∈ graph.nodes.values,
            node.name = nodeName ∧ ¬ graph.Outdated nodesToClean node

/-- The node has a non-main connection, and from its target some path leads to a node that is
below the nodes to clean.
-/
def ServesAbove (node : INode) : Prop :=
  ∃ connection ∈ graph.connections.values,
    connection.type ≠ .main ∧ connection.fromNode = node
    ∧ ∃ below, graph.Below nodesToClean below ∧ graph.Leads connection.toNode below

end DirectedGraph

open DirectedGraph

variable {graph : DirectedGraph} {nodesToClean : List INode} {node : INode}

/-- A sub-node of a node below the nodes to clean is found on the way up from there. -/
theorem DirectedGraph.servesAbove_of_subNode {root : INode}
    (below : graph.Below nodesToClean root) (attached : graph.SubNode node root)
    : graph.ServesAbove nodesToClean node := by
  obtain ⟨next, serves, rest⟩ := Relation.TransGen.head'_iff.mp attached
  obtain ⟨connection, here, notMain, rfl, rfl⟩ := serves
  exact ⟨connection, here, notMain, rfl, root, below, leads_of_serves rest⟩

theorem deleteSubNode_without (runData : IRunData Item) (connection : GraphConnection)
    : Dict.Without
        (fun nodeName => connection.type ≠ .main ∧ connection.fromNode.name = nodeName)
        runData (deleteSubNode runData connection) := by
  unfold deleteSubNode
  split
  case isTrue isMain => exact .refl (by simp [isMain])
  case isFalse notMain =>
    exact (Dict.Without.delete runData _).congr (by simp [notMain, eq_comm])

section

variable (wellFormed : graph.WellFormed) (inside : node ∈ graph.nodes.values)
  (runData : IRunData Item)

include wellFormed inside runData

theorem deleteWithSubNodes_without
    : ∃ newRunData,
        deleteWithSubNodes graph runData node = .ok newRunData
        ∧ Dict.Without
            (fun nodeName =>
              node.name = nodeName
              ∨ ∃ connection ∈ graph.connections.values,
                  graph.Leads connection.toNode node
                  ∧ connection.type ≠ .main ∧ connection.fromNode.name = nodeName)
            runData newRunData := by
  obtain ⟨connections, found, mem_connections⟩ := wellFormed.getParentConnections inside
  refine ⟨_, by rw [deleteWithSubNodes, found]; rfl, ?_⟩
  have loop := Dict.Without.foldl connections (fun connection d =>
    deleteSubNode_without d connection) (runData.delete node.name)
  refine ((Dict.Without.delete runData node.name).trans loop).congr ?_
  intro nodeName _
  simp only [mem_connections, and_assoc, eq_comm]

/-- A node to clean takes the run data of every node below it along, and of every sub-node
above one of these.
-/
theorem cleanNode_without
    : ∃ newRunData,
        cleanNode graph runData node = .ok newRunData
        ∧ Dict.Without
            (fun nodeName => ∃ gone,
              gone.name = nodeName
              ∧ (graph.Leads node gone ∨ graph.ServesAbove [node] gone))
            runData newRunData := by
  obtain ⟨children, found, mem_children⟩ := wellFormed.getChildren inside
  have mem_below : ∀ child, child ∈ node :: children ↔ graph.Leads node child := by
    intro child
    rw [List.mem_cons, mem_children]
    exact (Relation.reflTransGen_iff_eq_or_transGen).symm
  obtain ⟨newRunData, ran, loop⟩ := Dict.Without.foldlM
    (fun child member (d : IRunData Item) => deleteWithSubNodes_without wellFormed
      (wellFormed.leads_mem ((mem_below child).mp member) inside) d)
    (runData.delete node.name)
  refine ⟨newRunData, by rw [cleanNode, found]; exact ran, ?_⟩
  refine ((Dict.Without.delete runData node.name).trans loop).congr ?_
  intro nodeName _
  simp only [mem_below]
  constructor
  · rintro (rfl | ⟨child, leads, rfl | ⟨connection, here, above, notMain, rfl⟩⟩)
    · exact ⟨node, rfl, .inl .refl⟩
    · exact ⟨child, rfl, .inl leads⟩
    · exact ⟨_, rfl, .inr ⟨connection, here, notMain, rfl, child, ⟨node, by simp, leads⟩, above⟩⟩
  · rintro ⟨gone, rfl, leads | ⟨connection, here, notMain, rfl, child, below, above⟩⟩
    · exact .inr ⟨gone, leads, .inl rfl⟩
    · obtain ⟨same, member, leads⟩ := below
      obtain rfl := List.mem_singleton.mp member
      exact .inr ⟨child, leads, .inr ⟨connection, here, above, notMain, rfl⟩⟩

end

theorem deleteOutside_without (graph : DirectedGraph) (runData : IRunData Item)
    (nodeName : String)
    : Dict.Without (fun key => graph.hasNode key = false ∧ key = nodeName) runData
        (deleteOutside graph runData nodeName) := by
  unfold deleteOutside
  split
  case isTrue known => exact .refl (by rintro key ⟨unknown, rfl⟩; simp [known] at unknown)
  case isFalse unknown =>
    apply (Dict.Without.delete runData nodeName).congr
    intro key _
    constructor
    · rintro rfl
      exact ⟨Bool.eq_false_iff.mpr unknown, rfl⟩
    · exact And.right

theorem DirectedGraph.WellFormed.hasNode (wellFormed : graph.WellFormed) {nodeName : String}
    : graph.hasNode nodeName = true ↔ ∃ node ∈ graph.nodes.values, node.name = nodeName := by
  rw [DirectedGraph.hasNode, Option.isSome_iff_exists]
  constructor
  · rintro ⟨node, found⟩
    exact ⟨node, Dict.mem_values_iff.mpr ⟨nodeName, found⟩, (wellFormed.nodesKeyed found).symm⟩
  · rintro ⟨node, member, rfl⟩
    exact ⟨node, wellFormed.nodesKeyed.mem_values.mp member⟩

section

variable (wellFormed : graph.WellFormed) (inside : ∀ node ∈ nodesToClean, node ∈ graph.nodes.values)

include wellFormed inside

theorem DirectedGraph.WellFormed.outdated_mem
    (gone : graph.Below nodesToClean node ∨ graph.ServesAbove nodesToClean node)
    : node ∈ graph.nodes.values := by
  rcases gone with ⟨nodeToClean, member, leads⟩ | ⟨connection, here, _, rfl, _⟩
  · exact wellFormed.leads_mem leads (inside nodeToClean member)
  · exact wellFormed.fromExists connection here

/-- The outer loop takes the run data of all nodes below the nodes to clean, and of the
sub-nodes above one of these.
-/
theorem cleanNodes_without (runData : IRunData Item)
    : ∃ newRunData,
        nodesToClean.foldlM (cleanNode graph) runData = .ok newRunData
        ∧ Dict.Without
            (fun nodeName => ∃ gone,
              gone.name = nodeName
              ∧ (graph.Below nodesToClean gone ∨ graph.ServesAbove nodesToClean gone))
            runData newRunData := by
  obtain ⟨newRunData, ran, loop⟩ := Dict.Without.foldlM
    (fun node member (d : IRunData Item) => cleanNode_without wellFormed (inside node member) d)
    runData
  refine ⟨newRunData, ran, loop.congr ?_⟩
  intro nodeName _
  constructor
  · rintro ⟨node, member, gone, rfl,
      leads | ⟨connection, here, notMain, ends, child, below, above⟩⟩
    · exact ⟨gone, rfl, .inl ⟨node, member, leads⟩⟩
    · obtain ⟨same, single, leads⟩ := below
      obtain rfl := List.mem_singleton.mp single
      exact ⟨gone, rfl,
        .inr ⟨connection, here, notMain, ends, child, ⟨same, member, leads⟩, above⟩⟩
  · rintro ⟨gone, rfl,
      ⟨node, member, leads⟩ | ⟨connection, here, notMain, ends, child, below, above⟩⟩
    · exact ⟨node, member, gone, rfl, .inl leads⟩
    · obtain ⟨node, member, leads⟩ := below
      exact ⟨node, member, gone, rfl,
        .inr ⟨connection, here, notMain, ends, child, ⟨node, by simp, leads⟩, above⟩⟩

theorem cleanRunData_without (runData : IRunData Item)
    : ∃ newRunData,
        cleanRunData runData graph nodesToClean = .ok newRunData
        ∧ ∀ nodeName runs,
            newRunData.get? nodeName = some runs
              ↔ runData.get? nodeName = some runs
                ∧ ∃ node ∈ graph.nodes.values,
                    node.name = nodeName
                    ∧ ¬ (graph.Below nodesToClean node ∨ graph.ServesAbove nodesToClean node) := by
  obtain ⟨between, ran, inner⟩ := cleanNodes_without wellFormed inside runData
  have outer := Dict.Without.foldl between.keys (fun nodeName (d : IRunData Item) =>
    deleteOutside_without graph d nodeName) between
  refine ⟨_, by rw [cleanRunData, ran]; rfl, ?_⟩
  intro nodeName runs
  rw [outer nodeName runs]
  constructor
  · rintro ⟨still, known⟩
    obtain ⟨here, staying⟩ := (inner nodeName runs).mp still
    have hasNode : graph.hasNode nodeName = true := by
      by_contra unknown
      exact known ⟨nodeName, Dict.mem_keys_of_get? still, Bool.eq_false_iff.mpr unknown, rfl⟩
    obtain ⟨node, member, rfl⟩ := wellFormed.hasNode.mp hasNode
    exact ⟨here, node, member, rfl, fun gone => staying ⟨node, rfl, gone⟩⟩
  · rintro ⟨here, node, member, rfl, staying⟩
    refine ⟨(inner node.name runs).mpr ⟨here, ?_⟩, ?_⟩
    · rintro ⟨gone, same, lost⟩
      obtain rfl := wellFormed.nodesKeyed.eq_of_key
        (wellFormed.outdated_mem inside lost) member same
      exact staying lost
    · rintro ⟨other, _, unknown, rfl⟩
      have hasNode := wellFormed.hasNode.mpr ⟨node, member, rfl⟩
      simp [hasNode] at unknown

end

theorem DirectedGraph.of_ok {condition : Bool} {result : Unit}
    (passed : DirectedGraph.ok condition = .ok result)
    : condition = true := by
  cases condition with
  | true => rfl
  | false => contradiction

/-- A node to clean that is not of the graph makes it throw. -/
theorem mem_nodes_of_cleanRunData (wellFormed : graph.WellFormed)
    {runData newRunData : IRunData Item}
    (ran : cleanRunData runData graph nodesToClean = .ok newRunData)
    : ∀ node ∈ nodesToClean, node ∈ graph.nodes.values := by
  obtain ⟨between, loop, _⟩ := Exec.ok_of_bind ran
  intro node member
  obtain ⟨before, after, cleaned⟩ := Exec.ok_of_foldlM loop node member
  obtain ⟨children, found, _⟩ := Exec.ok_of_bind cleaned
  obtain ⟨connections, direct, _⟩ := Exec.ok_of_bind found
  obtain ⟨_, asserted, _⟩ := Exec.ok_of_bind direct
  exact wellFormed.nodeExists_iff.mp (of_ok asserted)

/-- Cleaning is as it should be if and only if the nodes to clean are nodes of the graph and
every node with run data that serves, over a non-main connection, some node above one to
clean is itself below a node to clean, or a sub-node of one that is.
-/
theorem cleanRunData_iff (wellFormed : graph.WellFormed) (runData : IRunData Item)
    : (∃ newRunData,
        cleanRunData runData graph nodesToClean = .ok newRunData
        ∧ graph.Cleaned nodesToClean runData newRunData)
      ↔ (∀ node ∈ nodesToClean, node ∈ graph.nodes.values)
        ∧ ∀ node,
            (runData.get? node.name).isSome → graph.ServesAbove nodesToClean node
              → graph.Outdated nodesToClean node := by
  constructor
  · rintro ⟨newRunData, ran, cleaned⟩
    have inside := mem_nodes_of_cleanRunData wellFormed ran
    refine ⟨inside, ?_⟩
    intro node hasData serves
    by_contra staying
    obtain ⟨runs, here⟩ := Option.isSome_iff_exists.mp hasData
    have member := wellFormed.outdated_mem inside (.inr serves)
    have kept := (cleaned node.name runs).mpr ⟨here, node, member, rfl, staying⟩
    obtain ⟨same, ran', left⟩ := cleanRunData_without wellFormed inside runData
    cases ran.symm.trans ran'
    obtain ⟨_, other, there, sameName, untouched⟩ := (left node.name runs).mp kept
    obtain rfl := wellFormed.nodesKeyed.eq_of_key there member sameName
    exact untouched (.inr serves)
  · rintro ⟨inside, apart⟩
    obtain ⟨newRunData, ran, left⟩ := cleanRunData_without wellFormed inside runData
    refine ⟨newRunData, ran, ?_⟩
    intro nodeName runs
    rw [left nodeName runs]
    refine and_congr_right fun here => exists_congr fun node => and_congr_right fun _ =>
      and_congr_right fun same => not_congr ⟨?_, ?_⟩
    · rintro (below | serves)
      · exact .inl below
      · exact apart node (by simp [same, here]) serves
    · rintro (below | ⟨root, below, attached⟩)
      · exact .inl below
      · exact .inr (servesAbove_of_subNode below attached)

/-- A trigger before an agent, which a model serves, before a further node. -/
def agentBeforeNode : DirectedGraph where
  nodes := Dict.empty.insertAll INode.name
    [
      ⟨"1", "Trigger", "set", false⟩, ⟨"2", "Agent", "set", false⟩,
      ⟨"3", "Model", "set", false⟩, ⟨"4", "Wait", "set", false⟩
    ]
  connections := Dict.empty.insertAll makeKey
    [
      ⟨⟨"1", "Trigger", "set", false⟩, ⟨"2", "Agent", "set", false⟩, .main, 0, 0⟩,
      ⟨⟨"3", "Model", "set", false⟩, ⟨"2", "Agent", "set", false⟩, .aiLanguageModel, 0, 0⟩,
      ⟨⟨"2", "Agent", "set", false⟩, ⟨"4", "Wait", "set", false⟩, .main, 0, 0⟩
    ]

theorem agentBeforeNode_wellFormed : agentBeforeNode.WellFormed where
  nodesKeyed := Dict.KeyedBy.empty.insertAll _
  connectionsKeyed := Dict.KeyedBy.empty.insertAll _
  fromExists := by decide +kernel
  toExists := by decide +kernel

def agentNode : INode := ⟨"2", "Agent", "set", false⟩

def modelNode : INode := ⟨"3", "Model", "set", false⟩

def waitNode : INode := ⟨"4", "Wait", "set", false⟩

/-- One run without data for each of its nodes. -/
def agentRunData : IRunData Unit :=
  ["Trigger", "Agent", "Model", "Wait"].foldl
    (fun runData nodeName => runData.set nodeName [⟨none⟩]) .empty

theorem serves_agentBeforeNode {source target : INode}
    (serves : agentBeforeNode.Serves source target)
    : source = modelNode ∧ target = agentNode := by
  have all : ∀ connection ∈ agentBeforeNode.connections.values, connection.type ≠ .main
      → connection.fromNode = modelNode ∧ connection.toNode = agentNode := by
    decide +kernel
  obtain ⟨connection, here, notMain, rfl, rfl⟩ := serves
  exact all connection here notMain

/-- Cleaning the agent takes the run data of its model and of the node below. -/
theorem cleanRunData_agent
    : ∃ newRunData,
        cleanRunData agentRunData agentBeforeNode [agentNode] = .ok newRunData
        ∧ agentBeforeNode.Cleaned [agentNode] agentRunData newRunData := by
  refine (cleanRunData_iff agentBeforeNode_wellFormed agentRunData).mpr ⟨by decide +kernel, ?_⟩
  rintro node _ ⟨connection, here, notMain, rfl, _⟩
  have serves : agentBeforeNode.Serves connection.fromNode connection.toNode :=
    ⟨connection, here, notMain, rfl, rfl⟩
  refine .inr ⟨agentNode, ⟨agentNode, by simp, .refl⟩, .single ?_⟩
  exact (serves_agentBeforeNode serves).2 ▸ serves

/-- Cleaning the node behind the agent takes the run data of the agent's model along, though
the agent keeps its own.
-/
theorem cleanRunData_behindAgent
    : ¬ ∃ newRunData,
        cleanRunData agentRunData agentBeforeNode [waitNode] = .ok newRunData
        ∧ agentBeforeNode.Cleaned [waitNode] agentRunData newRunData := by
  rintro ⟨newRunData, ran, cleaned⟩
  have lost : newRunData.get? "Model" = none := by
    have computed : (cleanRunData agentRunData agentBeforeNode [waitNode]).toOption.bind
        (fun newRunData => newRunData.get? "Model") = none := by
      decide +kernel
    rw [ran] at computed
    exact computed
  have last : ∀ node, agentBeforeNode.Below [waitNode] node → node = waitNode := by
    rintro node ⟨start, member, leads⟩
    obtain rfl := List.mem_singleton.mp member
    have none : ∀ connection ∈ agentBeforeNode.connections.values,
        connection.fromNode ≠ waitNode := by
      decide +kernel
    induction leads with
    | refl => rfl
    | tail _ connected ih =>
        obtain ⟨connection, here, from_, _⟩ := connected
        exact absurd (from_.trans ih) (none connection here)
  have staying : ¬ agentBeforeNode.Outdated [waitNode] modelNode := by
    rintro (below | ⟨root, below, attached⟩)
    · exact absurd (last modelNode below) (by decide)
    · obtain ⟨_, _, serves⟩ := Relation.TransGen.tail'_iff.mp attached
      have same := (serves_agentBeforeNode serves).2.symm.trans (last root below)
      exact absurd same (by decide)
  have kept := (cleaned "Model" [⟨none⟩]).mpr
    ⟨rfl, modelNode, by decide +kernel, rfl, staying⟩
  rw [lost] at kept
  contradiction

end N8n.PartialExecution
