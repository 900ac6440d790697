import N8n.PartialExecution.FilterDisabledNodes
import N8n.Workflow.RenameNode

/-! Importing a graph from a workflow and exporting it again
(`fromWorkflow` and `toWorkflow` of
`packages/core/src/execution-engine/partial-execution-utils/directed-graph.ts`). The export
has one table per node and only makes room for the first type of connection it meets.
-/

namespace N8n

/-- `connections[index] = group`, which leaves holes before it. -/
def NodeInputConnections.put (connections : NodeInputConnections) (index : Nat)
    (group : List IConnection)
    : NodeInputConnections :=
  if index < connections.length then connections.set index (some group)
  else connections ++ List.replicate (index - connections.length) none ++ [some group]

namespace PartialExecution.DirectedGraph

/-! ### Import and export -/

def fromWorkflow (workflow : Workflow) : Except JsError DirectedGraph :=
  addWorkflowConnections workflow.getNode workflow.connectionsBySourceNode
    (empty.addNodes workflow.nodes.values)

/-- The loop body of the export. -/
def exportConnection (result : IConnections) (connection : GraphConnection)
    : Except JsError IConnections :=
  let resultConnection :=
    (result.get? connection.fromNode.name).getD (Dict.empty.set connection.type [])
  match resultConnection.get? connection.type with
  | none => throw .typeError
  | some outputs =>
      let group :=
        outputs.at connection.outputIndex
          ++ [
            {
              node := connection.toNode.name
              type := connection.type
              index := connection.inputIndex
            }
          ]
      pure
        (result.set connection.fromNode.name
          (resultConnection.set connection.type (outputs.put connection.outputIndex group)))

def toIConnections (graph : DirectedGraph) : Except JsError IConnections :=
  graph.connections.values.foldlM exportConnection Dict.empty

def toWorkflow (graph : DirectedGraph) (settings : IWorkflowSettings) : Except JsError Workflow := do
  return Workflow.new graph.nodes.values (← graph.toIConnections) settings

/-! ### What is imported -/

/-- The graph with further connections. -/
def withConnections (graph : DirectedGraph) (added : List GraphConnection) : DirectedGraph :=
  { graph with connections := graph.connections.insertAll makeKey added }

theorem withConnections_append (graph : DirectedGraph) (first second : List GraphConnection)
    : (graph.withConnections first).withConnections second
      = graph.withConnections (first ++ second) := by
  simp [withConnections, Dict.insertAll]

variable {graph : DirectedGraph}

/-- A loop that adds connections in each turn adds them all. -/
theorem foldlM_withConnections {ι : Type} {items : List ι}
    {step : DirectedGraph → ι → Except JsError DirectedGraph} {added : ι → List GraphConnection}
    (adds : ∀ item ∈ items, ∀ now : DirectedGraph, now.nodes = graph.nodes
      → step now item = .ok (now.withConnections (added item)))
    : items.foldlM step graph = .ok (graph.withConnections (items.flatMap added)) := by
  induction items generalizing graph with
  | nil => rfl
  | cons item rest ih =>
      rw [List.foldlM_cons, adds item (.head _) graph rfl, List.flatMap_cons,
        ← withConnections_append]
      exact ih (fun other member now same =>
        adds other (.tail _ member) now same)

/-- The connection of a graph for one of a workflow, if both its nodes exist. -/
def imported (nodes : Dict String INode) (place connection : IConnection)
    : Option GraphConnection := do
  let fromNode ← nodes.get? place.node
  let toNode ← nodes.get? connection.node
  return {
    fromNode
    toNode
    type := place.type
    outputIndex := place.index
    inputIndex := connection.index
  }

def importedConnections (workflow : Workflow) : List GraphConnection :=
  workflow.connectionsBySourceNode.edges.flatMap
    (fun edge => (imported workflow.nodes edge.1 edge.2).toList)

/-- The names that a workflow's connections use are names of its nodes. -/
structure NamesNodes (workflow : Workflow) : Prop where
  nodesKeyed : workflow.nodes.KeyedBy INode.name
  sourceExists
    : ∀ place connection,
        workflow.connectionsBySourceNode.HasEdge place connection
        → place.node ∈ workflow.nodes.keys
  targetExists
    : ∀ place connection,
        workflow.connectionsBySourceNode.HasEdge place connection
        → connection.node ∈ workflow.nodes.keys

variable {workflow : Workflow}

theorem nodes_addNodes (keyed : workflow.nodes.KeyedBy INode.name)
    : (empty.addNodes workflow.nodes.values).nodes = workflow.nodes := by
  rw [addNodes_eq]
  exact keyed.insertAll_values

theorem exists_node {name : String} (keyed : workflow.nodes.KeyedBy INode.name)
    (exists_ : name ∈ workflow.nodes.keys)
    : ∃ node, workflow.nodes.get? name = some node ∧ node.name = name := by
  obtain ⟨node, found⟩ := Dict.exists_get?_of_mem_keys exists_
  exact ⟨node, found, (keyed found).symm⟩

/-- One turn of the innermost loop. -/
theorem addConnection_imported {graph : DirectedGraph} (keyed : workflow.nodes.KeyedBy INode.name)
    (same : graph.nodes = workflow.nodes) {place connection : IConnection}
    {fromNode toNode : INode}
    (fromFound : workflow.nodes.get? place.node = some fromNode)
    (toFound : workflow.nodes.get? connection.node = some toNode)
    : addConnection graph
          {
            fromNode
            toNode
            type := some place.type
            outputIndex := some place.index
            inputIndex := some connection.index
          }
        = .ok (graph.withConnections (imported workflow.nodes place connection).toList) := by
  have ofName {node : INode} {name : String} (found : workflow.nodes.get? name = some node)
      : graph.nodeExists node = true := by
    have isName := keyed found
    subst isName
    simpa [nodeExists, same] using found
  let read : GraphConnection :=
    {
      fromNode
      toNode
      type := place.type
      outputIndex := place.index
      inputIndex := connection.index
    }
  have fromExists : graph.nodeExists read.fromNode = true := ofName fromFound
  have added := addConnection_ok fromExists (ofName toFound)
  rw [added]
  simp [imported, fromFound, toFound, withConnections, Dict.insertAll, read]

/-- The import adds each connection of the workflow, in the order of its loops. -/
theorem NamesNodes.fromWorkflow (names : NamesNodes workflow)
    (sourcesExist : ∀ name ∈ workflow.connectionsBySourceNode.keys, name ∈ workflow.nodes.keys)
    : fromWorkflow workflow
      = .ok ((empty.addNodes workflow.nodes.values).withConnections
          (importedConnections workflow)) := by
  have keyed := names.nodesKeyed
  unfold DirectedGraph.fromWorkflow addWorkflowConnections importedConnections
    IConnections.edges
  simp only [List.flatMap_assoc, List.flatMap_map]
  refine foldlM_withConnections ?_
  intro ofNode inNode first sameFirst
  rw [nodes_addNodes keyed] at sameFirst
  obtain ⟨fromNode, fromFound, -⟩ :=
    exists_node keyed (sourcesExist ofNode.1 (List.mem_map_of_mem inNode))
  simp only [Workflow.getNode, fromFound]
  refine foldlM_withConnections ?_
  intro ofType inType second sameSecond
  refine foldlM_withConnections ?_
  intro ofIndex inIndex third sameThird
  refine foldlM_withConnections ?_
  intro connection inConnections fourth sameFourth
  have edge
      : workflow.connectionsBySourceNode.HasEdge
          { node := ofNode.1, type := ofType.1, index := ofIndex.2 } connection := by
    refine IConnections.mem_edges_iff.mp ?_
    refine List.mem_flatMap.mpr ⟨ofNode, inNode, List.mem_flatMap.mpr ⟨ofType, inType, ?_⟩⟩
    refine List.mem_flatMap.mpr ⟨ofIndex, inIndex, List.mem_map_of_mem inConnections⟩
  obtain ⟨toNode, toFound, -⟩ := exists_node keyed (names.targetExists _ _ edge)
  have same : fourth.nodes = workflow.nodes :=
    sameFourth.trans (sameThird.trans (sameSecond.trans sameFirst))
  simp only [toFound]
  exact @addConnection_imported _ _ keyed same
    { node := ofNode.1, type := ofType.1, index := ofIndex.2 } _ _ _ fromFound toFound

/-- A workflow that is imported has a node for each name it keeps connections of. -/
theorem sourcesExist_of_fromWorkflow (built : fromWorkflow workflow = .ok graph)
    : ∀ name ∈ workflow.connectionsBySourceNode.keys, name ∈ workflow.nodes.keys := by
  intro name member
  obtain ⟨entry, inEntries, rfl⟩ := List.mem_map.mp member
  obtain ⟨before, after, turned⟩ := Exec.ok_of_foldlM built entry inEntries
  by_contra absent
  have noNode : workflow.getNode entry.1 = none := Dict.get?_eq_none_iff.mpr absent
  simp only [noNode] at turned
  cases turned

variable {connection : GraphConnection}

theorem mem_importedConnections
    : connection ∈ importedConnections workflow
      ↔ ∃ place target,
          workflow.connectionsBySourceNode.HasEdge place target
          ∧ imported workflow.nodes place target = some connection := by
  simp only [importedConnections, List.mem_flatMap, Option.mem_toList, Prod.exists,
    IConnections.mem_edges_iff]

/-! ### What is exported -/

/-- The place of a connection in a workflow's table. -/
def sourcePlace (connection : GraphConnection) : IConnection :=
  {
    node := connection.fromNode.name
    type := connection.type
    index := connection.outputIndex
  }

/-- What the export keeps of its target. -/
def exportedTarget (connection : GraphConnection) : IConnection :=
  {
    node := connection.toNode.name
    type := connection.type
    index := connection.inputIndex
  }

theorem at_put (connections : NodeInputConnections) (index other : Nat)
    (group : List IConnection)
    : (connections.put index group).at other
      = if other = index then group else connections.at other := by
  unfold NodeInputConnections.put NodeInputConnections.at
  by_cases inside : index < connections.length
  · rw [if_pos inside, List.getElem?_set]
    by_cases same : other = index
    · subst same
      simp [inside]
    · simp [same, Ne.symm same]
  · rw [if_neg inside]
    by_cases same : other = index
    · subst same
      rw [List.getElem?_append_right (by simp; omega)]
      simp [show connections.length + (other - connections.length) = other by omega]
    · rw [if_neg same]
      by_cases before : other < connections.length
      · rw [List.append_assoc, List.getElem?_append_left before]
      · rw [List.append_assoc, List.getElem?_append_right (by omega),
          List.getElem?_eq_none (show connections.length ≤ other by omega)]
        by_cases padded : other - connections.length < index - connections.length
        · simp [List.getElem?_append_left, padded]
        · rw [List.getElem?_eq_none (by simp; omega)]

variable {result : IConnections}

/-- An export that returns adds the connection at its place and changes no other one. -/
theorem ofType_exportConnection {exported : IConnections}
    (returned : exportConnection result connection = .ok exported) (node : String)
    (type : NodeConnectionType)
    : exported.ofType node type
      = if node = connection.fromNode.name ∧ type = connection.type then
          (result.ofType connection.fromNode.name connection.type).put connection.outputIndex
            ((result.ofType connection.fromNode.name connection.type).at connection.outputIndex
              ++ [exportedTarget connection])
        else result.ofType node type := by
  unfold exportConnection at returned
  simp only at returned
  split at returned
  · cases returned
  · next outputs found =>
      cases returned
      have isOld : result.ofType connection.fromNode.name connection.type = outputs := by
        unfold IConnections.ofType
        cases inNode : result.get? connection.fromNode.name with
        | none =>
            rw [inNode, Option.getD_none, Dict.get?_set_self] at found
            exact Option.some.inj found
        | some ofNode =>
            rw [inNode, Option.getD_some] at found
            simp [found]
      rw [isOld]
      conv_lhs => unfold IConnections.ofType
      rw [Dict.get?_set]
      by_cases sameNode : node = connection.fromNode.name
      · subst sameNode
        rw [if_pos rfl, Option.bind_some, Dict.get?_set]
        by_cases sameType : type = connection.type
        · subst sameType
          rw [if_pos rfl, if_pos ⟨rfl, rfl⟩]
          rfl
        · rw [if_neg sameType, if_neg (fun both => sameType both.2)]
          unfold IConnections.ofType
          cases inNode : result.get? connection.fromNode.name with
          | none => simp [Dict.get?_set, sameType]
          | some ofNode => simp
      · rw [if_neg sameNode, if_neg (fun both => sameNode both.1)]
        rfl

/-- The tables that the connections `done` have been exported to. -/
structure Exported (done : List GraphConnection) (result : IConnections) : Prop where
  edges
    : ∀ place target,
        result.HasEdge place target
        ↔ ∃ connection ∈ done, place = sourcePlace connection ∧ target = exportedTarget connection
  types
    : ∀ connection ∈ done,
        ∃ ofNode,
          result.get? connection.fromNode.name = some ofNode
          ∧ ∀ type, type ∈ ofNode.keys ↔ type = connection.type
  sources
    : ∀ name ∈ result.keys, ∃ connection ∈ done, connection.fromNode.name = name

theorem exported_nil : Exported [] Dict.empty where
  edges := by simp [IConnections.HasEdge]
  types := by simp
  sources := by simp [Dict.keys, Dict.empty]

section

variable {exported : IConnections} (returned : exportConnection result connection = .ok exported)

include returned

theorem hasEdge_exportConnection (place target : IConnection)
    : exported.HasEdge place target
      ↔ result.HasEdge place target
        ∨ place = sourcePlace connection ∧ target = exportedTarget connection := by
  rw [IConnections.hasEdge_iff, IConnections.hasEdge_iff, ofType_exportConnection returned]
  obtain ⟨node, type, index⟩ := place
  simp only
  split
  · next here =>
      obtain ⟨rfl, rfl⟩ := here
      rw [at_put]
      split
      · next sameIndex =>
          subst sameIndex
          simp [sourcePlace]
      · next otherIndex => simp [sourcePlace, otherIndex]
  · next elsewhere =>
      have otherPlace : ({ node, type, index } : IConnection) ≠ sourcePlace connection := by
        intro same
        obtain ⟨sameNode, sameType, -⟩ := IConnection.mk.inj same
        exact elsewhere ⟨sameNode, sameType⟩
      simp [otherPlace]

/-- After an export the node's table has the type, and what it had before. -/
theorem get?_exportConnection
    : ∃ ofNode,
        exported = result.set connection.fromNode.name ofNode
        ∧ ∀ type,
            type ∈ ofNode.keys
            ↔ type = connection.type
              ∨ ∃ before, result.get? connection.fromNode.name = some before
                  ∧ type ∈ before.keys := by
  unfold exportConnection at returned
  simp only at returned
  split at returned
  · cases returned
  · next outputs found =>
      refine ⟨_, (Except.ok.inj returned).symm, ?_⟩
      intro type
      rw [Dict.mem_keys_set]
      cases result.get? connection.fromNode.name with
      | none =>
          have onlyType
              : type ∈ ((Dict.empty : INodeConnections).set connection.type []).keys
                ↔ type = connection.type := by
            rw [Dict.mem_keys_set]
            simp [Dict.keys, Dict.empty]
          simp [onlyType]
      | some before => simp

end

/-- An export throws where the node's table has no room for the type. -/
theorem exportConnection_ok_iff (result : IConnections) (connection : GraphConnection)
    : (∃ exported, exportConnection result connection = .ok exported)
      ↔ ∀ ofNode,
          result.get? connection.fromNode.name = some ofNode
          → connection.type ∈ ofNode.keys := by
  unfold exportConnection
  cases result.get? connection.fromNode.name with
  | none => simp [pure, Except.pure]
  | some ofNode =>
      simp only [Option.getD_some, Option.some.injEq, forall_eq']
      cases found : ofNode.get? connection.type with
      | none => simp [Dict.get?_eq_none_iff.mp found, throw, throwThe, MonadExceptOf.throw]
      | some outputs => simp [Dict.mem_keys_of_get? found, pure, Except.pure]

variable {done : List GraphConnection}

theorem Exported.same_type {exported : IConnections} {other : GraphConnection}
    (holds : Exported done result) (returned : exportConnection result connection = .ok exported)
    (member : other ∈ done) (sameName : other.fromNode.name = connection.fromNode.name)
    : other.type = connection.type := by
  obtain ⟨ofNode, found, isType⟩ := holds.types other member
  have room := (exportConnection_ok_iff result connection).mp ⟨exported, returned⟩
  exact ((isType _).mp (room ofNode (sameName ▸ found))).symm

theorem Exported.step {done : List GraphConnection} {result exported : IConnections}
    {connection : GraphConnection} (holds : Exported done result)
    (returned : exportConnection result connection = .ok exported)
    : Exported (done ++ [connection]) exported := by
  obtain ⟨ofNode, isExported, hasTypes⟩ := get?_exportConnection returned
  have typesOfNew (type : NodeConnectionType) : type ∈ ofNode.keys ↔ type = connection.type := by
    rw [hasTypes]
    constructor
    · rintro (same | ⟨before, found, member⟩)
      · exact same
      · obtain ⟨other, inDone, sameName⟩ := holds.sources _ (Dict.mem_keys_of_get? found)
        obtain ⟨ofOther, foundOther, isType⟩ := holds.types other inDone
        rw [sameName, found] at foundOther
        cases foundOther
        exact ((isType type).mp member).trans (holds.same_type returned inDone sameName)
    · exact .inl
  refine ⟨?_, ?_, ?_⟩
  · intro place target
    rw [hasEdge_exportConnection returned, holds.edges]
    simp [or_and_right, exists_or]
  · intro other member
    rw [isExported, Dict.get?_set]
    split
    · next sameName =>
        refine ⟨ofNode, rfl, ?_⟩
        rcases List.mem_append.mp member with inDone | isNew
        · rw [holds.same_type returned inDone sameName]
          exact typesOfNew
        · rw [List.mem_singleton.mp isNew]
          exact typesOfNew
    · next otherName =>
        rcases List.mem_append.mp member with inDone | isNew
        · exact holds.types other inDone
        · have sameName := congrArg (fun c => c.fromNode.name) (List.mem_singleton.mp isNew)
          exact absurd sameName otherName
  · intro name member
    rw [isExported, Dict.mem_keys_set] at member
    rcases member with rfl | before
    · exact ⟨connection, by simp, rfl⟩
    · obtain ⟨other, inDone, isName⟩ := holds.sources name before
      exact ⟨other, by simp [inDone], isName⟩

/-- Connections from one node are of one type. -/
def OneTypePerSource (connections : List GraphConnection) : Prop :=
  ∀ first ∈ connections, ∀ second ∈ connections,
    first.fromNode.name = second.fromNode.name → first.type = second.type

theorem Exported.oneTypePerSource (holds : Exported done result)
    : OneTypePerSource done := by
  intro first inFirst second inSecond sameName
  obtain ⟨ofFirst, found, isFirst⟩ := holds.types first inFirst
  obtain ⟨ofSecond, foundSecond, isSecond⟩ := holds.types second inSecond
  rw [← sameName, found] at foundSecond
  cases foundSecond
  exact (isSecond first.type).mp ((isFirst first.type).mpr rfl)

variable {rest : List GraphConnection}

/-- An export that returns has exported all connections, by induction on those left. -/
theorem Exported.run {final : IConnections} (holds : Exported done result)
    (returned : rest.foldlM exportConnection result = .ok final)
    : Exported (done ++ rest) final := by
  induction rest generalizing done result with
  | nil =>
      cases returned
      simpa using holds
  | cons connection rest ih =>
      rw [List.foldlM_cons] at returned
      obtain ⟨middle, here, later⟩ := Exec.ok_of_bind returned
      have whole := ih (holds.step here) later
      rwa [List.append_assoc, List.singleton_append] at whole

/-- Connections of one type per node can be exported, by induction on those left. -/
theorem Exported.exists_run (holds : Exported done result)
    (oneType : OneTypePerSource (done ++ rest))
    : ∃ final, rest.foldlM exportConnection result = .ok final := by
  induction rest generalizing done result with
  | nil => exact ⟨result, rfl⟩
  | cons connection rest ih =>
      have room : ∃ exported, exportConnection result connection = .ok exported := by
        refine (exportConnection_ok_iff result connection).mpr ?_
        intro ofNode found
        obtain ⟨other, inDone, isName⟩ := holds.sources _ (Dict.mem_keys_of_get? found)
        obtain ⟨ofOther, foundOther, isType⟩ := holds.types other inDone
        rw [isName, found] at foundOther
        cases foundOther
        exact (isType _).mpr (oneType connection (by simp) other (by simp [inDone]) isName.symm)
      obtain ⟨exported, here⟩ := room
      obtain ⟨final, later⟩ := ih (holds.step here) (by simpa using oneType)
      refine ⟨final, ?_⟩
      rw [List.foldlM_cons, here]
      exact later

/-! ### Import and export together -/

/-- The nodes and the edges of two workflows are the same. -/
def SameGraph (first second : Workflow) : Prop :=
  first.nodes = second.nodes
  ∧ ∀ place target,
      first.connectionsBySourceNode.HasEdge place target
      ↔ second.connectionsBySourceNode.HasEdge place target

/-- What a workflow needs to survive an import and an export: it keeps tables of existing
nodes only, all connections from one node are of one type, each one enters its target by the
type it leaves its source by, and no two of them have the same key.
-/
structure Exportable (workflow : Workflow) : Prop where
  sourcesExist
    : ∀ name ∈ workflow.connectionsBySourceNode.keys, name ∈ workflow.nodes.keys
  oneType
    : ∀ place target other otherTarget,
        workflow.connectionsBySourceNode.HasEdge place target
        → workflow.connectionsBySourceNode.HasEdge other otherTarget
        → place.node = other.node
        → place.type = other.type
  sameType
    : ∀ place target,
        workflow.connectionsBySourceNode.HasEdge place target → target.type = place.type
  keysTellApart
    : ∀ first ∈ importedConnections workflow,
        ∀ second ∈ importedConnections workflow,
          makeKey first = makeKey second → first = second

variable {place target : IConnection}

/-- A connection that is imported has the ends, the type and the indices of its edge. -/
theorem imported_eq_some_iff (keyed : workflow.nodes.KeyedBy INode.name)
    : imported workflow.nodes place target = some connection
      ↔ workflow.nodes.get? connection.fromNode.name = some connection.fromNode
        ∧ workflow.nodes.get? connection.toNode.name = some connection.toNode
        ∧ place = sourcePlace connection
        ∧ target.node = connection.toNode.name
        ∧ target.index = connection.inputIndex := by
  obtain ⟨fromNode, toNode, type, outputIndex, inputIndex⟩ := connection
  obtain ⟨node, ofType, index⟩ := place
  simp only [imported, sourcePlace, Option.bind_eq_bind, Option.bind_eq_some_iff, Option.pure_def,
    Option.some.injEq, GraphConnection.mk.injEq, IConnection.mk.injEq]
  constructor
  · rintro ⟨foundFrom, isFrom, foundTo, isTo, rfl, rfl, rfl, rfl, rfl⟩
    have fromName := keyed isFrom
    have toName := keyed isTo
    subst fromName
    rw [toName] at isTo
    exact ⟨isFrom, isTo, ⟨rfl, rfl, rfl⟩, toName, rfl⟩
  · rintro ⟨isFrom, isTo, ⟨rfl, rfl, rfl⟩, toName, rfl⟩
    exact ⟨fromNode, isFrom, toNode, toName ▸ isTo, rfl, rfl, rfl, rfl, rfl⟩

theorem NamesNodes.exists_imported (names : NamesNodes workflow)
    (edge : workflow.connectionsBySourceNode.HasEdge place target)
    : ∃ connection,
        imported workflow.nodes place target = some connection
        ∧ connection ∈ importedConnections workflow := by
  obtain ⟨fromNode, isFrom, -⟩ := exists_node names.nodesKeyed (names.sourceExists _ _ edge)
  obtain ⟨toNode, isTo, -⟩ := exists_node names.nodesKeyed (names.targetExists _ _ edge)
  have found
      : imported workflow.nodes place target
        = some
            {
              fromNode
              toNode
              type := place.type
              outputIndex := place.index
              inputIndex := target.index
            } := by
    simp [imported, isFrom, isTo]
  exact ⟨_, found, mem_importedConnections.mpr ⟨place, target, edge, found⟩⟩

/-- The connections of the graph that is imported, each one of its own key. -/
def importedValues (workflow : Workflow) : List GraphConnection :=
  (Dict.empty.insertAll makeKey (importedConnections workflow)).values

theorem mem_importedConnections_of_values (member : connection ∈ importedValues workflow)
    : connection ∈ importedConnections workflow := by
  rcases Dict.KeyedBy.empty.mem_of_mem_insertAll member with imported | before
  · exact imported
  · simp [Dict.values, Dict.empty] at before

/-- What an import followed by an export leads to, when it returns. -/
theorem NamesNodes.exported (names : NamesNodes workflow) {settings : IWorkflowSettings}
    {result : Workflow}
    (returned : (DirectedGraph.fromWorkflow workflow).bind (fun graph => graph.toWorkflow settings)
      = .ok result)
    : (∀ name ∈ workflow.connectionsBySourceNode.keys, name ∈ workflow.nodes.keys)
      ∧ result.nodes = workflow.nodes
      ∧ Exported (importedValues workflow) result.connectionsBySourceNode := by
  obtain ⟨graph, built, returned⟩ := Exec.ok_of_bind returned
  have sourcesExist := sourcesExist_of_fromWorkflow built
  rw [names.fromWorkflow sourcesExist] at built
  cases built
  obtain ⟨connections, exported, returned⟩ := Exec.ok_of_bind returned
  cases returned
  have holds := exported_nil.run exported
  have sameNodes := nodes_addNodes names.nodesKeyed
  have noConnections : (empty.addNodes workflow.nodes.values).connections = Dict.empty := by
    rw [addNodes_eq]
    rfl
  refine ⟨sourcesExist, ?_, ?_⟩
  · show Dict.empty.insertAll INode.name (empty.addNodes workflow.nodes.values).nodes.values = _
    rw [sameNodes]
    exact names.nodesKeyed.insertAll_values
  · show Exported _ connections
    simpa [withConnections, noConnections, importedValues] using holds

deriving instance DecidableEq for Workflow

def namedNode (name : String) : INode := ⟨name, name, "set", false⟩

/-- A trigger that feeds a node by its second output. -/
def secondOutput : Workflow :=
  Workflow.new [namedNode "Trigger", namedNode "End"]
    (Dict.empty.set "Trigger"
      (Dict.empty.set .main [none, some [{ node := "End", type := .main, index := 0 }]]))
    { executionOrder := some .v1 }

/-- A node that is a tool of one node and feeds another one. -/
def toolAndSource : Workflow :=
  Workflow.new [namedNode "Tool", namedNode "Agent", namedNode "End"]
    (Dict.empty.set "Tool"
      ((Dict.empty.set .main [some [{ node := "End", type := .main, index := 0 }]]).set .aiTool
        [some [{ node := "Agent", type := .aiTool, index := 0 }]]))
    { executionOrder := some .v1 }

theorem secondOutput_namesNodes : NamesNodes secondOutput where
  nodesKeyed := Dict.KeyedBy.empty.insertAll _
  sourceExists := by
    intro place target edge
    have isEdge := IConnections.mem_edges_iff.mpr edge
    have onlyEdge
        : secondOutput.connectionsBySourceNode.edges
          = [(⟨"Trigger", .main, 1⟩, ⟨"End", .main, 0⟩)] := by
      decide
    rw [onlyEdge] at isEdge
    obtain ⟨rfl, rfl⟩ := Prod.mk.inj (List.mem_singleton.mp isEdge)
    decide
  targetExists := by
    intro place target edge
    have isEdge := IConnections.mem_edges_iff.mpr edge
    have onlyEdge
        : secondOutput.connectionsBySourceNode.edges
          = [(⟨"Trigger", .main, 1⟩, ⟨"End", .main, 0⟩)] := by
      decide
    rw [onlyEdge] at isEdge
    obtain ⟨rfl, rfl⟩ := Prod.mk.inj (List.mem_singleton.mp isEdge)
    decide

end PartialExecution.DirectedGraph

end N8n
