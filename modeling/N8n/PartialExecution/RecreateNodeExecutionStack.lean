import N8n.PartialExecution.DirectedGraph

/-! The execution stack and the waiting area that a partial execution starts with
(`recreate-node-execution-stack.ts`, `get-source-data-groups.ts` and `get-incoming-data.ts`
in `packages/core/src/execution-engine/partial-execution-utils`).
-/

namespace N8n.PartialExecution

variable {Item : Type}

/-- `null` is `none`; run data without any output of the type throws. -/
def getIncomingData (runData : IRunData Item) (nodeName : String) (runIndex : Nat)
    (connectionType : NodeConnectionType) (outputIndex : Nat)
    : Except JsError (Option (List Item)) :=
  match ((runData.get? nodeName).bind (fun runs => runs[runIndex]?)).bind
      (fun run => run.data) with
  | none => .ok none
  | some data =>
      match data.get? connectionType with
      | none => .error .typeError
      | some outputs =>
          match Slot.read outputs outputIndex with
          | .value items => .ok (some items)
          | _ => .ok none

structure IncomingData (Item : Type) where
  data : List Item
  runIndex : Nat

/-- The data of the first of these runs that has any. -/
def findIncomingData (runData : IRunData Item) (nodeName : String)
    (connectionType : NodeConnectionType) (outputIndex : Nat)
    : List Nat → Except JsError (Option (IncomingData Item))
  | [] => .ok none
  | runIndex :: rest => do
      match ← getIncomingData runData nodeName runIndex connectionType outputIndex with
      | some (item :: items) => return some ⟨item :: items, runIndex⟩
      | _ => findIncomingData runData nodeName connectionType outputIndex rest

def getIncomingDataFromAnyRun (runData : IRunData Item) (nodeName : String)
    (connectionType : NodeConnectionType) (outputIndex : Nat)
    : Except JsError (Option (IncomingData Item)) :=
  findIncomingData runData nodeName connectionType outputIndex
    (List.range ((runData.get? nodeName).elim 0 List.length))

/-- `complete` tells whether all connections of the group have data. -/
structure SourceConnectionGroup where
  complete : Bool
  connections : List GraphConnection
  deriving DecidableEq

def newGroup : SourceConnectionGroup := ⟨true, []⟩

section Groups

-- how the host compares two names, `String.prototype.localeCompare`
variable (localeCompare : String → String → Int)

def sortByInputIndexThenByName (connection1 connection2 : GraphConnection) : Int :=
  if connection1.inputIndex = connection2.inputIndex then
    localeCompare connection1.fromNode.name connection2.fromNode.name
  else
    (connection1.inputIndex : Int) - connection2.inputIndex

/-- A stable sort by the comparison above. -/
def sortConnections (connections : List GraphConnection) : List GraphConnection :=
  connections.insertionSort (fun connection1 connection2 =>
    sortByInputIndexThenByName localeCompare connection1 connection2 ≤ 0)

/-- The input index in front of the lowest one of the connections. -/
def beforeLowest : List GraphConnection → Int
  | [] => 0
  | connection :: rest =>
      rest.foldl (fun lowest other => min lowest other.inputIndex) (connection.inputIndex : Int)
        - 1

/-- The loop over the input indexes; `fuel` bounds its turns. A turn takes out a connection
or closes the group, and the turn after that takes one out.
-/
def groupConnections
    : Nat → List GraphConnection → List GraphConnection → SourceConnectionGroup → Int
      → List SourceConnectionGroup
  | 0, _, _, currentGroup, _ => [currentGroup]
  | fuel + 1, withData, withoutData, currentGroup, currentInputIndex =>
      if withData.isEmpty && withoutData.isEmpty then [currentGroup]
      else
        let inputIndex := currentInputIndex + 1
        let atIndex := fun connection : GraphConnection =>
          decide ((connection.inputIndex : Int) = inputIndex)
        match withData.find? atIndex with
        | some connection =>
            groupConnections fuel (withData.eraseP atIndex) withoutData
              { currentGroup with connections := currentGroup.connections ++ [connection] }
              inputIndex
        | none =>
            match withoutData.find? atIndex with
            | some connection =>
                groupConnections fuel withData (withoutData.eraseP atIndex)
                  ⟨false, currentGroup.connections ++ [connection]⟩ inputIndex
            | none =>
                currentGroup
                  :: groupConnections fuel withData withoutData newGroup
                    (beforeLowest (withData ++ withoutData))

def getSourceDataGroups (graph : DirectedGraph) (node : INode) (runData : IRunData Item)
    (pinnedData : IPinData Item)
    : List SourceConnectionGroup :=
  let connections := graph.getConnections (some node)
  let hasData := fun connection : GraphConnection =>
    (runData.get? connection.fromNode.name).isSome
      || (pinnedData.get? connection.fromNode.name).isSome
  let withData := connections.filter hasData
  let withoutData := connections.filter (fun connection =>
    !hasData connection && connection.type = .main)
  if withData.isEmpty && withoutData.isEmpty then []
  else
    let sortedWithData := sortConnections localeCompare withData
    let sortedWithoutData := sortConnections localeCompare withoutData
    groupConnections (2 * (withData.length + withoutData.length) + 1) sortedWithData
      sortedWithoutData newGroup (beforeLowest (sortedWithData ++ sortedWithoutData))

end Groups

structure Recreated (Item : Type) where
  nodeExecutionStack : List (IExecuteData Item)
  waitingExecution : IWaitingForExecution Item
  waitingExecutionSource : IWaitingForExecutionSource

/-- `waiting[nodeName][runIndex][inputType][inputIndex] = slot`, where everything on the
way that is missing is created.
-/
def addWaiting {α : Type} (waiting : WaitingFor α) (nodeName : String) (runIndex : Nat)
    (inputType : NodeConnectionType) (inputIndex : Nat) (slot : Slot α)
    : WaitingFor α :=
  let runs := (waiting.get? nodeName).getD .empty
  let connections := (runs.get? runIndex).getD .empty
  let slots := (connections.get? inputType).getD []
  waiting.set nodeName
    (runs.set runIndex (connections.set inputType (Slot.write slots inputIndex slot)))

def addWaitingExecution (waitingExecution : IWaitingForExecution Item) (nodeName : String)
    (runIndex : Nat) (inputType : NodeConnectionType) (inputIndex : Nat)
    (executionData : Slot (List Item))
    : IWaitingForExecution Item :=
  addWaiting waitingExecution nodeName runIndex inputType inputIndex executionData

def addWaitingExecutionSource (waitingExecutionSource : IWaitingForExecutionSource)
    (nodeName : String) (runIndex : Nat) (inputType : NodeConnectionType) (inputIndex : Nat)
    (sourceData : Slot ISourceData)
    : IWaitingForExecutionSource :=
  addWaiting waitingExecutionSource nodeName runIndex inputType inputIndex sourceData

/-- Adds the data of one connection of a complete group, and its source. -/
def addIncomingData (runData : IRunData Item) (pinData : IPinData Item) (startNode : INode)
    (incoming : List (Slot (List Item)) × List (Slot ISourceData))
    (connection : GraphConnection)
    : Except JsError (List (Slot (List Item)) × List (Slot ISourceData)) := do
  let sourceNode := connection.fromNode
  let source (runIndex : Nat) : Slot ISourceData :=
    .value ⟨sourceNode.name, some connection.outputIndex, some runIndex⟩
  match pinData.get? sourceNode.name with
  | some items => return (incoming.1 ++ [.value items], incoming.2 ++ [source 0])
  | none =>
      if (runData.get? sourceNode.name).isNone then
        throw (.assertion (some ("Start node(" ++ connection.toNode.name
          ++ ") has an incoming connection with no run or pinned data. This is not "
          ++ "supported. The connection in question is \"" ++ sourceNode.name ++ "->"
          ++ startNode.name ++ "\". Are you sure the start nodes come from the "
          ++ "\"findStartNodes\" function?")))
      match ← getIncomingDataFromAnyRun runData sourceNode.name connection.type
          connection.outputIndex with
      | some found =>
          return (incoming.1 ++ [.value found.data], incoming.2 ++ [source found.runIndex])
      | none => return (incoming.1, incoming.2 ++ [source 0])

/-- An item for the stack, with what arrives at the main inputs. -/
def stackItem (startNode : INode) (data : List (Slot (List Item)))
    (source : Option (List (Slot ISourceData)))
    : IExecuteData Item where
  data := Dict.empty.set .main data
  metadata := none
  node := some startNode
  source := source.map (fun main => Dict.empty.set .main main)
  runIndex := none

/-- Adds the data of one connection of an incomplete group to the waiting area, if it has
any run data.
-/
def addToWaiting (runData : IRunData Item) (nodeName : String) (nextRunIndex : Nat)
    (recreated : Recreated Item) (connection : GraphConnection)
    : Except JsError (Recreated Item) := do
  match ← getIncomingDataFromAnyRun runData connection.fromNode.name connection.type
      connection.outputIndex with
  | none => return recreated
  | some found =>
      return {
        recreated with
        waitingExecution :=
          addWaitingExecution recreated.waitingExecution nodeName nextRunIndex
            connection.type connection.inputIndex (.value found.data)
        waitingExecutionSource :=
          addWaitingExecutionSource recreated.waitingExecutionSource nodeName nextRunIndex
            connection.type connection.inputIndex
            (.value ⟨connection.fromNode.name, some connection.outputIndex,
              some nextRunIndex⟩)
      }

def recreateGroup (runData : IRunData Item) (pinData : IPinData Item) (startNode : INode)
    (recreated : Recreated Item) (group : SourceConnectionGroup)
    : Except JsError (Recreated Item) := do
  if group.complete then
    let (incomingData, incomingSourceData) ←
      group.connections.foldlM (addIncomingData runData pinData startNode) ([], [])
    return {
      recreated with
      nodeExecutionStack := recreated.nodeExecutionStack
        ++ [stackItem startNode incomingData (some incomingSourceData)]
    }
  else
    let nextRunIndex :=
      (recreated.waitingExecution.get? startNode.name).elim 0 (fun runs => runs.keys.length)
    group.connections.foldlM (addToWaiting runData startNode.name nextRunIndex) recreated

section Recreation

variable [Inhabited Item] (localeCompare : String → String → Int) (graph : DirectedGraph)
variable (runData : IRunData Item) (pinData : IPinData Item)

def recreateStartNode (recreated : Recreated Item) (startNode : INode)
    : Except JsError (Recreated Item) := do
  let parentConnections ← graph.getDirectParentConnections startNode
  if (parentConnections.filter (fun connection => connection.type = .main)).isEmpty then
    return {
      recreated with
      nodeExecutionStack := recreated.nodeExecutionStack
        ++ [stackItem startNode [.value [default]] none]
    }
  else
    (getSourceDataGroups localeCompare graph startNode runData pinData).foldlM
      (recreateGroup runData pinData startNode) recreated

/-- The text of the assertion that no node is disabled. -/
def disabledMessage (node : INode) : String :=
  "Graph contains disabled nodes. This is not supported. Make sure to pass the graph "
    ++ "through \"findSubgraph\" before calling \"recreateNodeExecutionStack\". The node in "
    ++ "question is \"" ++ node.name ++ "\""

/-- The start nodes are a set, here in the order of its enumeration. -/
def recreateNodeExecutionStack (startNodes : List INode)
    : Except JsError (Recreated Item) := do
  graph.nodes.values.forM (fun node =>
    if node.disabled then throw (.assertion (some (disabledMessage node))) else pure ⟨⟩)
  startNodes.foldlM (recreateStartNode localeCompare graph runData pinData)
    ⟨[], .empty, .empty⟩

end Recreation

end N8n.PartialExecution
