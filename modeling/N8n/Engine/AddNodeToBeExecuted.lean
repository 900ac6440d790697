import N8n.Library.Exec
import N8n.Workflow.ConnectedNodes

/-! Delivery of a node's output to the next node: onto the execution stack, or into the
waiting area of a node with several inputs
(`packages/core/src/execution-engine/workflow-execute.ts`).
-/

namespace N8n.Engine

/-- `runExecutionData.executionData`. The sources are `none` where the source has `null`. -/
structure ExecutionData (Item : Type) where
  nodeExecutionStack : List (IExecuteData Item)
  waitingExecution : IWaitingForExecution Item
  waitingExecutionSource : Option IWaitingForExecutionSource

abbrev EngineM (Item : Type) := Exec (ExecutionData Item)

variable {Item : Type}

namespace ExecutionData

/-- `waitingExecution[nodeName]`, empty where it is undefined. -/
def table (self : ExecutionData Item) (nodeName : String)
    : Dict Nat (ITaskDataConnections Item) :=
  (self.waitingExecution.get? nodeName).getD .empty

def main? (self : ExecutionData Item) (nodeName : String) (runIndex : Nat)
    : Option (List (Slot (List Item))) :=
  self.waitingExecution.array? nodeName runIndex .main

def sources (self : ExecutionData Item) : IWaitingForExecutionSource :=
  self.waitingExecutionSource.getD .empty

def sourceMain? (self : ExecutionData Item) (nodeName : String) (runIndex : Nat)
    : Option (List (Slot ISourceData)) :=
  self.sources.array? nodeName runIndex .main

end ExecutionData

/-- `waiting[nodeName][runIndex] = entry`, where `waiting[nodeName] ??= []`. -/
def setEntry {α : Type} (waiting : WaitingFor α) (nodeName : String) (runIndex : Nat)
    (entry : Dict NodeConnectionType (List (Slot α)))
    : WaitingFor α :=
  waiting.set nodeName (((waiting.get? nodeName).getD .empty).set runIndex entry)

/-- `waiting[nodeName][runIndex].main = slots`, for an entry that exists. -/
def setMain {α : Type} (waiting : WaitingFor α) (nodeName : String) (runIndex : Nat)
    (slots : List (Slot α))
    : WaitingFor α :=
  match (waiting.get? nodeName).bind (fun runs => runs.get? runIndex) with
  | some entry => setEntry waiting nodeName runIndex (entry.set .main slots)
  | none => waiting

/-- Deletes the entry, and with the last entry of a node the node. -/
def deleteEntry {α : Type} (waiting : WaitingFor α) (nodeName : String) (runIndex : Nat)
    (lastOne : Bool)
    : WaitingFor α :=
  if lastOne then waiting.delete nodeName
  else waiting.set nodeName (((waiting.get? nodeName).getD .empty).delete runIndex)

def isLegacyExecutionOrder (workflow : Workflow) : Bool :=
  workflow.settings.executionOrder ≠ some .v1

/-- `nodeExecutionStack[enqueueFn](item)`. -/
def enqueue (workflow : Workflow) (item : IExecuteData Item)
    (stack : List (IExecuteData Item))
    : List (IExecuteData Item) :=
  if workflow.settings.executionOrder = some .v1 then item :: stack else stack ++ [item]

/-- No incoming connection has items at the run index. A slot with `null` has no
`length`, so reading it throws.
-/
def incomingConnectionIsEmpty (runData : IRunData Item) (runIndex : Nat)
    : List IConnection → Except JsError Bool
  | [] => .ok true
  | inputConnection :: rest =>
      let nodeIncomingData :=
        ((((runData.get? inputConnection.node).bind (fun runs => runs[runIndex]?)).bind
              (fun run => run.data)).bind (fun data => data.get? .main)).elim
          .undefined (fun main => Slot.read main inputConnection.index)
      match nodeIncomingData with
      | .undefined => incomingConnectionIsEmpty runData runIndex rest
      | .null => .error .typeError
      | .value [] => incomingConnectionIsEmpty runData runIndex rest
      | .value (_ :: _) => .ok false

def prepareWaitingToExecution (nodeName : String) (numberOfConnections runIndex : Nat)
    (self : ExecutionData Item)
    : ExecutionData Item :=
  { self with
    waitingExecution := setEntry self.waitingExecution nodeName runIndex
      (Dict.empty.set .main (List.replicate numberOfConnections .null))
    waitingExecutionSource := some (setEntry self.sources nodeName runIndex
      (Dict.empty.set .main (List.replicate numberOfConnections .null)))
  }

/-- Reading a property of `undefined` throws. -/
def orThrow {α : Type} : Option α → EngineM Item α
  | some a => pure a
  | none => throw .typeError

/-- Makes sure that the node has a waiting table; tells whether it had one. -/
def openWaiting (nodeName : String) : EngineM Item Bool := do
  modify (fun self => { self with waitingExecutionSource := some self.sources })
  let self ← get
  if (self.waitingExecution.get? nodeName).isSome then
    pure true
  else
    modify (fun self =>
      { self with
        waitingExecution := self.waitingExecution.set nodeName .empty
        waitingExecutionSource := some (self.sources.set nodeName .empty)
      })
    pure false

/-- The first waiting entry, by run index, without data for the input. -/
def findWaitingIndex (inputIndex : Nat) (table : Dict Nat (ITaskDataConnections Item))
    : List Nat → Except JsError (Option Nat)
  | [] => .ok none
  | index :: rest =>
      match (table.get? index).bind (fun entry => entry.get? .main) with
      | none => .error .typeError
      | some main =>
          if (Slot.read main inputIndex).isTruthy then findWaitingIndex inputIndex table rest
          else .ok (some index)

/-- The entry to which the data goes: an open one, or a new one numbered by the count of
the entries.
-/
def chooseEntry (nodeName : String) (numberOfInputs inputIndex : Nat) : EngineM Item Nat := do
  let table := (← get).table nodeName
  match findWaitingIndex inputIndex table table.sortedKeys with
  | .error error => throw error
  | .ok (some waitingNodeIndex) => pure waitingNodeIndex
  | .ok none => do
      let waitingNodeIndex := table.values.length
      modify (prepareWaitingToExecution nodeName numberOfInputs waitingNodeIndex)
      pure waitingNodeIndex

/-- Adds the new data and its source to the entry. -/
def addData (nodeName : String) (waitingNodeIndex inputIndex : Nat)
    (batch : Slot (List Item)) (source : Slot ISourceData)
    : EngineM Item (List (Slot (List Item)) × List (Slot ISourceData)) := do
  let main ← orThrow ((← get).main? nodeName waitingNodeIndex)
  let main := Slot.write main inputIndex batch
  modify (fun self =>
    { self with
      waitingExecution := setMain self.waitingExecution nodeName waitingNodeIndex main })
  let sourceMain ← orThrow ((← get).sourceMain? nodeName waitingNodeIndex)
  let sourceMain := Slot.write sourceMain inputIndex source
  modify (fun self =>
    { self with
      waitingExecutionSource :=
        some (setMain self.sources nodeName waitingNodeIndex sourceMain) })
  pure (main, sourceMain)

/-- Every slot of the entry has data; only `null` counts as missing. -/
def allDataFound (main : List (Slot (List Item))) : Bool :=
  main.all (fun slot => match slot with | .null => false | _ => true)

/-- Moves the entry from the waiting area to the stack. -/
def pushEntry (workflow : Workflow) (nodeName : String) (waitingNodeIndex : Nat)
    : EngineM Item PUnit :=
  modify (fun self =>
    let lastOne := ((self.table nodeName).delete waitingNodeIndex).keys.isEmpty
    {
      nodeExecutionStack :=
        enqueue workflow
          {
            data := ((self.table nodeName).get? waitingNodeIndex).getD .empty
            metadata := none
            node := workflow.getNode nodeName
            source := (self.sources.get? nodeName).bind (fun runs => runs.get? waitingNodeIndex)
            runIndex := none
          }
          self.nodeExecutionStack
      waitingExecution :=
        deleteEntry self.waitingExecution nodeName waitingNodeIndex lastOne
      waitingExecutionSource :=
        some (deleteEntry self.sources nodeName waitingNodeIndex lastOne)
    })

/-- Puts the entry back, with the data alone under `main`. -/
def storeEntry (nodeName : String) (numberOfInputs waitingNodeIndex : Nat)
    (connectionDataArray : List (Slot (List Item)))
    : EngineM Item PUnit := do
  let waitingExecutionSource ← orThrow ((← get).sourceMain? nodeName waitingNodeIndex)
  modify (prepareWaitingToExecution nodeName numberOfInputs waitingNodeIndex)
  modify (fun self =>
    { self with
      waitingExecution := setEntry self.waitingExecution nodeName waitingNodeIndex
        (Dict.empty.set .main connectionDataArray)
      waitingExecutionSource :=
        some (setMain self.sources nodeName waitingNodeIndex waitingExecutionSource)
    })

/-- One delivery: the arguments of `addNodeToBeExecuted`. `nodeSuccessData` is `none`
where the source passes `null`.
-/
structure Delivery (Item : Type) where
  connectionData : IConnection
  outputIndex : Nat
  parentNodeName : String
  nodeSuccessData : Option (List (Slot (List Item)))
  runIndex : Nat
  newRunIndex : Option Nat
  metadata : Option ITaskMetadata

/-- A delivery with the run data of that moment, which it reads. -/
structure Call (Item : Type) where
  runData : IRunData Item
  delivery : Delivery Item

namespace Delivery

/-- What the delivery assigns to the input's slot. -/
def batch (self : Delivery Item) : Slot (List Item) :=
  match self.nodeSuccessData with
  | none => .null
  | some outputs => Slot.read outputs self.outputIndex

def sourceData (self : Delivery Item) : ISourceData where
  previousNode := self.parentNodeName
  previousNodeOutput := some self.outputIndex
  previousNodeRun := some self.runIndex

/-- What the delivery assigns to the slot of the input's source. -/
def source (self : Delivery Item) : Slot ISourceData :=
  match self.nodeSuccessData with
  | none => .null
  | some _ => .value self.sourceData

end Delivery

/-- The names on the stack; an item without a node has no name. -/
def stackNames : EngineM Item (List String) := do
  (← get).nodeExecutionStack.mapM (fun stackData =>
    orThrow (stackData.node.map (fun node => node.name)))

/-- `connectionsByDestinationNode[nodeName].main[0] ?? []`. -/
def firstInputConnections (workflow : Workflow) (nodeName : String)
    : EngineM Item (List IConnection) := do
  let connections ← orThrow (workflow.connectionsByDestinationNode.get? nodeName)
  let main ← orThrow (connections.get? .main)
  pure (NodeInputConnections.at main 0)

def isEmptyIncoming (workflow : Workflow) (runData : IRunData Item) (runIndex : Nat)
    (nodeName : String)
    : EngineM Item Bool := do
  match incomingConnectionIsEmpty runData runIndex
    (← firstInputConnections workflow nodeName) with
  | .ok isEmpty => pure isEmpty
  | .error error => throw error

/-- The node that has to run first so that `inputNode` can: the farthest unprocessed
parent, unless one of them runs anyway.
-/
def findNodeToAdd (runData : IRunData Item) (checkOutputNodes executionStackNodes : List String)
    (inputNode : String)
    : List String → Option String → Option String
  | [], nodeToAdd => nodeToAdd
  | parentNode :: rest, nodeToAdd =>
      if inputNode ≠ parentNode ∧ parentNode ∈ checkOutputNodes then none
      else if parentNode ∈ executionStackNodes then none
      else if (runData.get? parentNode).isSome then nodeToAdd
      else findNodeToAdd runData checkOutputNodes executionStackNodes inputNode rest
        (some parentNode)

/-- The part of the loop body that only the legacy execution order reaches. -/
def addLegacyInput [Inhabited Item] (workflow : Workflow) (runData : IRunData Item)
    (delivery : Delivery Item) (checkOutputNodes executionStackNodes : List String)
    (inputNode : String)
    : EngineM Item PUnit := do
  let parentNodes := (workflow.getParentNodes inputNode ++ [inputNode]).reverse
  let found := findNodeToAdd runData checkOutputNodes executionStackNodes inputNode
    parentNodes (some inputNode)
  -- an undefined name reads as the string "undefined" when it is looked up
  let parentNodesNodeToAdd := workflow.getParentNodes (found.getD "undefined")
  let noItems ←
    if delivery.parentNodeName ∈ parentNodesNodeToAdd then
      match delivery.batch with
      | .value items => pure items.isEmpty
      | _ => throw .typeError
    else pure false
  match (if noItems then none else found) with
  | none => pure ⟨⟩
  | some nodeToAdd => do
      let addEmptyItem ←
        if (workflow.connectionsByDestinationNode.get? nodeToAdd).isNone then pure true
        else isEmptyIncoming workflow runData delivery.runIndex nodeToAdd
      if addEmptyItem then
        modify (fun self =>
          { self with
            nodeExecutionStack := enqueue workflow
              {
                data := Dict.empty.set .main [.value [default]]
                metadata := none
                node := workflow.getNode nodeToAdd
                source := some (Dict.empty.set .main [.value delivery.sourceData])
                runIndex := none
              }
              self.nodeExecutionStack
          })

/-- One turn of the loop over the incoming connections of a node that starts to wait. -/
def addUnprocessedInput [Inhabited Item] (workflow : Workflow) (runData : IRunData Item)
    (delivery : Delivery Item) (checkOutputNodes : List String) (inputData : IConnection)
    : EngineM Item PUnit := do
  if inputData.node = delivery.parentNodeName then
    pure ⟨⟩
  else
    let executionStackNodes ← stackNames
    let addedByParent ←
      if inputData.node ∈ checkOutputNodes then
        pure !(← isEmptyIncoming workflow runData delivery.runIndex inputData.node)
      else pure false
    if addedByParent || inputData.node ∈ executionStackNodes
        || (runData.get? inputData.node).isSome || !isLegacyExecutionOrder workflow then
      pure ⟨⟩
    else
      addLegacyInput workflow runData delivery checkOutputNodes executionStackNodes
        inputData.node

/-- Goes through all inputs of a node that starts to wait, to add those that would not be
processed otherwise.
-/
def addUnprocessedInputs [Inhabited Item] (workflow : Workflow) (runData : IRunData Item)
    (delivery : Delivery Item)
    : EngineM Item PUnit := do
  let parentConnections ←
    orThrow (workflow.connectionsBySourceNode.get? delivery.parentNodeName)
  let checkOutputNodes :=
    (((parentConnections.get? .main).getD []).flatMap (fun connections =>
      connections.getD [])).map (fun connection => connection.node)
  let inputs := workflow.mainInputs delivery.connectionData.node
  (inputs.flatMap (fun connections => connections.getD [])).forM
    (addUnprocessedInput workflow runData delivery checkOutputNodes)

/-- A node with several inputs waits until all of them have data. -/
def deliverToWaiting [Inhabited Item] (workflow : Workflow) (runData : IRunData Item)
    (delivery : Delivery Item)
    : EngineM Item PUnit := do
  let nodeName := delivery.connectionData.node
  let numberOfInputs := (workflow.mainInputs nodeName).length
  let nodeWasWaiting ← openWaiting nodeName
  let waitingNodeIndex ←
    chooseEntry nodeName numberOfInputs delivery.connectionData.index
  let (main, _) ← addData nodeName waitingNodeIndex delivery.connectionData.index
    delivery.batch delivery.source
  if allDataFound main then
    pushEntry workflow nodeName waitingNodeIndex
  else
    if nodeWasWaiting then pure ⟨⟩ else addUnprocessedInputs workflow runData delivery
    storeEntry nodeName numberOfInputs waitingNodeIndex
      (Slot.write main delivery.connectionData.index delivery.batch)

/-- A node with at most one input goes onto the stack at once. -/
def deliverToStack (workflow : Workflow) (delivery : Delivery Item) : EngineM Item PUnit :=
  match workflow.getNode delivery.connectionData.node with
  | none => pure ⟨⟩
  | some node =>
      modify (fun self =>
        { self with
          nodeExecutionStack := enqueue workflow
            {
              data := Dict.empty.set .main
                (Slot.write (List.replicate (delivery.connectionData.index + 1) .null)
                  delivery.connectionData.index delivery.batch)
              metadata := delivery.metadata
              node := some node
              source := some (Dict.empty.set .main [.value delivery.sourceData])
              runIndex := delivery.newRunIndex
            }
            self.nodeExecutionStack
        })

def addNodeToBeExecuted [Inhabited Item] (workflow : Workflow) (runData : IRunData Item)
    (delivery : Delivery Item)
    : EngineM Item PUnit :=
  if 1 < (workflow.mainInputs delivery.connectionData.node).length then
    deliverToWaiting workflow runData delivery
  else
    deliverToStack workflow delivery

end N8n.Engine
