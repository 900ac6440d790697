import N8n.Engine.AddNodeToBeExecuted

/-! Requests of a node to run other nodes before it is resumed
(`packages/core/src/execution-engine/requests-response.ts` and `workflow-execute.ts`). What
only the log of the canvas shows is left out.
-/

namespace N8n.Engine

structure ActionMetadata where
  parentNodeName : Option String
  itemIndex : Option Nat
  deriving DecidableEq, Repr

/-- `Value` is what the properties of an item hold. -/
structure EngineAction (Value : Type) where
  nodeName : String
  input : Dict String Value
  type : NodeConnectionType
  id : String
  metadata : Option ActionMetadata

structure EngineRequest (Value : Type) where
  actions : List (EngineAction Value)

structure IPairedItemData where
  item : Nat
  input : Nat
  sourceOverwrite : ISourceData
  deriving DecidableEq, Repr

structure INodeExecutionData (Value : Type) where
  json : Dict String Value
  pairedItem : Option IPairedItemData
  deriving DecidableEq

instance {Value : Type} : Inhabited (INodeExecutionData Value) := ⟨⟨.empty, none⟩⟩

/-- `parentOutputData` is `none` where the source passes `undefined`. -/
structure NodeToBeExecuted (Item : Type) where
  inputConnectionData : IConnection
  parentOutputIndex : Nat
  parentNode : String
  parentOutputData : Option (List (Slot (List Item)))
  runIndex : Nat
  nodeRunIndex : Nat
  metadata : ITaskMetadata

variable {Value : Type}

/-- `{ ...first, ...second }`. -/
def spreadOver (first second : Dict String Value) : Dict String Value :=
  second.entries.foldl (fun merged entry => merged.set entry.1 entry.2) first

def buildParentOutputData (json : Dict String Value) (parentRunIndex parentOutputIndex : Nat)
    (parentSourceNode : String)
    : List (Slot (List (INodeExecutionData Value))) :=
  [
    .value
      [
        {
          json
          pairedItem :=
            some
              {
                item := parentRunIndex
                input := parentOutputIndex
                sourceOverwrite := {
                  previousNode := parentSourceNode
                  previousNodeOutput := some parentOutputIndex
                  previousNodeRun := some parentRunIndex
                }
              }
        }
      ]
  ]

/-- Reserves the next run of the node; answers its index. -/
def initializeNodeRunData {Item : Type} (runData : IRunData Item) (nodeName : String)
    : Nat × IRunData Item :=
  let nodeRunData := (runData.get? nodeName).getD []
  (nodeRunData.length, runData.set nodeName (nodeRunData ++ [⟨none⟩]))

/-- A slot that a name is read from; an empty name counts as missing. -/
def previousNode? (slot : Slot ISourceData) : Option String :=
  match slot with
  | .value source => if source.previousNode = "" then none else some source.previousNode
  | _ => none

def ActionMetadata.parentNode? (metadata : Option ActionMetadata) : Option String :=
  (metadata.bind ActionMetadata.parentNodeName).filter (fun name => name ≠ "")

/-- The source of the requesting node's input at the index. -/
def sourceAt {Item : Type} (executionData : IExecuteData Item) (index : Nat)
    : Slot ISourceData :=
  ((executionData.source.bind (fun source => source.get? .main)).map (fun main =>
    Slot.read main index)).getD .undefined

def Slot.toOption {α : Type} : Slot α → Option α
  | .value a => some a
  | _ => none

/-- What the turns of the loop over the actions give. -/
structure PreparedNodes (Value : Type) where
  nodesToBeExecuted : List (NodeToBeExecuted (INodeExecutionData Value))
  actions : List SubNodeExecutionDataAction
  runData : IRunData (INodeExecutionData Value)

/-- One turn of the loop over the actions. `text` makes a value of a text. -/
def prepareAction (text : String → Value) (workflow : Workflow) (currentNode : INode)
    (runIndex : Nat) (executionData : IExecuteData (INodeExecutionData Value))
    (prepared : PreparedNodes Value) (action : EngineAction Value)
    : Except JsError (PreparedNodes Value) := do
  let parentSourceData := Slot.toOption (sourceAt executionData runIndex)
  let defaultParentOutputIndex :=
    (parentSourceData.bind ISourceData.previousNodeOutput).getD 0
  let defaultParentSourceNode :=
    (parentSourceData.map ISourceData.previousNode).getD currentNode.name
  match workflow.getNode action.nodeName with
  | none =>
      throw
        (.error "UnexpectedError"
          ("Workflow does not contain a node with the name of \"" ++ action.nodeName ++ "\".")
          none)
  | some node =>
      let parentNode :=
        (action.metadata.bind ActionMetadata.parentNodeName).getD currentNode.name
      let hasParent := (ActionMetadata.parentNode? action.metadata).isSome
      -- a node with run data has run at least once
      let parentRunIndex :=
        if hasParent then ((prepared.runData.get? parentNode).map List.length).getD 1 - 1
        else (parentSourceData.bind ISourceData.previousNodeRun).getD 0
      let itemIndex := (action.metadata.bind ActionMetadata.itemIndex).getD 0
      let agentInputData :=
        ((executionData.data.get? .main).bind (fun main =>
          Slot.toOption (Slot.read main 0))).bind (fun items => items[itemIndex]?)
      let mergedJson :=
        (spreadOver ((agentInputData.map INodeExecutionData.json).getD .empty)
          action.input).set "toolCallId" (text action.id)
      let (nodeRunIndex, runData) := initializeNodeRunData prepared.runData node.name
      let nodeToBeExecuted : NodeToBeExecuted (INodeExecutionData Value) :=
        {
          inputConnectionData := ⟨action.nodeName, action.type, 0⟩
          parentOutputIndex := 0
          parentNode
          parentOutputData :=
            some
              (buildParentOutputData mergedJson parentRunIndex defaultParentOutputIndex
                defaultParentSourceNode)
          runIndex := if hasParent then parentRunIndex else runIndex
          nodeRunIndex
          metadata := {
            nodeWasResumed := false
            subNodeExecutionData := none
            preserveSourceOverwrite := true
            preservedSourceOverwrite :=
              some
                ((executionData.metadata.bind ITaskMetadata.preservedSourceOverwrite).getD
                  {
                    previousNode := defaultParentSourceNode
                    previousNodeOutput := some defaultParentOutputIndex
                    previousNodeRun := some parentRunIndex
                  })
          }
        }
      return {
        nodesToBeExecuted := prepared.nodesToBeExecuted ++ [nodeToBeExecuted]
        actions := prepared.actions ++ [⟨action.nodeName, nodeRunIndex⟩]
        runData
      }

def prepareRequestedNodesForExecution (text : String → Value) (workflow : Workflow)
    (currentNode : INode) (request : EngineRequest Value) (runIndex : Nat)
    (runData : IRunData (INodeExecutionData Value))
    (executionData : IExecuteData (INodeExecutionData Value))
    : Except JsError (PreparedNodes Value) :=
  request.actions.foldlM (prepareAction text workflow currentNode runIndex executionData)
    ⟨[], [], runData⟩

structure ResumingNode where
  connectionData : IConnection
  parentNode : String
  metadata : Bool × Option ISourceData

/-- Without a parent the request is ignored, which is only reported, with the node's name. -/
def prepareRequestingNodeForResuming {Item : Type} (executionData : IExecuteData Item)
    : Except JsError (Option ResumingNode) :=
  match previousNode? (sourceAt executionData 0), executionData.node with
  | _, none => throw .typeError
  | none, some _ => return none
  | some parentNode, some node =>
      let preserved :=
        (executionData.metadata.filter ITaskMetadata.preserveSourceOverwrite).bind
          ITaskMetadata.preservedSourceOverwrite
      return some
        {
          connectionData := ⟨node.name, .aiTool, 0⟩
          parentNode
          metadata := (preserved.isSome, preserved)
        }

/-- The requesting node is put before the requested ones. -/
def handleRequest (text : String → Value) (workflow : Workflow) (currentNode : INode)
    (request : EngineRequest Value) (runIndex : Nat)
    (executionData : IExecuteData (INodeExecutionData Value))
    (runData : IRunData (INodeExecutionData Value))
    : Except JsError (List (NodeToBeExecuted (INodeExecutionData Value))
        × IRunData (INodeExecutionData Value)) := do
  let prepared ←
    prepareRequestedNodesForExecution text workflow currentNode request runIndex runData
      executionData
  match ← prepareRequestingNodeForResuming executionData with
  | none => return ([], prepared.runData)
  | some result =>
      let resuming : NodeToBeExecuted (INodeExecutionData Value) :=
        {
          inputConnectionData := result.connectionData
          parentOutputIndex := 0
          parentNode := result.parentNode
          parentOutputData := executionData.data.get? .main
          runIndex
          nodeRunIndex := runIndex
          metadata := {
            nodeWasResumed := true
            subNodeExecutionData := some prepared.actions
            preserveSourceOverwrite := result.metadata.1
            preservedSourceOverwrite := result.metadata.2
          }
        }
      return (resuming :: prepared.nodesToBeExecuted, prepared.runData)

/-- Without output data, reading its outputs throws. -/
def addRequestedNode {Item : Type} [Inhabited Item] (workflow : Workflow)
    (runData : IRunData Item) (nodeData : NodeToBeExecuted Item)
    : EngineM Item PUnit := do
  let parentOutputData ← orThrow nodeData.parentOutputData
  addNodeToBeExecuted workflow runData
    {
      connectionData := nodeData.inputConnectionData
      outputIndex := nodeData.parentOutputIndex
      parentNodeName := nodeData.parentNode
      nodeSuccessData := some parentOutputData
      runIndex := nodeData.runIndex
      newRunIndex := some nodeData.nodeRunIndex
      metadata := some nodeData.metadata
    }

/-- Answers the run data, in which the runs of the requested nodes are reserved. -/
def handleEngineRequest (text : String → Value) (workflow : Workflow) (currentNode : INode)
    (request : EngineRequest Value) (runIndex : Nat)
    (executionData : IExecuteData (INodeExecutionData Value))
    (runData : IRunData (INodeExecutionData Value))
    : EngineM (INodeExecutionData Value) (IRunData (INodeExecutionData Value)) := do
  match handleRequest text workflow currentNode request runIndex executionData runData with
  | .error error => throw error
  | .ok (nodesToBeExecuted, reserved) => do
      nodesToBeExecuted.forM (addRequestedNode workflow reserved)
      pure reserved

end N8n.Engine
