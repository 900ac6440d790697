import N8n.Library.Dict
import N8n.Library.JavaScript

/-! The data that workflow executions share (`packages/workflow/src/interfaces.ts`).
Fields that no modelled function reads are left out.
-/

namespace N8n

inductive NodeConnectionType where
  | aiAgent
  | aiChain
  | aiDocument
  | aiEmbedding
  | aiLanguageModel
  | aiMemory
  | aiOutputParser
  | aiRetriever
  | aiReranker
  | aiTextSplitter
  | aiTool
  | aiVectorStore
  | main
  deriving DecidableEq, Repr

/-- The string of the source behind each connection type. -/
def NodeConnectionType.name : NodeConnectionType → String
  | .aiAgent => "ai_agent"
  | .aiChain => "ai_chain"
  | .aiDocument => "ai_document"
  | .aiEmbedding => "ai_embedding"
  | .aiLanguageModel => "ai_languageModel"
  | .aiMemory => "ai_memory"
  | .aiOutputParser => "ai_outputParser"
  | .aiRetriever => "ai_retriever"
  | .aiReranker => "ai_reranker"
  | .aiTextSplitter => "ai_textSplitter"
  | .aiTool => "ai_tool"
  | .aiVectorStore => "ai_vectorStore"
  | .main => "main"

/-- A node; a missing `disabled` reads as false. -/
structure INode where
  id : String
  name : String
  type : String
  disabled : Bool
  deriving DecidableEq, Repr

structure IConnection where
  node : String
  type : NodeConnectionType
  index : Nat
  deriving DecidableEq, Repr

/-- The connections of each index; `none` stands for `null`. -/
abbrev NodeInputConnections := List (Option (List IConnection))

abbrev INodeConnections := Dict NodeConnectionType NodeInputConnections

abbrev IConnections := Dict String INodeConnections

/-- `connections[index] ?? []`. -/
def NodeInputConnections.at (connections : NodeInputConnections) (index : Nat)
    : List IConnection :=
  (connections[index]?.join).getD []

structure ISourceData where
  previousNode : String
  previousNodeOutput : Option Nat
  previousNodeRun : Option Nat
  deriving DecidableEq, Repr

/-- Batches of items by input type and input index. -/
abbrev ITaskDataConnections (Item : Type) :=
  Dict NodeConnectionType (List (Slot (List Item)))

abbrev ITaskDataConnectionsSource := Dict NodeConnectionType (List (Slot ISourceData))

/-- The run of a sub-node that a requested action has been given. -/
structure SubNodeExecutionDataAction where
  nodeName : String
  runIndex : Nat
  deriving DecidableEq, Repr

structure ITaskMetadata where
  nodeWasResumed : Bool
  subNodeExecutionData : Option (List SubNodeExecutionDataAction)
  preserveSourceOverwrite : Bool
  preservedSourceOverwrite : Option ISourceData
  deriving DecidableEq, Repr

structure IExecuteData (Item : Type) where
  data : ITaskDataConnections Item
  metadata : Option ITaskMetadata
  node : Option INode
  source : Option ITaskDataConnectionsSource
  runIndex : Option Nat
  deriving DecidableEq

structure ITaskData (Item : Type) where
  data : Option (ITaskDataConnections Item)

abbrev IRunData (Item : Type) := Dict String (List (ITaskData Item))

abbrev IPinData (Item : Type) := Dict String (List Item)

/-- Waiting entries by node name and run index; `α` is what one slot holds. -/
abbrev WaitingFor (α : Type) :=
  Dict String (Dict Nat (Dict NodeConnectionType (List (Slot α))))

abbrev IWaitingForExecution (Item : Type) := WaitingFor (List Item)

abbrev IWaitingForExecutionSource := WaitingFor ISourceData

inductive ExecutionOrder where
  | v0
  | v1
  deriving DecidableEq, Repr

structure IWorkflowSettings where
  executionOrder : Option ExecutionOrder
  deriving DecidableEq, Repr

/-- `connections[nodeName][type][inputIndex]` over an undefined step is undefined. -/
def WaitingFor.array? {α : Type} (waiting : WaitingFor α) (nodeName : String)
    (runIndex : Nat) (inputType : NodeConnectionType)
    : Option (List (Slot α)) :=
  ((waiting.get? nodeName).bind (fun runs => runs.get? runIndex)).bind
    (fun entry => entry.get? inputType)

end N8n
