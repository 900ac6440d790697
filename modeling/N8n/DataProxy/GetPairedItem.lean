import N8n.Library.Numbers
import N8n.Workflow.ConnectedNodes

/-! The item that a paired item comes from
(`packages/workflow/src/workflow-data-proxy.ts`). `Item` stands for references to items:
two of them are equal when they refer to the same object.
-/

namespace N8n.DataProxy

structure IPairedItemData where
  item : JsNumber
  input : Option JsNumber
  sourceOverwrite : Option ISourceData
  deriving DecidableEq

/-- `number | IPairedItemData`. -/
inductive PairedItem where
  | number (item : JsNumber)
  | data (pairedItem : IPairedItemData)
  deriving DecidableEq

/-- The `pairedItem` field of an item. -/
inductive PairedItems where
  | missing
  | single (pairedItem : PairedItem)
  | array (pairedItems : List PairedItem)
  deriving DecidableEq

structure SourcedTaskData (Item : Type) extends ITaskData Item where
  source : List (Option ISourceData)

inductive WorkflowExecuteMode where
  | cli
  | error
  | integrated
  | internal
  | manual
  | retry
  | trigger
  | webhook
  | evaluation
  | chat
  deriving DecidableEq, Repr

/-- What a data proxy was made for; `numberText` writes a number into a message. -/
structure WorkflowDataProxy (Item : Type) where
  nodes : Dict String INode
  pinData : Option (Dict String (List Item))
  runData : Option (Dict String (List (SourcedTaskData Item)))
  pairedItem : Item → PairedItems
  runIndex : Nat
  itemIndex : Nat
  activeNodeName : String
  mode : WorkflowExecuteMode
  numberText : JsNumber → String

inductive ExpressionErrorType where
  | internal
  | pairedItemInvalidInfo
  | pairedItemNoInfo
  | pairedItemMultipleMatches
  | pairedItemNoConnection
  deriving DecidableEq, Repr

structure ExpressionErrorOptions where
  causeDetailed : Option String := none
  description : Option String := none
  descriptionKey : Option String := none
  isPairedItemFunctionality : Bool := false
  messageTemplate : Option String := none
  nodeCause : Option String := none
  type : Option ExpressionErrorType := none
  deriving DecidableEq, Repr

structure ExpressionError where
  message : String
  runIndex : Nat
  itemIndex : Nat
  options : ExpressionErrorOptions
  deriving DecidableEq, Repr

/-- The texts that scripting nodes show instead. -/
structure FunctionOverrides where
  message : String
  description : Option String := none

inductive Thrown where
  | expressionError (error : ExpressionError)
  | typeError
  deriving DecidableEq, Repr

def scriptingNodeTypes : List String :=
  ["n8n-nodes-base.function", "n8n-nodes-base.functionItem", "n8n-nodes-base.code",
    "n8n-nodes-base.aiTransform"]

inductive PairedItemMethod where
  | pairedItem
  | itemMatching
  | item
  | getPairedItem
  deriving DecidableEq, Repr

def PairedItemMethod.name : PairedItemMethod → String
  | .pairedItem => "pairedItem"
  | .itemMatching => "itemMatching"
  | .item => "item"
  | .getPairedItem => "$getPairedItem"

namespace WorkflowDataProxy

variable {Item : Type}

def isScriptingNode (proxy : WorkflowDataProxy Item) (nodeName : String) : Bool :=
  match proxy.nodes.get? nodeName with
  | some node => scriptingNodeTypes.contains node.type
  | none => false

def getPinDataIfManualExecution (proxy : WorkflowDataProxy Item) (nodeName : String)
    : Option (List Item) :=
  if proxy.mode ≠ .manual then none
  else proxy.pinData.bind (fun pinData => pinData.get? nodeName)

/-- A description that is missing is read as the text `undefined`. -/
def moreInfo (description : Option String) : String :=
  description.getD "undefined" ++ " <a target=\"_blank\" " ++
    "href=\"https://docs.n8n.io/data/data-mapping/data-item-linking/item-linking-errors/\">" ++
    "More info</a>"

def createExpressionError (proxy : WorkflowDataProxy Item) (message : String)
    (context : ExpressionErrorOptions) (functionOverrides : Option FunctionOverrides)
    (moreInfoLink : Bool)
    : ExpressionError :=
  let (message, context) :=
    match functionOverrides with
    | some overrides =>
        if proxy.isScriptingNode proxy.activeNodeName then
          (overrides.message,
            {
              context with
              description := overrides.description <|> context.description
              messageTemplate := none
            })
        else (message, context)
    | none => (message, context)
  let (message, context) :=
    match context.nodeCause with
    | some nodeName =>
        let isPinned := (proxy.getPinDataIfManualExecution nodeName).isSome
        let (message, context) :=
          if isPinned then
            (s!"Unpin '{nodeName}' to execute",
              { context with messageTemplate := none, descriptionKey := some "pairedItemPinned" })
          else (message, context)
        if moreInfoLink ∧ (isPinned ∨ proxy.isScriptingNode nodeName) then
          (message, { context with description := some (moreInfo context.description) })
        else (message, context)
    | none => (message, context)
  ⟨message, proxy.runIndex, proxy.itemIndex, context⟩

def createMissingPairedItemError (proxy : WorkflowDataProxy Item) (nodeCause : String)
    (usedMethodName : PairedItemMethod)
    : ExpressionError :=
  let method := usedMethodName.name
  let message :=
    if (proxy.getPinDataIfManualExecution nodeCause).isSome then
      s!"Using the {method} method doesn't work with pinned data in this scenario. " ++
        s!"Please unpin '{nodeCause}' and try again."
    else
      s!"Paired item data for {method} from node '{nodeCause}' is unavailable. " ++
        s!"Ensure '{nodeCause}' is providing the required output."
  ⟨message, proxy.runIndex, proxy.itemIndex,
    {
      isPairedItemFunctionality := true
      descriptionKey :=
        some (if proxy.isScriptingNode nodeCause then "pairedItemNoInfoCodeNode"
          else "pairedItemNoInfo")
      nodeCause := some nodeCause
      causeDetailed :=
        some s!"Missing pairedItem data (node '{nodeCause}' probably didn't supply it)"
      type := some .pairedItemNoInfo
    }⟩

def createNoConnectionError (proxy : WorkflowDataProxy Item) (nodeCause : String)
    : ExpressionError :=
  proxy.createExpressionError "Invalid expression"
    {
      messageTemplate := some "No path back to referenced node"
      isPairedItemFunctionality := true
      descriptionKey :=
        some (if proxy.isScriptingNode nodeCause then "pairedItemNoConnectionCodeNode"
          else "pairedItemNoConnection")
      type := some .pairedItemNoConnection
      nodeCause := some nodeCause
    } none true

def createBranchNotFoundError (proxy : WorkflowDataProxy Item) (node : String)
    (item : JsNumber) (cause : Option String)
    : ExpressionError :=
  proxy.createExpressionError "Branch not found"
    {
      messageTemplate := some "Paired item references non-existent branch"
      isPairedItemFunctionality := true
      nodeCause := cause
      description :=
        some (s!"Item {proxy.numberText item} in node {node} references " ++
          "a branch that doesn't exist.")
      type := some .pairedItemInvalidInfo
    } (some { message := "Invalid branch reference" }) false

def createPairedItemNotFound (proxy : WorkflowDataProxy Item) (destNode : String)
    (cause : Option String)
    : ExpressionError :=
  proxy.createExpressionError "Paired item resolution failed"
    {
      messageTemplate := some "Unable to find paired item source"
      isPairedItemFunctionality := true
      nodeCause := cause
      description := some s!"Could not trace back to node '{destNode}'"
      type := some .pairedItemNoInfo
    } (some { message := "Data not found" }) true

def createPairedItemMultipleItemsFound (proxy : WorkflowDataProxy Item) (destNode : String)
    (itemIndex : JsNumber)
    : ExpressionError :=
  proxy.createExpressionError "Multiple matches found"
    {
      messageTemplate := some s!"Multiple matching items for item [{proxy.numberText itemIndex}]"
      isPairedItemFunctionality := true
      nodeCause := some destNode
      descriptionKey :=
        some (if proxy.isScriptingNode destNode then "pairedItemMultipleMatchesCodeNode"
          else "pairedItemMultipleMatches")
      type := some .pairedItemMultipleMatches
    } (some { message := "Multiple matches" }) false

def createMissingOutputError (proxy : WorkflowDataProxy Item) (outputIndex : Nat)
    (previousNode : String) (nodeCause : Option String)
    : ExpressionError :=
  proxy.createExpressionError "Can’t get data for expression"
    {
      messageTemplate := some "Missing output data"
      nodeCause := nodeCause
      description := some s!"Expected output #{outputIndex} from node {previousNode}"
      type := some .internal
    } (some { message := "Missing output" }) false

def normalizeInputs (pairedItem : PairedItem) (sourceData : Option ISourceData)
    : IPairedItemData × Option ISourceData :=
  let pairedItem :=
    match pairedItem with
    | .number item => ⟨item, none, none⟩
    | .data pairedItem => pairedItem
  (pairedItem, pairedItem.sourceOverwrite <|> sourceData)

def pinDataToTask (pinData : Option (List Item)) : Option (SourcedTaskData Item) :=
  pinData.map (fun pinData =>
    { data := some (Dict.empty.set .main [.value pinData]), source := [] })

def getTaskData (proxy : WorkflowDataProxy Item) (source : ISourceData)
    : Option (SourcedTaskData Item) :=
  (proxy.runData.bind (fun runData =>
    (runData.get? source.previousNode).bind (fun runs =>
      runs[source.previousNodeRun.getD 0]?)))
  <|> pinDataToTask (proxy.getPinDataIfManualExecution source.previousNode)

def getNodeOutput (proxy : WorkflowDataProxy Item) (taskData : Option (SourcedTaskData Item))
    (source : ISourceData) (nodeCause : Option String)
    : Except ExpressionError (List Item) :=
  let outputIndex := source.previousNodeOutput.getD 0
  let outputs :=
    (taskData.bind (fun taskData => taskData.data)).bind (fun data =>
      (data.get? .main).map (fun main => Slot.read main outputIndex))
  match outputs with
  | some (.value outputs) => .ok outputs
  | _ =>
      .error (proxy.createMissingOutputError outputIndex source.previousNode nodeCause)

def normalizePairedItem : PairedItems → List IPairedItemData
  | .missing => []
  | .single (.number item) => [⟨item, none, none⟩]
  | .single (.data pairedItem) => [pairedItem]
  | .array pairedItems =>
      pairedItems.map (fun
        | .number item => ⟨item, none, none⟩
        | .data pairedItem => pairedItem)

/-- The end of `getPairedItem`: what the results of the paired items amount to. -/
def settleResults [DecidableEq Item] (noMatch multipleMatches : ExpressionError)
    (results : List (Except Thrown (Option Item)))
    : Except Thrown (Option Item) :=
  if results.all (fun result => !result.isOk) then
    -- The first result is read without a look at whether there is one.
    match results.head? with
    | some (.error error) => .error error
    | _ => .error .typeError
  else
    match results.filterMap Except.toOption with
    | [] => .error (.expressionError noMatch)
    | first :: rest =>
        if rest.any (· ≠ first) then .error (.expressionError multipleMatches)
        else .ok first

/-- `undefined` is returned where the destination has no item at the index. -/
def getPairedItem [DecidableEq Item] (proxy : WorkflowDataProxy Item)
    (destinationNodeName : String) (usedMethodName : PairedItemMethod)
    : Nat → Option ISourceData → PairedItem → Option String
      → Option (Except Thrown (Option Item))
  | 0, _, _, _ => none
  | fuel + 1, incomingSourceData, initialPairedItem, nodeBeforeLast =>
      let (pairedItem, sourceData) := normalizeInputs initialPairedItem incomingSourceData
      match sourceData with
      | none =>
          some (.error (.expressionError
            (proxy.createPairedItemNotFound destinationNodeName nodeBeforeLast)))
      | some sourceData =>
          let taskData := proxy.getTaskData sourceData
          match proxy.getNodeOutput taskData sourceData nodeBeforeLast with
          | .error error => some (.error (.expressionError error))
          | .ok outputData =>
              let item := JsNumber.read outputData pairedItem.item
              let sourceArray := (taskData.map (fun taskData => taskData.source)).getD []
              if sourceData.previousNode = destinationNodeName then
                if pairedItem.item.atLeast outputData.length then
                  some (.error (.expressionError
                    (proxy.createMissingPairedItemError sourceData.previousNode usedMethodName)))
                else some (.ok item)
              else
                match item with
                | none => some (.error .typeError)
                | some item =>
                    let nextPairedItems := normalizePairedItem (proxy.pairedItem item)
                    if nextPairedItems = [] then
                      some (.error (.expressionError
                        (proxy.createMissingPairedItemError sourceData.previousNode
                          usedMethodName)))
                    else do
                      let results ← nextPairedItems.mapM (fun nextPairedItem =>
                        let inputIndex := nextPairedItem.input.getD 0
                        if inputIndex.atLeast sourceArray.length then some []
                        else
                          let nextSource :=
                            nextPairedItem.sourceOverwrite
                            <|> (JsNumber.read sourceArray inputIndex).join
                          (getPairedItem proxy destinationNodeName usedMethodName fuel nextSource
                            (.data { nextPairedItem with input := some inputIndex })
                            (some sourceData.previousNode)).map (fun result => [result]))
                      let noMatch :=
                        if sourceArray.length = 0 then
                          proxy.createNoConnectionError destinationNodeName
                        else
                          proxy.createBranchNotFoundError sourceData.previousNode
                            pairedItem.item nodeBeforeLast
                      let multipleMatches :=
                        proxy.createPairedItemMultipleItemsFound destinationNodeName
                          pairedItem.item
                      some (settleResults noMatch multipleMatches results.flatten)

end WorkflowDataProxy

end N8n.DataProxy
