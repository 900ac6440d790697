import N8n.Engine.HandleRequest

/-! The order in which the requesting node and the requested nodes are taken from the stack
after a request. New entries all go to one end of the stack, the front in execution order v1
and the back in the legacy order.
-/

namespace N8n.Engine

variable {Item Value : Type} {workflow : Workflow}

/-! ### Programs that add entries to the stack -/

/-- The stack with the entries at the end to which new ones go. -/
def attach (workflow : Workflow) (added stack : List (IExecuteData Item))
    : List (IExecuteData Item) :=
  if workflow.settings.executionOrder = some .v1 then added ++ stack else stack ++ added

theorem attach_nil (stack : List (IExecuteData Item)) : attach workflow [] stack = stack := by
  simp [attach]

theorem enqueue_eq (item : IExecuteData Item) (stack : List (IExecuteData Item))
    : enqueue workflow item stack = attach workflow [item] stack := rfl

/-- Entries that are added one after the other are added together. -/
theorem attach_attach (workflow : Workflow)
    (first second stack : List (IExecuteData Item))
    : ∃ all,
        attach workflow second (attach workflow first stack) = attach workflow all stack
        ∧ ∀ entry, entry ∈ all ↔ entry ∈ first ∨ entry ∈ second := by
  by_cases v1 : workflow.settings.executionOrder = some .v1
  · refine ⟨second ++ first, by simp [attach, v1], fun entry => ?_⟩
    rw [List.mem_append, or_comm]
  · exact ⟨first ++ second, by simp [attach, v1], fun entry => List.mem_append⟩

/-- The stack has grown by such entries. -/
def Adds (workflow : Workflow) (allowed : IExecuteData Item → Prop)
    (before after : ExecutionData Item)
    : Prop :=
  ∃ added,
    after.nodeExecutionStack = attach workflow added before.nodeExecutionStack
    ∧ ∀ entry ∈ added, allowed entry

variable {allowed : IExecuteData Item → Prop}

variable {before after : ExecutionData Item}

theorem Adds.of_same (same : after.nodeExecutionStack = before.nodeExecutionStack)
    : Adds workflow allowed before after :=
  ⟨[], by rw [same, attach_nil], by simp⟩

theorem Adds.trans {first middle last : ExecutionData Item}
    (early : Adds workflow allowed first middle) (late : Adds workflow allowed middle last)
    : Adds workflow allowed first last := by
  obtain ⟨added, same, fits⟩ := early
  obtain ⟨more, sameMore, fitsMore⟩ := late
  obtain ⟨all, together, members⟩ :=
    attach_attach workflow added more first.nodeExecutionStack
  refine ⟨all, by rw [sameMore, same, together], ?_⟩
  intro entry member
  exact ((members entry).mp member).elim (fits entry) (fitsMore entry)

/-- The program adds no other entries to the stack, and takes none away. -/
def Adding (workflow : Workflow) (allowed : IExecuteData Item → Prop) {α : Type}
    (program : EngineM Item α)
    : Prop :=
  program.Within (Adds workflow allowed)

namespace Adding

variable {allowed : IExecuteData Item → Prop} {α β : Type}

theorem pure (a : α) : Adding workflow allowed (Pure.pure a : EngineM Item α) :=
  Exec.Within.pure (fun _ => .of_same rfl) a

theorem throw (error : JsError)
    : Adding workflow allowed (MonadExcept.throw error : EngineM Item α) :=
  Exec.Within.throw (fun _ => .of_same rfl) error

theorem get : Adding workflow allowed (MonadState.get : EngineM Item (ExecutionData Item)) :=
  Exec.Within.get (fun _ => .of_same rfl)

variable {change : ExecutionData Item → ExecutionData Item}

/-- A change of the waiting area. -/
theorem keep (same : ∀ state, (change state).nodeExecutionStack = state.nodeExecutionStack)
    : Adding workflow allowed (modify change : EngineM Item PUnit) :=
  Exec.Within.update (fun state => .of_same (same state))

theorem push {item : ExecutionData Item → IExecuteData Item}
    (pushed
      : ∀ state,
          (change state).nodeExecutionStack
            = enqueue workflow (item state) state.nodeExecutionStack)
    (fits : ∀ state, allowed (item state))
    : Adding workflow allowed (modify change : EngineM Item PUnit) :=
  Exec.Within.update (fun state =>
    ⟨[item state], by rw [pushed, enqueue_eq], by simpa using fits state⟩)

theorem bind {program : EngineM Item α} {next : α → EngineM Item β}
    (early : Adding workflow allowed program)
    (late : ∀ a, Adding workflow allowed (next a))
    : Adding workflow allowed (program >>= next) :=
  Exec.Within.bind (fun _ _ _ => Adds.trans) early late

theorem forM {items : List β} {body : β → EngineM Item PUnit}
    (turn : ∀ item ∈ items, Adding workflow allowed (body item))
    : Adding workflow allowed (items.forM body) :=
  Exec.Within.forM (fun _ => .of_same rfl) (fun _ _ _ => Adds.trans) turn

theorem orThrow (value : Option α)
    : Adding workflow allowed (Engine.orThrow value : EngineM Item α) := by
  cases value with
  | none => exact throw _
  | some a => exact pure a

end Adding

/-! ### What a delivery adds -/

/-- The entry comes from the waiting area, or from the legacy order's look at inputs. -/
def IsUnnumbered (entry : IExecuteData Item) : Prop :=
  entry.runIndex = none ∧ entry.metadata = none

theorem stackNames_adding
    : Adding workflow allowed (stackNames : EngineM Item (List String)) := by
  apply Adding.bind Adding.get
  intro state
  generalize state.nodeExecutionStack = stack
  induction stack with
  | nil => exact Adding.pure []
  | cons item rest ih =>
      rw [List.mapM_cons]
      apply Adding.bind (Adding.orThrow _)
      intro name
      exact Adding.bind ih (fun names => Adding.pure (name :: names))

theorem isEmptyIncoming_adding (runData : IRunData Item) (runIndex : Nat) (nodeName : String)
    : Adding workflow allowed (isEmptyIncoming workflow runData runIndex nodeName) := by
  apply Adding.bind
  · apply Adding.bind (Adding.orThrow _)
    intro connections
    exact Adding.bind (Adding.orThrow _) (fun main => Adding.pure _)
  · intro connections
    split
    · exact Adding.pure _
    · exact Adding.throw _

theorem addLegacyInput_adding [Inhabited Item] (runData : IRunData Item)
    (delivery : Delivery Item) (checkOutputNodes executionStackNodes : List String)
    (inputNode : String)
    : Adding workflow IsUnnumbered
        (addLegacyInput workflow runData delivery checkOutputNodes executionStackNodes
          inputNode) := by
  unfold addLegacyInput
  extract_lets parentNodes found parentNodesNodeToAdd afterItems
  have rest (noItems : Bool) : Adding workflow IsUnnumbered (afterItems noItems) := by
    unfold afterItems
    split
    · exact .pure _
    · extract_lets afterEmpty
      have last (addEmptyItem : Bool)
          : Adding workflow IsUnnumbered (afterEmpty addEmptyItem) := by
        unfold afterEmpty
        split
        · exact .push (fun _ => rfl) (fun _ => ⟨rfl, rfl⟩)
        · exact .pure _
      split
      · exact .bind (.pure _) last
      · exact .bind (isEmptyIncoming_adding _ _ _) last
  split
  · split
    · exact .bind (.pure _) rest
    · exact .bind (.throw _) rest
  · exact .bind (.pure _) rest

theorem addUnprocessedInputs_adding [Inhabited Item] (runData : IRunData Item)
    (delivery : Delivery Item)
    : Adding workflow IsUnnumbered (addUnprocessedInputs workflow runData delivery) := by
  apply Adding.bind (Adding.orThrow _)
  intro parentConnections
  apply Adding.forM
  intro inputData _
  unfold addUnprocessedInput
  split
  · exact Adding.pure _
  · apply Adding.bind stackNames_adding
    intro executionStackNodes
    extract_lets afterCheck
    have rest (addedByParent : Bool)
        : Adding workflow IsUnnumbered (afterCheck addedByParent) := by
      unfold afterCheck
      split
      · exact Adding.pure _
      · exact addLegacyInput_adding _ _ _ _ _
    split
    · apply Adding.bind (isEmptyIncoming_adding _ _ _)
      exact fun isEmpty => Adding.bind (Adding.pure _) rest
    · exact Adding.bind (Adding.pure _) rest

section Waiting

variable {allowed : IExecuteData Item → Prop}

variable (nodeName : String)

include nodeName

theorem openWaiting_adding
    : Adding workflow allowed (openWaiting nodeName : EngineM Item Bool) := by
  unfold openWaiting
  refine Adding.bind (Adding.keep ?_) (fun _ => ?_)
  · exact fun _ => rfl
  apply Adding.bind Adding.get
  intro state
  split
  · exact Adding.pure _
  · refine Adding.bind (Adding.keep ?_) (fun _ => Adding.pure _)
    exact fun _ => rfl

theorem chooseEntry_adding (numberOfInputs inputIndex : Nat)
    : Adding workflow allowed
        (chooseEntry nodeName numberOfInputs inputIndex : EngineM Item Nat) := by
  unfold chooseEntry
  apply Adding.bind Adding.get
  intro state
  extract_lets table
  split
  · exact Adding.throw _
  · exact Adding.pure _
  · refine Adding.bind (Adding.keep ?_) (fun _ => Adding.pure _)
    exact fun _ => rfl

theorem addData_adding (waitingNodeIndex inputIndex : Nat) (batch : Slot (List Item))
    (source : Slot ISourceData)
    : Adding workflow allowed
        (addData nodeName waitingNodeIndex inputIndex batch source) := by
  unfold addData
  apply Adding.bind Adding.get
  intro state
  apply Adding.bind (Adding.orThrow _)
  intro main
  extract_lets written
  refine Adding.bind (Adding.keep ?_) (fun _ => ?_)
  · exact fun _ => rfl
  apply Adding.bind Adding.get
  intro state
  apply Adding.bind (Adding.orThrow _)
  intro sourceMain
  extract_lets writtenSource
  refine Adding.bind (Adding.keep ?_) (fun _ => Adding.pure _)
  exact fun _ => rfl

theorem storeEntry_adding (numberOfInputs waitingNodeIndex : Nat)
    (connectionDataArray : List (Slot (List Item)))
    : Adding workflow allowed
        (storeEntry nodeName numberOfInputs waitingNodeIndex connectionDataArray) := by
  unfold storeEntry
  apply Adding.bind Adding.get
  intro state
  apply Adding.bind (Adding.orThrow _)
  intro sources
  refine Adding.bind (Adding.keep ?_) (fun _ => Adding.keep ?_)
  · exact fun _ => rfl
  · exact fun _ => rfl

end Waiting

theorem deliverToWaiting_adding [Inhabited Item] (runData : IRunData Item)
    (delivery : Delivery Item)
    : Adding workflow IsUnnumbered (deliverToWaiting workflow runData delivery) := by
  unfold deliverToWaiting
  extract_lets nodeName numberOfInputs
  apply Adding.bind (openWaiting_adding nodeName)
  intro nodeWasWaiting
  apply Adding.bind (chooseEntry_adding nodeName numberOfInputs _)
  intro waitingNodeIndex
  apply Adding.bind (addData_adding nodeName waitingNodeIndex _ _ _)
  intro added
  split
  · split
    · exact Adding.push (fun _ => rfl) (fun _ => ⟨rfl, rfl⟩)
    · extract_lets afterInputs
      have rest (result : PUnit) : Adding workflow IsUnnumbered (afterInputs result) :=
        storeEntry_adding _ _ _ _
      split
      · exact rest ⟨⟩
      · exact Adding.bind (addUnprocessedInputs_adding _ _) rest

/-- The entry that a delivery puts onto the stack at once. -/
def stackItem (delivery : Delivery Item) (node : INode) : IExecuteData Item where
  data :=
    Dict.empty.set .main
      (Slot.write (List.replicate (delivery.connectionData.index + 1) .null)
        delivery.connectionData.index delivery.batch)
  metadata := delivery.metadata
  node := some node
  source := some (Dict.empty.set .main [.value delivery.sourceData])
  runIndex := delivery.newRunIndex

/-- The node has at most one main input. -/
def HasOneInput (workflow : Workflow) (nodeName : String) : Prop :=
  (workflow.mainInputs nodeName).length ≤ 1

instance (workflow : Workflow) (nodeName : String)
    : Decidable (HasOneInput workflow nodeName) :=
  inferInstanceAs (Decidable (_ ≤ _))

variable {node : INode}

/-- A node with one input goes onto the stack at once. -/
theorem addNodeToBeExecuted_oneInput [Inhabited Item] (runData : IRunData Item)
    (delivery : Delivery Item) (state : ExecutionData Item)
    (oneInput : HasOneInput workflow delivery.connectionData.node)
    (known : workflow.getNode delivery.connectionData.node = some node)
    : addNodeToBeExecuted workflow runData delivery state
      = .ok ⟨⟩
          {
            state with
            nodeExecutionStack :=
              attach workflow [stackItem delivery node] state.nodeExecutionStack
          } := by
  have direct : ¬1 < (workflow.mainInputs delivery.connectionData.node).length :=
    Nat.not_lt_of_le oneInput
  rw [addNodeToBeExecuted, if_neg direct, deliverToStack, known]
  rfl

/-- What a delivery may add to the stack. -/
def IsEntryOf (workflow : Workflow) (delivery : Delivery Item) (entry : IExecuteData Item)
    : Prop :=
  IsUnnumbered entry
  ∨ HasOneInput workflow delivery.connectionData.node
    ∧ ∃ node,
        workflow.getNode delivery.connectionData.node = some node
        ∧ entry = stackItem delivery node

theorem addNodeToBeExecuted_adding [Inhabited Item] (runData : IRunData Item)
    (delivery : Delivery Item)
    : Adding workflow (IsEntryOf workflow delivery)
        (addNodeToBeExecuted workflow runData delivery) := by
  unfold addNodeToBeExecuted
  split
  · apply (deliverToWaiting_adding runData delivery).mono
    intro before after ⟨added, same, fits⟩
    exact ⟨added, same, fun entry member => .inl (fits entry member)⟩
  · next direct =>
      unfold deliverToStack
      split
      · exact .pure _
      · next node known =>
          exact .push (fun _ => rfl)
            (fun _ => .inr ⟨Nat.le_of_not_lt direct, node, known, rfl⟩)

/-! ### Preparation of the requested nodes -/

def runCount (runData : IRunData Item) (nodeName : String) : Nat :=
  ((runData.get? nodeName).getD []).length

theorem runCount_initializeNodeRunData (runData : IRunData Item) (nodeName other : String)
    : runCount (initializeNodeRunData runData nodeName).2 other
      = runCount runData other + (if other = nodeName then 1 else 0) := by
  unfold runCount initializeNodeRunData
  rw [Dict.get?_set]
  split <;> simp_all

/-- The delivery of a requested node that has output data. -/
def NodeToBeExecuted.delivery (nodeData : NodeToBeExecuted Item)
    (parentOutputData : List (Slot (List Item)))
    : Delivery Item where
  connectionData := nodeData.inputConnectionData
  outputIndex := nodeData.parentOutputIndex
  parentNodeName := nodeData.parentNode
  nodeSuccessData := some parentOutputData
  runIndex := nodeData.runIndex
  newRunIndex := some nodeData.nodeRunIndex
  metadata := some nodeData.metadata

/-- What the preparation of the actions is known to give. -/
structure PreparedFor (runData : IRunData (INodeExecutionData Value))
    (actions : List (EngineAction Value)) (prepared : PreparedNodes Value)
    : Prop where
  names : prepared.actions.map (·.nodeName) = actions.map (·.nodeName)
  matching
    : prepared.nodesToBeExecuted.map (fun nodeData =>
        (⟨nodeData.inputConnectionData.node, nodeData.nodeRunIndex⟩
          : SubNodeExecutionDataAction))
      = prepared.actions
  isNew : ∀ nodeData ∈ prepared.nodesToBeExecuted, nodeData.metadata.nodeWasResumed = false
  hasOutput : ∀ nodeData ∈ prepared.nodesToBeExecuted, nodeData.parentOutputData.isSome
  grows : ∀ nodeName, runCount runData nodeName ≤ runCount prepared.runData nodeName
  reserved
    : ∀ action ∈ prepared.actions,
        runCount runData action.nodeName ≤ action.runIndex
        ∧ action.runIndex < runCount prepared.runData action.nodeName
  distinct : prepared.actions.Nodup

theorem PreparedFor.start (runData : IRunData (INodeExecutionData Value))
    : PreparedFor runData [] ⟨[], [], runData⟩ := by
  constructor <;> simp

section Prepare

variable (text : String → Value) (currentNode : INode) (runIndex : Nat)
  (executionData : IExecuteData (INodeExecutionData Value))
  {runData : IRunData (INodeExecutionData Value)}

/-- An action on a known node reserves the node's next run. -/
theorem prepareAction_of_known (prepared : PreparedNodes Value) {action : EngineAction Value}
    (known : workflow.getNode action.nodeName = some node)
    : ∃ nodeData : NodeToBeExecuted (INodeExecutionData Value),
        prepareAction text workflow currentNode runIndex executionData prepared action
          = .ok
              {
                nodesToBeExecuted := prepared.nodesToBeExecuted ++ [nodeData]
                actions :=
                  prepared.actions
                  ++ [⟨action.nodeName, runCount prepared.runData node.name⟩]
                runData := (initializeNodeRunData prepared.runData node.name).2
              }
        ∧ nodeData.inputConnectionData.node = action.nodeName
        ∧ nodeData.nodeRunIndex = runCount prepared.runData node.name
        ∧ nodeData.metadata.nodeWasResumed = false
        ∧ nodeData.parentOutputData.isSome := by
  unfold prepareAction
  rw [known]
  exact ⟨_, rfl, rfl, rfl, rfl, rfl⟩

theorem PreparedFor.action {actions : List (EngineAction Value)}
    {prepared next : PreparedNodes Value} {action : EngineAction Value}
    (keyed : workflow.nodes.KeyedBy INode.name)
    (known : (workflow.getNode action.nodeName).isSome)
    (before : PreparedFor runData actions prepared)
    (taken
      : prepareAction text workflow currentNode runIndex executionData prepared action
        = .ok next)
    : PreparedFor runData (actions ++ [action]) next := by
  obtain ⟨node, found⟩ := Option.isSome_iff_exists.mp known
  have sameName : action.nodeName = node.name := keyed found
  obtain ⟨nodeData, result, target, index, isNew, hasOutput⟩ :=
    prepareAction_of_known text currentNode runIndex executionData prepared found
  obtain rfl := Except.ok.inj (result.symm.trans taken)
  have grown (nodeName : String)
      := runCount_initializeNodeRunData prepared.runData node.name nodeName
  refine {
    names := by simp [before.names]
    matching := by simp [before.matching, target, index]
    isNew := ?_
    hasOutput := ?_
    grows := fun nodeName => ?_
    reserved := ?_
    distinct := ?_
  }
  · intro other member
    rcases List.mem_append.mp member with old | new
    · exact before.isNew other old
    · rw [List.mem_singleton.mp new, isNew]
  · intro other member
    rcases List.mem_append.mp member with old | new
    · exact before.hasOutput other old
    · rw [List.mem_singleton.mp new, hasOutput]
  · have := before.grows nodeName
    simp only [grown]
    omega
  · intro reservedRun member
    simp only [grown]
    rcases List.mem_append.mp member with old | new
    · have := before.reserved reservedRun old
      omega
    · have := before.grows node.name
      simp [List.mem_singleton.mp new, sameName, this]
  · rw [List.nodup_append]
    refine ⟨before.distinct, by simp, ?_⟩
    intro old member new isLast same
    have bound := (before.reserved old member).2
    rw [same, List.mem_singleton.mp isLast, sameName] at bound
    exact Nat.lt_irrefl _ bound

/-- The loop over the actions succeeds, by induction over the actions. -/
theorem foldlM_prepareAction (keyed : workflow.nodes.KeyedBy INode.name)
    {actions : List (EngineAction Value)}
    (known : ∀ action ∈ actions, (workflow.getNode action.nodeName).isSome)
    {done : List (EngineAction Value)} {prepared : PreparedNodes Value}
    (before : PreparedFor runData done prepared)
    : ∃ final,
        actions.foldlM (prepareAction text workflow currentNode runIndex executionData)
          prepared
          = .ok final
        ∧ PreparedFor runData (done ++ actions) final := by
  induction actions generalizing done prepared with
  | nil => exact ⟨prepared, rfl, by simpa using before⟩
  | cons action rest ih =>
      have first := known action (by simp)
      obtain ⟨node, found⟩ := Option.isSome_iff_exists.mp first
      obtain ⟨nodeData, result, _⟩ :=
        prepareAction_of_known text currentNode runIndex executionData prepared found
      obtain ⟨final, returned, holds⟩ :=
        ih (fun other member => known other (.tail _ member))
          (before.action text currentNode runIndex executionData keyed first result)
      refine ⟨final, ?_, by simpa using holds⟩
      rw [List.foldlM_cons, result]
      exact returned

end Prepare

/-! ### The order of the entries -/

/-- The new entries hold one that resumes the requesting node with the runs reserved for
the actions, and in front of it an entry for each of these runs. Entries are taken from the
front of the stack.
-/
def ResumesLast (workflow : Workflow) (currentNode : INode) (request : EngineRequest Value)
    (runDataBefore runDataAfter : IRunData (INodeExecutionData Value))
    (before after : ExecutionData (INodeExecutionData Value))
    : Prop :=
  ∃ front resumed back reserved,
    after.nodeExecutionStack
      = attach workflow (front ++ resumed :: back) before.nodeExecutionStack
    ∧ resumed.node = workflow.getNode currentNode.name
    ∧ (∃ metadata,
        resumed.metadata = some metadata
        ∧ metadata.nodeWasResumed = true
        ∧ metadata.subNodeExecutionData = some reserved)
    ∧ reserved.map (·.nodeName) = request.actions.map (·.nodeName)
    ∧ reserved.Nodup
    ∧ ∀ action ∈ reserved,
        runCount runDataBefore action.nodeName ≤ action.runIndex
        ∧ action.runIndex < runCount runDataAfter action.nodeName
        ∧ ∃ entry ∈ front,
            entry.node = workflow.getNode action.nodeName
            ∧ entry.runIndex = some action.runIndex

/-- A request that is served: it comes from a node of the workflow that has one input and
a parent and is executed on a batch of items, and it asks for nodes of the workflow.
-/
structure IsServed (workflow : Workflow) (currentNode : INode)
    (request : EngineRequest Value)
    (executionData : IExecuteData (INodeExecutionData Value))
    : Prop where
  keyed : workflow.nodes.KeyedBy INode.name
  executes : executionData.node = some currentNode
  member : (workflow.getNode currentNode.name).isSome
  oneInput : HasOneInput workflow currentNode.name
  hasParent : (previousNode? (sourceAt executionData 0)).isSome
  hasInput : (executionData.data.get? .main).isSome
  known : ∀ action ∈ request.actions, (workflow.getNode action.nodeName).isSome

/-- What the resume entry of a request is delivered with. -/
structure IsResuming (currentNode : INode) (reserved : List SubNodeExecutionDataAction)
    (resuming : NodeToBeExecuted Item)
    : Prop where
  target : resuming.inputConnectionData.node = currentNode.name
  wasResumed : resuming.metadata.nodeWasResumed = true
  subNodes : resuming.metadata.subNodeExecutionData = some reserved
  hasOutput : resuming.parentOutputData.isSome

section Request

variable {currentNode : INode} {request : EngineRequest Value}
  {executionData : IExecuteData (INodeExecutionData Value)}

theorem handleRequest_of_served (text : String → Value) (runIndex : Nat)
    (runData : IRunData (INodeExecutionData Value))
    (served : IsServed workflow currentNode request executionData)
    : ∃ resuming prepared,
        handleRequest text workflow currentNode request runIndex executionData runData
          = .ok (resuming :: prepared.nodesToBeExecuted, prepared.runData)
        ∧ IsResuming currentNode prepared.actions resuming
        ∧ PreparedFor runData request.actions prepared := by
  obtain ⟨prepared, returned, holds⟩ :=
    foldlM_prepareAction text currentNode runIndex executionData served.keyed served.known
      (PreparedFor.start runData)
  obtain ⟨parentNode, hasParent⟩ := Option.isSome_iff_exists.mp served.hasParent
  unfold handleRequest prepareRequestedNodesForExecution prepareRequestingNodeForResuming
  rw [returned, hasParent, served.executes]
  exact ⟨_, prepared, rfl, ⟨rfl, rfl, rfl, served.hasInput⟩, by simpa using holds⟩

end Request

theorem addRequestedNode_eq [Inhabited Item] {runData : IRunData Item}
    {nodeData : NodeToBeExecuted Item} {outputs : List (Slot (List Item))}
    (hasOutput : nodeData.parentOutputData = some outputs)
    : addRequestedNode workflow runData nodeData
      = addNodeToBeExecuted workflow runData (nodeData.delivery outputs) := by
  unfold addRequestedNode
  rw [hasOutput]
  rfl

/-- What a requested node may add to the stack. -/
def IsToolEntry (workflow : Workflow) (tools : List (NodeToBeExecuted Item))
    (entry : IExecuteData Item)
    : Prop :=
  ∃ tool ∈ tools, ∃ outputs, IsEntryOf workflow (tool.delivery outputs) entry

theorem forM_addRequestedNode_adding [Inhabited Item] (runData : IRunData Item)
    (tools : List (NodeToBeExecuted Item))
    : Adding workflow (IsToolEntry workflow tools)
        (tools.forM (addRequestedNode workflow runData)) := by
  apply Adding.forM
  intro tool member
  cases hasOutput : tool.parentOutputData with
  | none =>
      unfold addRequestedNode
      rw [hasOutput]
      exact Adding.bind (Adding.throw _) (fun _ => (addNodeToBeExecuted_adding _ _).mono
        (fun _ _ ⟨added, same, fits⟩ =>
          ⟨added, same, fun entry among => ⟨tool, member, _, fits entry among⟩⟩))
  | some outputs =>
      rw [addRequestedNode_eq hasOutput]
      apply (addNodeToBeExecuted_adding _ _).mono
      intro before after ⟨added, same, fits⟩
      exact ⟨added, same, fun entry among => ⟨tool, member, outputs, fits entry among⟩⟩

/-- Nodes with one input all get an entry of their run, by induction over the nodes. -/
theorem forM_addRequestedNode_oneInput [Inhabited Item] (runData : IRunData Item)
    {tools : List (NodeToBeExecuted Item)}
    (oneInput : ∀ tool ∈ tools, HasOneInput workflow tool.inputConnectionData.node)
    (known : ∀ tool ∈ tools, (workflow.getNode tool.inputConnectionData.node).isSome)
    (hasOutput : ∀ tool ∈ tools, tool.parentOutputData.isSome)
    (state : ExecutionData Item)
    : ∃ final added,
        tools.forM (addRequestedNode workflow runData) state = .ok ⟨⟩ final
        ∧ final.nodeExecutionStack = attach workflow added state.nodeExecutionStack
        ∧ ∀ tool ∈ tools,
            ∃ entry ∈ added,
              entry.node = workflow.getNode tool.inputConnectionData.node
              ∧ entry.runIndex = some tool.nodeRunIndex := by
  induction tools generalizing state with
  | nil => exact ⟨state, [], rfl, (attach_nil _).symm, by simp⟩
  | cons tool rest ih =>
      obtain ⟨outputs, hasOutputs⟩ := Option.isSome_iff_exists.mp (hasOutput tool (by simp))
      obtain ⟨node, found⟩ := Option.isSome_iff_exists.mp (known tool (by simp))
      have first :=
        addNodeToBeExecuted_oneInput runData (tool.delivery outputs) state
          (oneInput tool (by simp)) found
      obtain ⟨final, added, returned, grown, entries⟩ :=
        ih (fun other member => oneInput other (.tail _ member))
          (fun other member => known other (.tail _ member))
          (fun other member => hasOutput other (.tail _ member))
          { state with
            nodeExecutionStack :=
              attach workflow [stackItem (tool.delivery outputs) node]
                state.nodeExecutionStack
          }
      have run
          : (tool :: rest).forM (addRequestedNode workflow runData) state
            = .ok ⟨⟩ final := by
        change
          (addRequestedNode workflow runData tool
            >>= fun _ => rest.forM (addRequestedNode workflow runData)) state
          = .ok ⟨⟩ final
        rw [addRequestedNode_eq hasOutputs]
        simp only [Bind.bind, EStateM.bind, first]
        exact returned
      obtain ⟨all, same, members⟩ :=
        attach_attach workflow [stackItem (tool.delivery outputs) node] added
          state.nodeExecutionStack
      refine ⟨final, all, run, grown.trans same, ?_⟩
      intro other member
      rcases List.mem_cons.mp member with isFirst | later
      · exact
          ⟨_, (members _).mpr (.inl (List.mem_singleton_self _)),
            by rw [isFirst]; exact found.symm, by rw [isFirst]; rfl⟩
      · obtain ⟨entry, among, fits⟩ := entries other later
        exact ⟨entry, (members entry).mpr (.inr among), fits⟩

/-- The resume entry is delivered first, and the requested nodes follow. -/
theorem handleEngineRequest_eq {text : String → Value} {currentNode : INode}
    {request : EngineRequest Value} {runIndex : Nat}
    {executionData : IExecuteData (INodeExecutionData Value)}
    {runData runDataAfter : IRunData (INodeExecutionData Value)}
    {resuming : NodeToBeExecuted (INodeExecutionData Value)}
    {tools : List (NodeToBeExecuted (INodeExecutionData Value))}
    {outputs : List (Slot (List (INodeExecutionData Value)))}
    (handled
      : handleRequest text workflow currentNode request runIndex executionData runData
        = .ok (resuming :: tools, runDataAfter))
    (hasOutput : resuming.parentOutputData = some outputs)
    (oneInput : HasOneInput workflow resuming.inputConnectionData.node)
    (known : workflow.getNode resuming.inputConnectionData.node = some node)
    (before : ExecutionData (INodeExecutionData Value))
    : handleEngineRequest text workflow currentNode request runIndex executionData runData
        before
      = (do
          tools.forM (addRequestedNode workflow runDataAfter)
          pure runDataAfter)
          { before with
            nodeExecutionStack :=
              attach workflow [stackItem (resuming.delivery outputs) node]
                before.nodeExecutionStack
          } := by
  have first :=
    addNodeToBeExecuted_oneInput runDataAfter (resuming.delivery outputs) before oneInput
      known
  unfold handleEngineRequest
  rw [handled]
  change
    ((addRequestedNode workflow runDataAfter resuming
        >>= fun _ => tools.forM (addRequestedNode workflow runDataAfter))
      >>= fun _ => pure runDataAfter) before
    = _
  rw [addRequestedNode_eq hasOutput]
  simp only [Bind.bind, EStateM.bind, first]

theorem bind_pure_ok {program : EngineM Item PUnit} {α : Type} {a result : α}
    : (do program; pure a : EngineM Item α) before = .ok result after
      ↔ program before = .ok ⟨⟩ after ∧ a = result := by
  simp only [Bind.bind, EStateM.bind]
  cases program before with
  | ok value final =>
      change EStateM.Result.ok a final = .ok result after ↔ _
      simp [and_comm]
  | error error final => simp

section Tools

variable {tools : List (NodeToBeExecuted Item)} {entry : IExecuteData Item}

theorem IsToolEntry.not_resumed (added : IsToolEntry workflow tools entry)
    (isNew : ∀ tool ∈ tools, tool.metadata.nodeWasResumed = false)
    {metadata : ITaskMetadata} (found : entry.metadata = some metadata)
    : metadata.nodeWasResumed = false := by
  obtain ⟨tool, member, outputs, unnumbered | ⟨_, node, _, same⟩⟩ := added
  · rw [unnumbered.2] at found
    exact nomatch found
  · rw [same] at found
    cases found
    exact isNew tool member

theorem IsToolEntry.of_numbered (added : IsToolEntry workflow tools entry) {index : Nat}
    (numbered : entry.runIndex = some index)
    : ∃ nodeName node,
        HasOneInput workflow nodeName
        ∧ workflow.getNode nodeName = some node
        ∧ entry.node = some node := by
  obtain ⟨tool, member, outputs, unnumbered | ⟨oneInput, node, found, same⟩⟩ := added
  · rw [unnumbered.1] at numbered
    exact nomatch numbered
  · exact ⟨_, node, oneInput, found, by rw [same]; rfl⟩

end Tools

section Order

variable {currentNode : INode} {request : EngineRequest Value}
  {executionData : IExecuteData (INodeExecutionData Value)}
  {runData runDataAfter : IRunData (INodeExecutionData Value)}
  {before after : ExecutionData (INodeExecutionData Value)}
  {resumeEntry : IExecuteData (INodeExecutionData Value)}
  {entries : List (IExecuteData (INodeExecutionData Value))}

/-- In the legacy order nothing is in front of the resume entry. -/
theorem ResumesLast.legacy
    (legacy : workflow.settings.executionOrder ≠ some .v1)
    (added
      : after.nodeExecutionStack
        = attach workflow entries
            (attach workflow [resumeEntry] before.nodeExecutionStack))
    (notResumed
      : ∀ entry ∈ entries,
          ∀ metadata, entry.metadata = some metadata → metadata.nodeWasResumed = false)
    (last : ResumesLast workflow currentNode request runData runDataAfter before after)
    : request.actions = [] := by
  obtain ⟨front, resumed, back, reserved, stack, _, ⟨metadata, found, wasResumed, _⟩, names,
    _, entryOf⟩ := last
  have split : front ++ resumed :: back = resumeEntry :: entries := by
    simpa [attach, legacy] using stack.symm.trans added
  cases front with
  | nil =>
      have none : reserved = [] := by
        apply List.eq_nil_iff_forall_not_mem.mpr
        intro action member
        obtain ⟨_, _, entry, inFront, _⟩ := entryOf action member
        exact nomatch inFront
      rw [none] at names
      simpa using names.symm
  | cons first rest =>
      have later : resumed ∈ entries := by
        rw [← (List.cons.inj split).2]
        simp
      rw [notResumed resumed later metadata found] at wasResumed
      exact nomatch wasResumed

/-- An entry of a reserved run stands for a node with one input. -/
theorem ResumesLast.hasOneInput {tools : List (NodeToBeExecuted (INodeExecutionData Value))}
    (served : IsServed workflow currentNode request executionData)
    (v1 : workflow.settings.executionOrder = some .v1)
    (added
      : after.nodeExecutionStack
        = attach workflow entries
            (attach workflow [resumeEntry] before.nodeExecutionStack))
    (resumes : resumeEntry.node = workflow.getNode currentNode.name)
    (toolEntries : ∀ entry ∈ entries, IsToolEntry workflow tools entry)
    (last : ResumesLast workflow currentNode request runData runDataAfter before after)
    {action : EngineAction Value} (member : action ∈ request.actions)
    : HasOneInput workflow action.nodeName := by
  obtain ⟨front, resumed, back, reserved, stack, _, _, names, _, entryOf⟩ := last
  have split : front ++ resumed :: back = entries ++ [resumeEntry] := by
    apply List.append_cancel_right
    simpa [attach, v1] using stack.symm.trans added
  have named : action.nodeName ∈ reserved.map (·.nodeName) := by
    rw [names]
    exact List.mem_map_of_mem member
  obtain ⟨run, among, sameName⟩ := List.mem_map.mp named
  obtain ⟨_, _, entry, inFront, isFor, numbered⟩ := entryOf run among
  obtain ⟨node, found⟩ := Option.isSome_iff_exists.mp (served.known action member)
  have isNode : entry.node = some node := by rw [isFor, sameName, found]
  have actionName : action.nodeName = node.name := served.keyed found
  have all : entry ∈ entries ++ [resumeEntry] := by
    rw [← split]
    exact List.mem_append_left _ inFront
  rcases List.mem_append.mp all with isTool | isResume
  · obtain ⟨nodeName, other, oneInput, known, same⟩ :=
      (toolEntries entry isTool).of_numbered numbered
    obtain rfl := Option.some.inj (same.symm.trans isNode)
    have toolName : nodeName = other.name := served.keyed known
    rwa [actionName, ← toolName]
  · rw [List.mem_singleton.mp isResume, resumes] at isNode
    have currentName : currentNode.name = node.name := served.keyed isNode
    rw [actionName, ← currentName]
    exact served.oneInput

/-- Entries of all requested nodes in front of the resume entry are what is asked for. -/
theorem ResumesLast.of_front {prepared : PreparedNodes Value}
    (holds : PreparedFor runData request.actions prepared)
    (stack
      : after.nodeExecutionStack
        = attach workflow (entries ++ [resumeEntry]) before.nodeExecutionStack)
    (resumes : resumeEntry.node = workflow.getNode currentNode.name)
    {metadata : ITaskMetadata} (hasMetadata : resumeEntry.metadata = some metadata)
    (wasResumed : metadata.nodeWasResumed = true)
    (subNodes : metadata.subNodeExecutionData = some prepared.actions)
    (entryOf
      : ∀ tool ∈ prepared.nodesToBeExecuted,
          ∃ entry ∈ entries,
            entry.node = workflow.getNode tool.inputConnectionData.node
            ∧ entry.runIndex = some tool.nodeRunIndex)
    : ResumesLast workflow currentNode request runData prepared.runData before after := by
  refine ⟨entries, resumeEntry, [], prepared.actions, stack, resumes,
    ⟨metadata, hasMetadata, wasResumed, subNodes⟩, holds.names, holds.distinct, ?_⟩
  intro run member
  obtain ⟨atLeast, below⟩ := holds.reserved run member
  rw [← holds.matching] at member
  obtain ⟨tool, among, rfl⟩ := List.mem_map.mp member
  exact ⟨atLeast, below, entryOf tool among⟩

end Order

section Served

variable {currentNode : INode} {request : EngineRequest Value}
  {executionData : IExecuteData (INodeExecutionData Value)}
  {runData runDataAfter : IRunData (INodeExecutionData Value)}
  {before after : ExecutionData (INodeExecutionData Value)}

theorem handleEngineRequest_of_served (text : String → Value) (runIndex : Nat)
    (runData : IRunData (INodeExecutionData Value))
    (before : ExecutionData (INodeExecutionData Value))
    (served : IsServed workflow currentNode request executionData)
    : ∃ prepared metadata resumeEntry,
        PreparedFor runData request.actions prepared
        ∧ resumeEntry.node = workflow.getNode currentNode.name
        ∧ resumeEntry.metadata = some metadata
        ∧ metadata.nodeWasResumed = true
        ∧ metadata.subNodeExecutionData = some prepared.actions
        ∧ handleEngineRequest text workflow currentNode request runIndex executionData
              runData before
            = (do
                prepared.nodesToBeExecuted.forM (addRequestedNode workflow prepared.runData)
                pure prepared.runData)
                { before with
                  nodeExecutionStack :=
                    attach workflow [resumeEntry] before.nodeExecutionStack
                } := by
  obtain ⟨resuming, prepared, handled, resumes, holds⟩ :=
    handleRequest_of_served text runIndex runData served
  obtain ⟨outputs, hasOutput⟩ := Option.isSome_iff_exists.mp resumes.hasOutput
  obtain ⟨node, known⟩ := Option.isSome_iff_exists.mp served.member
  have found : workflow.getNode resuming.inputConnectionData.node = some node := by
    rw [resumes.target, known]
  exact
    ⟨prepared, resuming.metadata, stackItem (resuming.delivery outputs) node, holds,
      known.symm, rfl, resumes.wasResumed, resumes.subNodes,
      handleEngineRequest_eq handled hasOutput (resumes.target ▸ served.oneInput) found
        before⟩

/-- A request after which the requesting node resumes last asks for no node, or the order
is v1 and the nodes have one input.
-/
theorem ResumesLast.fits {text : String → Value} {runIndex : Nat}
    (served : IsServed workflow currentNode request executionData)
    (returned
      : handleEngineRequest text workflow currentNode request runIndex executionData runData
          before
        = .ok runDataAfter after)
    (last : ResumesLast workflow currentNode request runData runDataAfter before after)
    : request.actions = []
      ∨ workflow.settings.executionOrder = some .v1
        ∧ ∀ action ∈ request.actions, HasOneInput workflow action.nodeName := by
  obtain ⟨prepared, metadata, resumeEntry, holds, resumes, _, _, _, run⟩ :=
    handleEngineRequest_of_served text runIndex runData before served
  rw [run] at returned
  obtain ⟨delivered, rfl⟩ := bind_pure_ok.mp returned
  obtain ⟨entries, added, toolEntries⟩ :=
    (forM_addRequestedNode_adding prepared.runData prepared.nodesToBeExecuted).of_ok delivered
  by_cases v1 : workflow.settings.executionOrder = some .v1
  · refine .inr ⟨v1, fun action member => ?_⟩
    exact last.hasOneInput served v1 added resumes toolEntries member
  · refine .inl (last.legacy v1 added fun entry member metadata => ?_)
    exact (toolEntries entry member).not_resumed holds.isNew

variable (text : String → Value) (runIndex : Nat)
  (served : IsServed workflow currentNode request executionData)

include text runIndex served

theorem resumesLast_of_noActions (noActions : request.actions = [])
    : ∃ runDataAfter after,
        handleEngineRequest text workflow currentNode request runIndex executionData runData
            before
          = .ok runDataAfter after
        ∧ ResumesLast workflow currentNode request runData runDataAfter before after := by
  obtain ⟨prepared, metadata, resumeEntry, holds, resumes, hasMetadata, wasResumed, subNodes,
    run⟩ := handleEngineRequest_of_served text runIndex runData before served
  have noNames : prepared.actions = [] := by simpa [noActions] using holds.names
  have noNodes : prepared.nodesToBeExecuted = [] := by simpa [noNames] using holds.matching
  have alone
      : attach workflow [resumeEntry] before.nodeExecutionStack
        = attach workflow ([] ++ [resumeEntry]) before.nodeExecutionStack := rfl
  rw [noNodes] at run
  refine ⟨prepared.runData, _, run, ?_⟩
  apply ResumesLast.of_front holds alone resumes hasMetadata wasResumed subNodes
  simp [noNodes]

theorem resumesLast_of_v1 (v1 : workflow.settings.executionOrder = some .v1)
    (oneInput : ∀ action ∈ request.actions, HasOneInput workflow action.nodeName)
    : ∃ runDataAfter after,
        handleEngineRequest text workflow currentNode request runIndex executionData runData
            before
          = .ok runDataAfter after
        ∧ ResumesLast workflow currentNode request runData runDataAfter before after := by
  obtain ⟨prepared, metadata, resumeEntry, holds, resumes, hasMetadata, wasResumed, subNodes,
    run⟩ := handleEngineRequest_of_served text runIndex runData before served
  have asked
      : ∀ nodeData ∈ prepared.nodesToBeExecuted,
          ∃ action ∈ request.actions,
            action.nodeName = nodeData.inputConnectionData.node := by
    intro nodeData member
    have named : nodeData.inputConnectionData.node ∈ request.actions.map (·.nodeName) := by
      rw [← holds.names, ← holds.matching, List.map_map]
      exact List.mem_map_of_mem member
    exact List.mem_map.mp named
  have fits
      : ∀ nodeData ∈ prepared.nodesToBeExecuted,
          HasOneInput workflow nodeData.inputConnectionData.node
          ∧ (workflow.getNode nodeData.inputConnectionData.node).isSome := by
    intro nodeData member
    obtain ⟨action, isAction, same⟩ := asked nodeData member
    rw [← same]
    exact ⟨oneInput action isAction, served.known action isAction⟩
  obtain ⟨after, entries, delivered, added, entryOf⟩ :=
    forM_addRequestedNode_oneInput prepared.runData
      (fun nodeData member => (fits nodeData member).1)
      (fun nodeData member => (fits nodeData member).2) holds.hasOutput
      { before with
        nodeExecutionStack := attach workflow [resumeEntry] before.nodeExecutionStack }
  have inFront
      : after.nodeExecutionStack
        = attach workflow (entries ++ [resumeEntry]) before.nodeExecutionStack := by
    rw [added]
    simp [attach, v1]
  refine ⟨prepared.runData, after, run.trans (bind_pure_ok.mpr ⟨delivered, rfl⟩), ?_⟩
  exact ResumesLast.of_front holds inFront resumes hasMetadata wasResumed subNodes entryOf

end Served

def agentNode : INode := ⟨"2", "Agent", "set", false⟩

/-- `Trigger` leads to `Agent`, which has the tool `Calculator`. -/
def agentWorkflow (executionOrder : Option ExecutionOrder) : Workflow where
  nodes :=
    ((Dict.empty.set "Trigger" ⟨"1", "Trigger", "set", false⟩).set "Agent" agentNode).set
      "Calculator" ⟨"3", "Calculator", "set", false⟩
  connectionsBySourceNode :=
    (Dict.empty.set "Trigger" (Dict.empty.set .main [some [⟨"Agent", .main, 0⟩]])).set
      "Calculator" (Dict.empty.set .aiTool [some [⟨"Agent", .aiTool, 0⟩]])
  connectionsByDestinationNode :=
    Dict.empty.set "Agent"
      ((Dict.empty.set .main [some [⟨"Trigger", .main, 0⟩]]).set .aiTool
        [some [⟨"Calculator", .aiTool, 0⟩]])
  settings := ⟨executionOrder⟩

def calculatorRequest : EngineRequest String :=
  ⟨[⟨"Calculator", .empty, .aiTool, "call_1", none⟩]⟩

/-- `Agent` is executed on one item from `Trigger`. -/
def agentExecution : IExecuteData (INodeExecutionData String) where
  data := Dict.empty.set .main [.value [⟨.empty, none⟩]]
  metadata := none
  node := some agentNode
  source := some (Dict.empty.set .main [.value ⟨"Trigger", some 0, some 0⟩])
  runIndex := none

theorem agentWorkflow_served (executionOrder : Option ExecutionOrder)
    : IsServed (agentWorkflow executionOrder) agentNode calculatorRequest agentExecution where
  keyed :=
    have none : (Dict.empty : Dict String INode).KeyedBy INode.name := .empty
    ((none.set ⟨"1", "Trigger", "set", false⟩).set agentNode).set
      ⟨"3", "Calculator", "set", false⟩
  executes := rfl
  member := rfl
  oneInput := Nat.le_refl 1
  hasParent := rfl
  hasInput := rfl
  known := by
    intro action member
    rw [List.mem_singleton.mp member]
    rfl

end N8n.Engine
