import N8n.Engine.HandleRequest
import N8n.Library.ObjectHeaps

/-! What a request of a node leaves in the run data and on the nodes of the workflow when it
is thrown away (`packages/core/src/execution-engine/requests-response.ts`). Here the run data
and the nodes are what a failure does not undo.
-/

namespace N8n.Engine.RequestsResponse

variable {Value : Type}

/-! ### What a request writes -/

structure TaskRecord (Value : Type) where
  data : Option (ITaskDataConnections (INodeExecutionData Value))
  inputOverride : Option (ITaskDataConnections (INodeExecutionData Value))
  source : List (Slot ISourceData)
  executionIndex : Nat
  executionTime : Nat
  startTime : Nat
  deriving DecidableEq

/-- The run data, and the property `rewireOutputLogTo` of the nodes, by their names. -/
structure Shared (Value : Type) where
  runData : Dict String (List (TaskRecord Value))
  rewireOutputLogTo : Dict String NodeConnectionType
  deriving DecidableEq

def Shared.runs (shared : Shared Value) (nodeName : String) : Nat :=
  ((shared.runData.get? nodeName).getD []).length

/-- Answers the index of the run that it reserves. -/
def initializeNodeRunData (nodeName parentNode : String)
    (parentOutputIndex parentRunIndex : Nat) (actionMetadata : Option ActionMetadata)
    (runIndex : Nat) (displayOutputData : List (Slot (List (INodeExecutionData Value))))
    : Exec (Shared Value) Nat := do
  let nodeRunData := ((← get).runData.get? nodeName).getD []
  let sourceData : ISourceData :=
    {
      previousNode := parentNode
      previousNodeOutput := some parentOutputIndex
      previousNodeRun :=
        some
          (if (ActionMetadata.parentNode? actionMetadata).isSome then parentRunIndex
          else runIndex)
    }
  let record : TaskRecord Value :=
    {
      data := none
      inputOverride := some (Dict.empty.set .aiTool displayOutputData)
      source := [.value sourceData]
      executionIndex := 0
      executionTime := 0
      startTime := 0
    }
  modify (fun shared =>
    { shared with runData := shared.runData.set nodeName (nodeRunData ++ [record]) })
  pure nodeRunData.length

structure Prepared (Value : Type) where
  nodesToBeExecuted : List (NodeToBeExecuted (INodeExecutionData Value))
  actions : List SubNodeExecutionDataAction

variable {action : EngineAction Value} {node : INode}

section Request

variable (text : String → Value) (workflow : Workflow) (currentNode : INode)
  (request : EngineRequest Value) (runIndex : Nat)
  (executionData : IExecuteData (INodeExecutionData Value))

/-- One turn of the loop over the actions. `text` makes a value of a text. -/
def prepareAction (prepared : Prepared Value) (action : EngineAction Value)
    : Exec (Shared Value) (Prepared Value) := do
  let parentSourceData := Slot.toOption (sourceAt executionData runIndex)
  let defaultParentOutputIndex :=
    (parentSourceData.bind ISourceData.previousNodeOutput).getD 0
  let defaultParentSourceNode :=
    (parentSourceData.map ISourceData.previousNode).getD currentNode.name
  match workflow.getNode action.nodeName with
  | none =>
      throw
        (.error "UnexpectedError"
          ("Workflow does not contain a node with the name of \"" ++ action.nodeName ++ "\".")
          none)
  | some node => do
      modify (fun shared =>
        {
          shared with
          rewireOutputLogTo := shared.rewireOutputLogTo.set action.nodeName action.type
        })
      let runData := (← get).runData
      let parentNode :=
        (action.metadata.bind ActionMetadata.parentNodeName).getD currentNode.name
      let hasParent := (ActionMetadata.parentNode? action.metadata).isSome
      -- a node with run data has run at least once
      let parentRunIndex :=
        if hasParent then ((runData.get? parentNode).map List.length).getD 1 - 1
        else (parentSourceData.bind ISourceData.previousNodeRun).getD 0
      let itemIndex := (action.metadata.bind ActionMetadata.itemIndex).getD 0
      let agentInputData :=
        ((executionData.data.get? .main).bind (fun main =>
          Slot.toOption (Slot.read main 0))).bind (fun items => items[itemIndex]?)
      let mergedJson :=
        (spreadOver ((agentInputData.map INodeExecutionData.json).getD .empty)
          action.input).set "toolCallId" (text action.id)
      let displayJson := spreadOver .empty action.input
      let nodeRunIndex ←
        initializeNodeRunData node.name parentNode defaultParentOutputIndex parentRunIndex
          action.metadata runIndex
          (buildParentOutputData displayJson parentRunIndex defaultParentOutputIndex
            defaultParentSourceNode)
      let nodeToBeExecuted : NodeToBeExecuted (INodeExecutionData Value) :=
        {
          inputConnectionData := ⟨action.nodeName, action.type, 0⟩
          parentOutputIndex := 0
          parentNode
          parentOutputData :=
            some
              (buildParentOutputData mergedJson parentRunIndex defaultParentOutputIndex
                defaultParentSourceNode)
          runIndex := if hasParent then parentRunIndex else runIndex
          nodeRunIndex
          metadata := {
            nodeWasResumed := false
            subNodeExecutionData := none
            preserveSourceOverwrite := true
            preservedSourceOverwrite :=
              some
                ((executionData.metadata.bind ITaskMetadata.preservedSourceOverwrite).getD
                  {
                    previousNode := defaultParentSourceNode
                    previousNodeOutput := some defaultParentOutputIndex
                    previousNodeRun := some parentRunIndex
                  })
          }
        }
      pure {
        nodesToBeExecuted := prepared.nodesToBeExecuted ++ [nodeToBeExecuted]
        actions := prepared.actions ++ [⟨action.nodeName, nodeRunIndex⟩]
      }

def prepareRequestedNodesForExecution : Exec (Shared Value) (Prepared Value) :=
  request.actions.foldlM (prepareAction text workflow currentNode runIndex executionData)
    ⟨[], []⟩

/-- The requesting node is put before the requested ones. -/
def resume (prepared : Prepared Value)
    : Except JsError (List (NodeToBeExecuted (INodeExecutionData Value))) := do
  match ← prepareRequestingNodeForResuming executionData with
  | none => return []
  | some result =>
      let resuming : NodeToBeExecuted (INodeExecutionData Value) :=
        {
          inputConnectionData := result.connectionData
          parentOutputIndex := 0
          parentNode := result.parentNode
          parentOutputData := executionData.data.get? .main
          runIndex
          nodeRunIndex := runIndex
          metadata := {
            nodeWasResumed := true
            subNodeExecutionData := some prepared.actions
            preserveSourceOverwrite := result.metadata.1
            preservedSourceOverwrite := result.metadata.2
          }
        }
      return resuming :: prepared.nodesToBeExecuted

/-- Resuming the requesting node writes nothing. -/
def handleRequest
    : Exec (Shared Value) (List (NodeToBeExecuted (INodeExecutionData Value))) := do
  let prepared ←
    prepareRequestedNodesForExecution text workflow currentNode request runIndex
      executionData
  match resume runIndex executionData prepared with
  | .error error => throw error
  | .ok nodesToBeExecuted => pure nodesToBeExecuted

/-- A request that throws, or after which nothing is to be executed, leaves no trace. -/
def AllOrNothing (shared : Shared Value) : Prop :=
  (handleRequest text workflow currentNode request runIndex executionData).Ensures shared
    (fun nodesToBeExecuted final => nodesToBeExecuted = [] → final = shared)
    (fun final => final = shared)

instance [DecidableEq Value] (shared : Shared Value)
    : Decidable
        (AllOrNothing text workflow currentNode request runIndex executionData shared) :=
  @Exec.instDecidableEnsures _ _ _ _ _ _ (fun nodes final =>
    match nodes with
    | [] => decidable_of_iff (final = shared) (by simp)
    | _ :: _ => .isTrue (by simp)) (fun _ => inferInstance)

/-! ### Runs are only added -/

def Grows (first last : Shared Value) : Prop :=
  ∀ nodeName, first.runs nodeName ≤ last.runs nodeName

theorem Grows.refl (shared : Shared Value) : Grows shared shared := fun _ => Nat.le_refl _

theorem Grows.trans (first middle last : Shared Value) (early : Grows first middle)
    (late : Grows middle last)
    : Grows first last :=
  fun nodeName => Nat.le_trans (early nodeName) (late nodeName)

/-- The node has got a run that it did not have. -/
def GrowsAt (nodeName : String) (first last : Shared Value) : Prop :=
  Grows first last ∧ first.runs nodeName < last.runs nodeName

theorem GrowsAt.ne {nodeName : String} {first last : Shared Value}
    (grows : GrowsAt nodeName first last)
    : last ≠ first := by
  rintro rfl
  exact Nat.lt_irrefl _ grows.2

theorem GrowsAt.trans {nodeName : String} {first middle last : Shared Value}
    (early : GrowsAt nodeName first middle) (late : Grows middle last)
    : GrowsAt nodeName first last :=
  ⟨Grows.trans _ _ _ early.1 late, Nat.lt_of_lt_of_le early.2 (late nodeName)⟩

theorem Shared.runs_set (shared : Shared Value) (nodeName other : String)
    (nodeRunData : List (TaskRecord Value))
    : Shared.runs { shared with runData := shared.runData.set nodeName nodeRunData } other
        = if other = nodeName then nodeRunData.length else shared.runs other := by
  unfold Shared.runs
  simp only [Dict.get?_set]
  split <;> rfl

theorem initializeNodeRunData_grows (nodeName parentNode : String)
    (parentOutputIndex parentRunIndex : Nat) (actionMetadata : Option ActionMetadata)
    (runIndex : Nat) (displayOutputData : List (Slot (List (INodeExecutionData Value))))
    (shared : Shared Value)
    : (initializeNodeRunData nodeName parentNode parentOutputIndex parentRunIndex
        actionMetadata runIndex displayOutputData).Ensures shared
        (fun _ => GrowsAt nodeName shared) (fun _ => False) := by
  refine .bind (.get ?_)
  refine .bind (.update ?_)
  refine .pure ⟨fun other => ?_, ?_⟩
  · rw [Shared.runs_set]
    split
    · next same =>
        subst same
        simp [Shared.runs]
    · exact Nat.le_refl _
  · rw [Shared.runs_set, if_pos rfl]
    simp [Shared.runs]

/-- Before an action is found to name a missing node, nothing is written. -/
theorem prepareAction_missing (missing : workflow.getNode action.nodeName = none)
    (prepared : Prepared Value) (shared : Shared Value)
    : (prepareAction text workflow currentNode runIndex executionData prepared
        action).Ensures shared (fun _ _ => False) (fun final => final = shared) := by
  unfold prepareAction
  simp only [missing]
  exact .throw rfl

theorem prepareAction_known (known : workflow.getNode action.nodeName = some node)
    (prepared : Prepared Value) (shared : Shared Value)
    : (prepareAction text workflow currentNode runIndex executionData prepared
        action).Ensures shared (fun _ => GrowsAt node.name shared) (fun _ => False) := by
  unfold prepareAction
  simp only [known]
  refine .bind (.update ?_)
  refine .bind (.get ?_)
  refine .bind ((initializeNodeRunData_grows ..).mono ?_ (fun _ h => h))
  intro nodeRunIndex final grows
  -- the mark on the node is no run
  exact .pure grows

theorem prepareAction_within (prepared : Prepared Value) (action : EngineAction Value)
    : (prepareAction text workflow currentNode runIndex executionData prepared
        action).Within Grows := by
  intro shared
  cases found : workflow.getNode action.nodeName with
  | none =>
      exact (prepareAction_missing text workflow currentNode runIndex executionData found
        prepared shared).mono (fun _ _ h => h.elim) (fun _ same => same ▸ Grows.refl _)
  | some node =>
      exact (prepareAction_known text workflow currentNode runIndex executionData found
        prepared shared).mono (fun _ _ grows => grows.1) (fun _ h => h.elim)

/-- What is prepared for a known action has got the run of its node. -/
theorem prepared_grows (rest : List (EngineAction Value))
    (known : workflow.getNode action.nodeName = some node) (prepared : Prepared Value)
    (shared : Shared Value)
    : ((action :: rest).foldlM
        (prepareAction text workflow currentNode runIndex executionData) prepared).Ensures
        shared (fun _ => GrowsAt node.name shared) (GrowsAt node.name shared) := by
  rw [List.foldlM_cons]
  refine .bind
    ((prepareAction_known text workflow currentNode runIndex executionData known prepared
      shared).mono ?_ (fun _ h => h.elim))
  intro middle after grows
  have later :=
    Exec.Within.foldlM Grows.refl Grows.trans
      (fun prepared action (_ : action ∈ rest) =>
        prepareAction_within text workflow currentNode runIndex executionData prepared action)
      middle after
  exact later.mono (fun _ _ => grows.trans) (fun _ => grows.trans)

/-- The loop returns exactly when each action names a node. -/
theorem prepared_returns_iff (actions : List (EngineAction Value)) (prepared : Prepared Value)
    (shared : Shared Value)
    : (actions.foldlM (prepareAction text workflow currentNode runIndex executionData)
        prepared).Ensures shared (fun _ _ => True) (fun _ => False)
      ↔ ∀ action ∈ actions, (workflow.getNode action.nodeName).isSome := by
  induction actions generalizing prepared shared with
  | nil =>
      refine iff_of_true (.pure trivial) ?_
      simp
  | cons action rest ih =>
      rw [List.foldlM_cons, Exec.ensures_bind_iff, List.forall_mem_cons]
      cases found : workflow.getNode action.nodeName with
      | none =>
          obtain ⟨_, _, threw, _⟩ :=
            (prepareAction_missing text workflow currentNode runIndex executionData found
              prepared shared).exists_error
          simp [Exec.ensures_of_error threw]
      | some node =>
          obtain ⟨result, middle, returned, _⟩ :=
            (prepareAction_known text workflow currentNode runIndex executionData found
              prepared shared).exists_ok
          rw [Exec.ensures_of_ok returned, ih]
          simp

/-! ### Resuming -/

/-- The requesting node can be resumed: it has a source, and is there to be named. -/
def Resumable : Prop :=
  (previousNode? (sourceAt executionData 0)).isSome ∧ executionData.node.isSome

instance : Decidable (Resumable executionData) :=
  inferInstanceAs (Decidable (_ ∧ _))

theorem resume_of_resumable (resumable : Resumable executionData)
    (prepared : Prepared Value)
    : ∃ resuming, resume runIndex executionData prepared
        = .ok (resuming :: prepared.nodesToBeExecuted) := by
  obtain ⟨parentNode, hasParent⟩ := Option.isSome_iff_exists.mp resumable.1
  obtain ⟨node, hasNode⟩ := Option.isSome_iff_exists.mp resumable.2
  unfold resume prepareRequestingNodeForResuming
  rw [hasParent, hasNode]
  exact ⟨_, rfl⟩

/-- Otherwise the request is ignored, or there is nothing to name in the report. -/
theorem resume_of_not_resumable (ignored : ¬ Resumable executionData)
    (prepared : Prepared Value)
    : resume runIndex executionData prepared = .ok []
      ∨ ∃ error, resume runIndex executionData prepared = .error error := by
  unfold resume prepareRequestingNodeForResuming
  cases hasNode : executionData.node with
  | none =>
      refine .inr ⟨.typeError, ?_⟩
      cases previousNode? (sourceAt executionData 0) <;> rfl
  | some node =>
      cases hasParent : previousNode? (sourceAt executionData 0) with
      | none => exact .inl rfl
      | some parentNode =>
          exact absurd ⟨by simp [hasParent], by simp [hasNode]⟩ ignored

/-! ### Requests that leave no trace -/

theorem allOrNothing_nil (none : request.actions = []) (shared : Shared Value)
    : AllOrNothing text workflow currentNode request runIndex executionData shared := by
  unfold AllOrNothing handleRequest prepareRequestedNodesForExecution
  rw [none]
  refine .bind (.pure ?_)
  cases resume runIndex executionData ⟨[], []⟩ with
  | error error => exact .throw rfl
  | ok nodes => exact .pure (fun _ => rfl)

section

variable {rest : List (EngineAction Value)} (actions : request.actions = action :: rest)

include actions

theorem allOrNothing_missing (missing : workflow.getNode action.nodeName = none)
    (shared : Shared Value)
    : AllOrNothing text workflow currentNode request runIndex executionData shared := by
  unfold AllOrNothing handleRequest prepareRequestedNodesForExecution
  rw [actions, List.foldlM_cons]
  refine .bind (.bind ?_)
  exact (prepareAction_missing text workflow currentNode runIndex executionData missing _
    shared).mono (fun _ _ h => h.elim) (fun _ same => same)

/-- Once a first node is marked, the request leaves no trace only if it is not thrown away. -/
theorem allOrNothing_known_iff (known : workflow.getNode action.nodeName = some node)
    (shared : Shared Value)
    : AllOrNothing text workflow currentNode request runIndex executionData shared
      ↔ (∀ action ∈ request.actions, (workflow.getNode action.nodeName).isSome)
        ∧ Resumable executionData := by
  have returns :=
    prepared_returns_iff text workflow currentNode runIndex executionData request.actions
      ⟨[], []⟩ shared
  have grows :=
    prepared_grows text workflow currentNode runIndex executionData rest known ⟨[], []⟩ shared
  rw [← actions] at grows
  unfold AllOrNothing handleRequest prepareRequestedNodesForExecution
  rw [Exec.ensures_bind_iff, ← returns]
  cases ran : request.actions.foldlM
    (prepareAction text workflow currentNode runIndex executionData) ⟨[], []⟩ shared with
  | error error final =>
      rw [Exec.ensures_of_error ran] at grows
      rw [Exec.ensures_of_error ran, Exec.ensures_of_error ran]
      exact iff_of_false grows.ne (fun both => both.1)
  | ok prepared final =>
      rw [Exec.ensures_of_ok ran] at grows
      rw [Exec.ensures_of_ok ran, Exec.ensures_of_ok ran, true_and]
      by_cases resumable : Resumable executionData
      · obtain ⟨resuming, resumed⟩ :=
          resume_of_resumable runIndex executionData resumable prepared
        refine iff_of_true ?_ resumable
        rw [resumed]
        exact .pure (fun none => absurd none (List.cons_ne_nil _ _))
      · refine iff_of_false ?_ resumable
        rcases resume_of_not_resumable runIndex executionData resumable prepared with
          ignored | ⟨error, threw⟩
        · rw [ignored]
          exact fun kept => grows.ne (kept rfl)
        · rw [threw]
          exact grows.ne

end

/-- The run data as far as the engine schedules by it. -/
def Shared.scheduled (shared : Shared Value) : IRunData (INodeExecutionData Value) :=
  shared.runData.mapValues (fun nodeRunData => nodeRunData.map (fun record => ⟨record.data⟩))

def Prepared.scheduled (prepared : Prepared Value) (shared : Shared Value)
    : PreparedNodes Value :=
  ⟨prepared.nodesToBeExecuted, prepared.actions, shared.scheduled⟩

theorem scheduled_get? (shared : Shared Value) (nodeName : String)
    : (shared.scheduled.get? nodeName).map List.length
        = (shared.runData.get? nodeName).map List.length := by
  unfold Shared.scheduled
  rw [Dict.get?_mapValues, Option.map_map]
  congr 1
  funext nodeRunData
  exact List.length_map _

theorem initializeNodeRunData_scheduled (nodeName parentNode : String)
    (parentOutputIndex parentRunIndex : Nat) (actionMetadata : Option ActionMetadata)
    (runIndex : Nat) (displayOutputData : List (Slot (List (INodeExecutionData Value))))
    (shared : Shared Value)
    : (initializeNodeRunData nodeName parentNode parentOutputIndex parentRunIndex
        actionMetadata runIndex displayOutputData).Ensures shared
        (fun nodeRunIndex final =>
          Engine.initializeNodeRunData shared.scheduled nodeName
            = (nodeRunIndex, final.scheduled))
        (fun _ => False) := by
  refine .bind (.get ?_)
  refine .bind (.update ?_)
  refine .pure ?_
  unfold Engine.initializeNodeRunData Shared.scheduled
  rw [Dict.mapValues_set, Dict.get?_mapValues]
  cases shared.runData.get? nodeName with
  | none | some => simp

/-- What a turn does to the run data is what the engine's scheduling takes it for. -/
theorem prepareAction_scheduled (prepared : Prepared Value) (action : EngineAction Value)
    (shared : Shared Value)
    : (prepareAction text workflow currentNode runIndex executionData prepared action).Ensures
        shared
        (fun result final =>
          Engine.prepareAction text workflow currentNode runIndex executionData
            (prepared.scheduled shared) action = .ok (result.scheduled final))
        (fun _ =>
          ∃ error, Engine.prepareAction text workflow currentNode runIndex executionData
            (prepared.scheduled shared) action = .error error) := by
  unfold prepareAction Engine.prepareAction
  cases workflow.getNode action.nodeName with
  | none => exact .throw ⟨_, rfl⟩
  | some node =>
      refine .bind (.update ?_)
      refine .bind (.get ?_)
      refine .bind ((initializeNodeRunData_scheduled ..).mono ?_
        (fun _ h => h.elim))
      intro nodeRunIndex final reserved
      refine .pure ?_
      -- the mark on the node is not scheduled by
      change Engine.initializeNodeRunData shared.scheduled node.name = _ at reserved
      simp only [Prepared.scheduled, scheduled_get?, reserved]
      rfl

/-- The loop over the actions reserves what the engine's scheduling takes it to reserve. -/
theorem prepared_scheduled (actions : List (EngineAction Value)) (prepared : Prepared Value)
    (shared : Shared Value)
    : (actions.foldlM (prepareAction text workflow currentNode runIndex executionData)
        prepared).Ensures shared
        (fun result final =>
          actions.foldlM
            (Engine.prepareAction text workflow currentNode runIndex executionData)
            (prepared.scheduled shared) = .ok (result.scheduled final))
        (fun _ =>
          ∃ error, actions.foldlM
            (Engine.prepareAction text workflow currentNode runIndex executionData)
            (prepared.scheduled shared) = .error error) := by
  induction actions generalizing prepared shared with
  | nil => exact .pure rfl
  | cons action rest ih =>
      rw [List.foldlM_cons, List.foldlM_cons]
      refine .bind
        ((prepareAction_scheduled text workflow currentNode runIndex executionData prepared
          action shared).mono ?_ ?_)
      · intro result middle returned
        rw [returned]
        exact ih result middle
      · rintro final ⟨error, threw⟩
        exact ⟨error, by rw [threw]; rfl⟩

end Request

def toolNode : INode := ⟨"1", "Tool", "tool", false⟩

def agentNode : INode := ⟨"2", "Agent", "agent", false⟩

end N8n.Engine.RequestsResponse
