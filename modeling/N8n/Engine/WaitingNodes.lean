import N8n.Engine.AddNodeToBeExecuted
import N8n.Library.Unicode

/-! The search for a waiting node that can run without data on all of its inputs, which ends
each turn of `processRunExecutionData` with an empty stack
(`packages/core/src/execution-engine/workflow-execute.ts`).
-/

namespace N8n.Engine

/-- Which inputs have to have data: a number of them, or those with the given indexes. -/
inductive RequiredInputs where
  | count (inputs : Nat)
  | indexes (inputs : List Nat)
  deriving DecidableEq, Repr

/-- `requiredInputs` of a node type, which may be an expression over the node's parameters. -/
inductive RequiredInputsDescription where
  | expression (text : String)
  | value (required : RequiredInputs)
  deriving DecidableEq, Repr

/-- The inputs of a node type are listed, or an expression tells them. -/
inductive InputsDescription where
  | expression (text : String)
  | listed (types : List NodeConnectionType)
  deriving DecidableEq, Repr

/-- `inputs.length`, in code units where the inputs are an expression. -/
def InputsDescription.length : InputsDescription → Nat
  | .expression text => (Unicode.utf16 text.toList).length
  | .listed types => types.length

structure INodeTypeDescription where
  inputs : InputsDescription
  requiredInputs : Option RequiredInputsDescription
  deriving DecidableEq, Repr

/-- What the search asks of the node types and of the evaluation of expressions. -/
structure NodeTypes where
  getByNameAndVersion : INode → Except JsError INodeTypeDescription
  getSimpleParameterValue : INode → String → Except JsError (Option RequiredInputs)

def ofExcept {Item α : Type} : Except JsError α → EngineM Item α
  | .ok result => pure result
  | .error error => throw error

variable {Item : Type} (workflow : Workflow) (nodeTypes : NodeTypes)

-- only the current execution order knows required inputs
def requiredInputsOf (checkNode : INode) (description : INodeTypeDescription)
    : EngineM Item (Option RequiredInputs) :=
  if workflow.settings.executionOrder = some .v1 then
    match description.requiredInputs with
    | none => pure none
    | some (.value required) => pure (some required)
    | some (.expression text) => ofExcept (nodeTypes.getSimpleParameterValue checkNode text)
  else pure none

/-- All inputs are required. -/
def allRequired (requiredInputs : Option RequiredInputs) (inputs : InputsDescription) : Bool :=
  match requiredInputs with
  | none => false
  | some (.indexes required) => required.length = inputs.length
  | some (.count required) => required = inputs.length

/-- The run indexes as `sort` orders them, which compares them as strings. -/
def sortedRunIndexes (table : Dict Nat (ITaskDataConnections Item)) : List Nat :=
  table.sortedKeys.insertionSort (fun first second => toString first ≤ toString second)

def firstRunIndex (table : Dict Nat (ITaskDataConnections Item)) : Option Nat :=
  (sortedRunIndexes table).head?

/-- The inputs that received any data, even if it was an empty array. Holes are passed over,
here and below.
-/
def inputsWithData (main : List (Slot (List Item))) : List Nat :=
  (List.range main.length).filter (fun index => (Slot.read main index).isTruthy)

/-- Some of the required inputs have no data. -/
def inputDataMissing (requiredInputs : Option RequiredInputs)
    (main : List (Slot (List Item)))
    : Bool :=
  match requiredInputs with
  | none => false
  | some (.indexes required) => required.any (fun input => input ∉ inputsWithData main)
  | some (.count required) => (inputsWithData main).length < required

/-- Inputs that never got any data have an empty array. -/
def taskDataMain (main : List (Slot (List Item))) : List (Slot (List Item)) :=
  main.map (fun slot => match slot with | .null => .value [] | _ => slot)

def hasItems (slot : Slot (List Item)) : Bool :=
  match slot with
  | .value (_ :: _) => true
  | _ => false

/-- Each input at least receives an empty array. -/
def padInputs (main : List (Slot (List Item))) (inputs : InputsDescription)
    : List (Slot (List Item)) :=
  main ++ List.replicate (inputs.length - main.length) (.value [])

/-- `waitingExecutionSource![nodeName]`, which throws if either is undefined when it is
indexed.
-/
def waitingSources (nodeName : String) : EngineM Item (Dict Nat ITaskDataConnectionsSource) := do
  orThrow ((← get).waitingExecutionSource.bind (fun sources => sources.get? nodeName))

/-- Puts the node on the stack with the data of the entry. -/
def pushWaiting (nodeName : String) (runIndex : Nat) (main : List (Slot (List Item)))
    : EngineM Item PUnit := do
  let sources ← waitingSources nodeName
  modify (fun self =>
    { self with
      nodeExecutionStack := self.nodeExecutionStack
        ++ [
          {
            data := Dict.empty.set .main main
            metadata := none
            node := workflow.getNode nodeName
            source := sources.get? runIndex
            runIndex := none
          }
        ]
    })

/-- Removes the entry from waiting, and the node with its last entry. -/
def removeWaiting (nodeName : String) (runIndex : Nat) : EngineM Item PUnit := do
  modify (fun self =>
    { self with
      waitingExecution := deleteEntry self.waitingExecution nodeName runIndex false })
  let _ ← (waitingSources nodeName : EngineM Item _)
  modify (fun self =>
    { self with
      waitingExecutionSource := some (deleteEntry self.sources nodeName runIndex false) })
  let self ← get
  if (self.table nodeName).keys.isEmpty then
    modify (fun self =>
      { self with
        waitingExecution := self.waitingExecution.delete nodeName
        waitingExecutionSource := some (self.sources.delete nodeName)
      })

/-- An entry that the search took from the waiting area; `pushed` tells whether its node is
on the stack now or the entry had no items.
-/
structure Taken where
  nodeName : String
  runIndex : Nat
  pushed : Bool
  deriving DecidableEq, Repr

/-- One turn of the loop, `none` if it continues with the next node. -/
def takeWaitingNode (waitingNodes : List String) (nodeName : String)
    : EngineM Item (Option Taken) := do
  match workflow.getNode nodeName with
  | none => pure none
  | some checkNode => do
      let description ← ofExcept (nodeTypes.getByNameAndVersion checkNode)
      let requiredInputs ← requiredInputsOf workflow nodeTypes checkNode description
      if allRequired requiredInputs description.inputs then pure none
      -- one of its dependencies is still outstanding
      else if (workflow.getParentNodes nodeName).any (fun value => value ∈ waitingNodes) then
        pure none
      else
        let runIndex ← orThrow (firstRunIndex ((← get).table nodeName))
        let main ← orThrow ((← get).main? nodeName runIndex)
        if inputDataMissing requiredInputs main then pure none
        else
          let pushed := (taskDataMain main).any hasItems
          if pushed then
            pushWaiting workflow nodeName runIndex
              (padInputs (taskDataMain main) description.inputs)
          removeWaiting nodeName runIndex
          pure (some ⟨nodeName, runIndex, pushed⟩)

/-- The turns up to the first one that takes an entry. -/
def searchWaitingNodes (waitingNodes : List String)
    : List String → EngineM Item (Option Taken)
  | [] => pure none
  | nodeName :: rest => do
      match ← takeWaitingNode workflow nodeTypes waitingNodes nodeName with
      | some taken => pure (some taken)
      | none => searchWaitingNodes waitingNodes rest

/-- The turns from the first waiting node on. -/
def searchFromStart : EngineM Item (Option Taken) := do
  let waitingNodes := (← get).waitingExecution.keys
  searchWaitingNodes workflow nodeTypes waitingNodes waitingNodes

/-- The whole loop: when an entry without items was removed, it begins again with the nodes
that wait then. The answer is whether the loop has ended within `fuel` searches.
-/
def executeWaitingNodes : Nat → EngineM Item Bool
  | 0 => pure false
  | fuel + 1 => do
      match ← searchFromStart workflow nodeTypes with
      | some ⟨_, _, false⟩ => executeWaitingNodes fuel
      | _ => pure true

variable {workflow : Workflow} {nodeTypes : NodeTypes}

/-- No node has an entry that it did not have. -/
def NoNewEntries (before after : ExecutionData Item) : Prop :=
  ∀ nodeName, ∀ runIndex ∈ (after.table nodeName).keys, runIndex ∈ (before.table nodeName).keys

theorem NoNewEntries.refl (self : ExecutionData Item) : NoNewEntries self self :=
  fun _ _ member => member

/-- The state after the entry has been removed from waiting. -/
structure Removed (nodeName : String) (runIndex : Nat) (before after : ExecutionData Item)
    : Prop where
  table : after.table nodeName = (before.table nodeName).delete runIndex
  others : ∀ other, other ≠ nodeName
    → after.waitingExecution.get? other = before.waitingExecution.get? other
  nodes : ∀ other ∈ after.waitingExecution.keys, other ∈ before.waitingExecution.keys

variable {nodeName : String} {runIndex : Nat} {before after : ExecutionData Item}

/-- The node has no more entries than before, and no other node has changed. -/
theorem Removed.noNewEntries (removed : Removed nodeName runIndex before after)
    : NoNewEntries before after := by
  intro other index member
  by_cases same : other = nodeName
  · subst same
    rw [removed.table] at member
    exact (Dict.mem_keys_delete.mp member).2
  · rwa [ExecutionData.table, removed.others other same] at member

theorem Removed.delete {final : ExecutionData Item}
    (removed : Removed nodeName runIndex before after) (last : (after.table nodeName).keys = [])
    (same : final.waitingExecution = after.waitingExecution.delete nodeName)
    : Removed nodeName runIndex before final := by
  refine ⟨?_, ?_, ?_⟩
  · rw [← removed.table, Dict.eq_empty_of_keys last]
    simp [ExecutionData.table, same, Dict.get?_delete]
  · intro other differ
    rw [← removed.others other differ, same, Dict.get?_delete, if_neg differ]
  · intro other member
    rw [same] at member
    exact removed.nodes other (Dict.mem_keys_delete.mp member).2

variable {self : ExecutionData Item}

variable {α : Type} {good : α → ExecutionData Item → Prop} {bad : ExecutionData Item → Prop}

theorem ofExcept_ensures {result : Except JsError α}
    (onReturn : ∀ value, result = .ok value → good value self) (onThrow : bad self)
    : (ofExcept result : EngineM Item α).Ensures self good bad := by
  cases result with
  | ok value => exact .pure (onReturn value rfl)
  | error error => exact .throw onThrow

theorem orThrow_cases {value : Option α}
    (onReturn : ∀ result, value = some result → good result self) (onThrow : bad self)
    : (orThrow value : EngineM Item α).Ensures self good bad := by
  cases value with
  | some result => exact .pure (onReturn result rfl)
  | none => exact .throw onThrow

theorem removeWaiting_ensures (runIndex : Nat) (waits : nodeName ∈ self.waitingExecution.keys)
    : (removeWaiting nodeName runIndex).Ensures self
        (fun _ final =>
          Removed nodeName runIndex self final
          ∧ final.nodeExecutionStack = self.nodeExecutionStack)
        (NoNewEntries self) := by
  have removed (sources : Option IWaitingForExecutionSource)
      : Removed nodeName runIndex self
          {
            self with
            waitingExecution := deleteEntry self.waitingExecution nodeName runIndex false
            waitingExecutionSource := sources
          } := by
    refine ⟨?_, ?_, ?_⟩
    · simp [ExecutionData.table, deleteEntry]
    · intro other differ
      simp [deleteEntry, Dict.get?_set_of_ne _ _ differ]
    · intro other member
      rcases Dict.mem_keys_set.mp (by simpa [deleteEntry] using member) with rfl | old
      · exact waits
      · exact old
  refine .bind (.update ?_)
  refine .bind (.bind (.get ?_))
  refine orThrow_cases (fun sources _ => ?_) (removed _).noNewEntries
  refine .bind (.update ?_)
  refine .bind (.get ?_)
  split
  case isTrue last =>
    exact .update ⟨(removed _).delete (List.isEmpty_iff.mp last) rfl, rfl⟩
  case isFalse more => exact .pure ⟨removed _, rfl⟩

/-- One turn of the loop took the first entry of the node. -/
structure Took (workflow : Workflow) (waitingNodes : List String)
    (before after : ExecutionData Item) (taken : Taken)
    : Prop where
  waits : taken.nodeName ∈ before.waitingExecution.keys
  first : firstRunIndex (before.table taken.nodeName) = some taken.runIndex
  items
    : ∃ main,
        before.main? taken.nodeName taken.runIndex = some main
        ∧ taken.pushed = (taskDataMain main).any hasItems
  free : ∀ parent ∈ workflow.getParentNodes taken.nodeName, parent ∉ waitingNodes
  removed : Removed taken.nodeName taken.runIndex before after
  stack
    : if taken.pushed then after.nodeExecutionStack ≠ []
      else after.nodeExecutionStack = before.nodeExecutionStack

/-- The node exists, and its type does not require any inputs. -/
def RequiresNone (workflow : Workflow) (nodeTypes : NodeTypes) (nodeName : String) : Prop :=
  ∃ node description,
    workflow.getNode nodeName = some node
    ∧ nodeTypes.getByNameAndVersion node = .ok description
    ∧ description.requiredInputs = none

/-- A node without required inputs is passed over for a waiting parent only. -/
def PassedOver (workflow : Workflow) (nodeTypes : NodeTypes) (waitingNodes : List String)
    (nodeName : String)
    : Prop :=
  RequiresNone workflow nodeTypes nodeName
  → ∃ parent ∈ workflow.getParentNodes nodeName, parent ∈ waitingNodes

/-- What the turns for some nodes end in. -/
inductive Searched (workflow : Workflow) (nodeTypes : NodeTypes) (waitingNodes : List String)
    (checked : List String) (before : ExecutionData Item)
    : Option Taken → ExecutionData Item → Prop where
  | nothing
    (passed : ∀ nodeName ∈ checked, PassedOver workflow nodeTypes waitingNodes nodeName)
    : Searched workflow nodeTypes waitingNodes checked before none before
  | entry {taken : Taken} {after : ExecutionData Item}
    (took : Took workflow waitingNodes before after taken)
    : Searched workflow nodeTypes waitingNodes checked before (some taken) after

theorem requiredInputsOf_ensures {checkNode : INode} {description : INodeTypeDescription}
    : (requiredInputsOf workflow nodeTypes checkNode description).Ensures self
        (fun requiredInputs final =>
          final = self ∧ (description.requiredInputs = none → requiredInputs = none))
        (fun final => final = self) := by
  unfold requiredInputsOf
  split
  · split
    · exact .pure ⟨rfl, fun _ => rfl⟩
    next declared => exact .pure ⟨rfl, fun none => by simp [none] at declared⟩
    next declared =>
      exact ofExcept_ensures (fun _ _ => ⟨rfl, fun none => by simp [none] at declared⟩) rfl
  · exact .pure ⟨rfl, fun _ => rfl⟩

variable {main : List (Slot (List Item))}

theorem pushWaiting_ensures
    : (pushWaiting workflow nodeName runIndex main).Ensures self
        (fun _ final =>
          final.nodeExecutionStack ≠ [] ∧ final.waitingExecution = self.waitingExecution)
        (fun final => final = self) := by
  refine .bind (.bind (.get ?_))
  refine orThrow_cases (fun sources _ => ?_) rfl
  exact .update ⟨by simp, rfl⟩

theorem firstRunIndex_mem {table : Dict Nat (ITaskDataConnections Item)}
    (first : firstRunIndex table = some runIndex)
    : runIndex ∈ table.keys :=
  Dict.mem_sortedKeys.mp ((List.mem_insertionSort _).mp (List.mem_of_head? first))

theorem mem_keys_of_firstRunIndex (first : firstRunIndex (self.table nodeName) = some runIndex)
    : nodeName ∈ self.waitingExecution.keys := by
  by_contra absent
  rw [ExecutionData.table, Dict.get?_eq_none_iff.mpr absent] at first
  contradiction

/-- The state matters for its waiting area alone. -/
theorem Removed.of_waiting {other : ExecutionData Item}
    (removed : Removed nodeName runIndex other after)
    (same : other.waitingExecution = before.waitingExecution)
    : Removed nodeName runIndex before after := by
  obtain ⟨table, others, nodes⟩ := removed
  rw [ExecutionData.table, ExecutionData.table, same] at table
  rw [same] at others nodes
  exact ⟨table, others, nodes⟩

/-- The first entry of a node leaves the waiting area, and goes onto the stack if it has
items.
-/
theorem takeEntry_ensures {waitingNodes : List String} {padded : List (Slot (List Item))}
    (first : firstRunIndex (self.table nodeName) = some runIndex)
    (held : self.main? nodeName runIndex = some main)
    (free : ∀ parent ∈ workflow.getParentNodes nodeName, parent ∉ waitingNodes)
    : (do
          if (taskDataMain main).any hasItems then
            pushWaiting workflow nodeName runIndex padded
          removeWaiting nodeName runIndex
          pure (some ⟨nodeName, runIndex, (taskDataMain main).any hasItems⟩)
          : EngineM Item (Option Taken)).Ensures self
        (fun result final =>
          ∃ taken, result = some taken ∧ Took workflow waitingNodes self final taken)
        (NoNewEntries self) := by
  have waits := mem_keys_of_firstRunIndex first
  simp only
  split
  case isTrue pushed =>
    refine .bind (pushWaiting_ensures.mono ?_ (fun _ same => same ▸ .refl _))
    intro _ middle pushes
    obtain ⟨onStack, same⟩ := pushes
    refine .bind ((removeWaiting_ensures runIndex (same ▸ waits)).mono ?_ ?_)
    · intro _ final removes
      obtain ⟨removed, stack⟩ := removes
      refine .pure ⟨_, rfl, ?_⟩
      refine ⟨waits, first, ⟨main, held, rfl⟩, free, removed.of_waiting same, ?_⟩
      rw [if_pos pushed, stack]
      exact onStack
    · intro final fewer other index member
      simpa [ExecutionData.table, same] using fewer other index member
  case isFalse noItems =>
    refine .bind ((removeWaiting_ensures runIndex waits).mono ?_ ?_)
    · intro _ final removes
      obtain ⟨removed, stack⟩ := removes
      refine .pure ⟨_, rfl, ?_⟩
      refine ⟨waits, first, ⟨main, held, rfl⟩, free, removed, ?_⟩
      rw [if_neg noItems, stack]
    · exact fun _ fewer => fewer

theorem takeWaitingNode_ensures (waitingNodes : List String) (nodeName : String)
    (self : ExecutionData Item)
    : (takeWaitingNode workflow nodeTypes waitingNodes nodeName).Ensures self
        (Searched workflow nodeTypes waitingNodes [nodeName] self) (NoNewEntries self) := by
  have passed (skipped : PassedOver workflow nodeTypes waitingNodes nodeName)
      : Searched workflow nodeTypes waitingNodes [nodeName] self none self :=
    .nothing (fun _ member => List.mem_singleton.mp member ▸ skipped)
  unfold takeWaitingNode
  cases found : workflow.getNode nodeName with
  | none =>
      refine .pure (passed ?_)
      intro requires
      obtain ⟨node, _, exists_, _⟩ := requires
      rw [found] at exists_
      contradiction
  | some checkNode =>
      refine .bind (ofExcept_ensures (fun description described => ?_) (.refl self))
      refine .bind (requiredInputsOf_ensures.mono ?_ (fun _ same => same ▸ .refl self))
      intro requiredInputs _ required
      obtain ⟨rfl, onlyDeclared⟩ := required
      have undeclared (requires : RequiresNone workflow nodeTypes nodeName)
          : requiredInputs = none := by
        obtain ⟨node, other, exists_, same, declared⟩ := requires
        cases found.symm.trans exists_
        cases described.symm.trans same
        exact onlyDeclared declared
      split
      case isTrue all =>
        refine .pure (passed ?_)
        intro requires
        simp [undeclared requires, allRequired] at all
      case isFalse _ =>
        split
        case isTrue waiting =>
          refine .pure (passed ?_)
          intro _
          simpa using waiting
        case isFalse free =>
          refine .bind (.get ?_)
          refine .bind (orThrow_cases (fun runIndex first => ?_) (.refl _))
          refine .bind (.get ?_)
          refine .bind (orThrow_cases (fun main held => ?_) (.refl _))
          have noParent : ∀ parent ∈ workflow.getParentNodes nodeName, parent ∉ waitingNodes := by
            simpa using free
          split
          case isTrue missing =>
            refine .pure (passed ?_)
            intro requires
            simp [undeclared requires, inputDataMissing] at missing
          case isFalse _ =>
            refine (takeEntry_ensures first held noParent).mono ?_ (fun _ fewer => fewer)
            intro _ final takes
            obtain ⟨taken, rfl, took⟩ := takes
            exact .entry took

/-- The turns one after the other, by induction over the nodes. -/
theorem searchWaitingNodes_ensures (waitingNodes checked : List String)
    (self : ExecutionData Item)
    : (searchWaitingNodes workflow nodeTypes waitingNodes checked).Ensures self
        (Searched workflow nodeTypes waitingNodes checked self) (NoNewEntries self) := by
  induction checked with
  | nil => exact .pure (.nothing (by simp))
  | cons nodeName rest ih =>
      refine .bind ((takeWaitingNode_ensures waitingNodes nodeName self).mono ?_
        (fun _ fewer => fewer))
      intro result final searched
      cases searched with
      | entry took => exact .pure (.entry took)
      | nothing passed =>
          refine ih.mono ?_ (fun _ fewer => fewer)
          intro result final searched
          cases searched with
          | entry took => exact .entry took
          | nothing others =>
              refine .nothing (fun other member => ?_)
              rcases List.mem_cons.mp member with rfl | later
              · exact passed other (.head _)
              · exact others other later

theorem searchFromStart_ensures (self : ExecutionData Item)
    : (searchFromStart workflow nodeTypes).Ensures self
        (Searched workflow nodeTypes self.waitingExecution.keys self.waitingExecution.keys self)
        (NoNewEntries self) :=
  Exec.Ensures.bind (.get (searchWaitingNodes_ensures _ _ self))

end N8n.Engine
