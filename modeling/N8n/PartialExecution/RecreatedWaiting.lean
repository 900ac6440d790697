import N8n.PartialExecution.RecreateNodeExecutionStack

/-! The waiting area that `recreateNodeExecutionStack` returns, entry by entry: each start
node has one entry for each of its incomplete groups that has any run data, and the entry
holds the run data of the group's connections.
-/

namespace N8n.PartialExecution

variable {Item : Type}

/-- The run data of a connection, where it can be read. -/
def incomingItems (runData : IRunData Item) (connection : GraphConnection)
    : Option (List Item) :=
  match getIncomingDataFromAnyRun runData connection.fromNode.name connection.type
      connection.outputIndex with
  | .ok (some found) => some found.data
  | _ => none

/-- The connections that have run data, with the data. -/
def fed (runData : IRunData Item) (connections : List GraphConnection)
    : List (GraphConnection × List Item) :=
  connections.filterMap (fun connection =>
    (incomingItems runData connection).map (fun items => (connection, items)))

/-- Writes one value for each item into the entry that it starts with. -/
def fillEntry {α β : Type} (place : β → GraphConnection) (value : β → α)
    (entry : Dict NodeConnectionType (List (Slot α))) (items : List β)
    : Dict NodeConnectionType (List (Slot α)) :=
  items.foldl
    (fun entry item =>
      entry.set (place item).type
        (Slot.write ((entry.get? (place item).type).getD []) (place item).inputIndex
          (.value (value item))))
    entry

/-- The entry of a group. -/
def entryOf (runData : IRunData Item) (connections : List GraphConnection)
    : ITaskDataConnections Item :=
  fillEntry Prod.fst Prod.snd .empty (fed runData connections)

/-- The sources of a group's entry. -/
def sourceOf (runData : IRunData Item) (runIndex : Nat) (connections : List GraphConnection)
    : ITaskDataConnectionsSource :=
  fillEntry Prod.fst
    (fun item =>
      ⟨item.1.fromNode.name, some item.1.outputIndex, some runIndex⟩)
    .empty (fed runData connections)

/-- Numbers the entries in order. -/
def numbered {α : Type} (entries : List α) : Dict Nat α :=
  entries.zipIdx.foldl (fun table entry => table.set entry.2 entry.1) .empty

/-- A node without entries has no table. -/
def tableOf {α : Type} (entries : List α) : Option (Dict Nat α) :=
  if entries.isEmpty then none else some (numbered entries)

variable {α : Type}

section

variable (entries : List α)

include entries

theorem numbered_append (entry : α)
    : numbered (entries ++ [entry]) = (numbered entries).set entries.length entry := by
  simp [numbered, List.zipIdx_append, List.foldl_append]

theorem get?_numbered (runIndex : Nat)
    : (numbered entries).get? runIndex = entries[runIndex]? := by
  induction entries using List.reverseRecOn with
  | nil => simp [numbered]
  | append_singleton entries entry ih =>
      rw [numbered_append, Dict.get?_set, ih]
      by_cases last : runIndex = entries.length
      · simp [last]
      · rw [if_neg last]
        rcases Nat.lt_or_ge runIndex entries.length with before | after
        · rw [List.getElem?_append_left before]
        · rw [List.getElem?_eq_none after, List.getElem?_eq_none (by simp; omega)]

theorem keys_numbered
    : (numbered entries).keys.length = entries.length := by
  induction entries using List.reverseRecOn with
  | nil => rfl
  | append_singleton entries entry ih =>
      have fresh : (numbered entries).get? entries.length = none := by
        rw [get?_numbered, List.getElem?_eq_none (Nat.le_refl _)]
      rw [numbered_append, Dict.keys, Dict.set_entries_of_not_mem entry fresh,
        List.map_append, List.length_append, List.length_append]
      exact congrArg (· + 1) ih

theorem tableOf_getD
    : (tableOf entries).getD .empty = numbered entries := by
  unfold tableOf
  split
  · next none => simp [List.isEmpty_iff.mp none, numbered]
  · rfl

theorem tableOf_length
    : (tableOf entries).elim 0 (fun runs => runs.keys.length) = entries.length := by
  unfold tableOf
  split
  · next none => simp [List.isEmpty_iff.mp none]
  · exact keys_numbered entries

theorem tableOf_append (entry : α)
    : tableOf (entries ++ [entry]) = some ((numbered entries).set entries.length entry) := by
  simp [tableOf, numbered_append]

end

/-- A further connection goes into the entry under way. -/
theorem addWaiting_entry (waiting : WaitingFor α) (nodeName : String)
    (runs : Dict Nat (Dict NodeConnectionType (List (Slot α)))) (runIndex : Nat)
    (entry : Dict NodeConnectionType (List (Slot α))) (inputType : NodeConnectionType)
    (inputIndex : Nat) (slot : Slot α)
    : addWaiting (waiting.set nodeName (runs.set runIndex entry)) nodeName runIndex inputType
          inputIndex slot
        = waiting.set nodeName
            (runs.set runIndex
              (entry.set inputType
                (Slot.write ((entry.get? inputType).getD []) inputIndex slot))) := by
  simp [addWaiting, Dict.set_set]

theorem addWaiting_open {waiting : WaitingFor α} {nodeName : String} {runIndex : Nat}
    (fresh : ((waiting.get? nodeName).getD .empty).get? runIndex = none)
    (inputType : NodeConnectionType) (inputIndex : Nat) (slot : Slot α)
    : addWaiting waiting nodeName runIndex inputType inputIndex slot
        = waiting.set nodeName
            (((waiting.get? nodeName).getD .empty).set runIndex
              (Dict.empty.set inputType (Slot.write [] inputIndex slot))) := by
  simp [addWaiting, fresh]

/-- The waiting area with entries put in for one node. -/
def Recreated.withEntry (recreated : Recreated Item) (nodeName : String) (runIndex : Nat)
    (entry : ITaskDataConnections Item) (source : ITaskDataConnectionsSource)
    : Recreated Item where
  nodeExecutionStack := recreated.nodeExecutionStack
  waitingExecution :=
    recreated.waitingExecution.set nodeName
      (((recreated.waitingExecution.get? nodeName).getD .empty).set runIndex entry)
  waitingExecutionSource :=
    recreated.waitingExecutionSource.set nodeName
      (((recreated.waitingExecutionSource.get? nodeName).getD .empty).set runIndex source)

variable {runData : IRunData Item} {recreated final : Recreated Item} {nodeName : String}
  {nextRunIndex : Nat} {connection : GraphConnection} {connections : List GraphConnection}

/-- The source record that a waiting slot of the entry gets. -/
def waitingSource (runIndex : Nat) (connection : GraphConnection) : ISourceData :=
  ⟨connection.fromNode.name, some connection.outputIndex, some runIndex⟩

theorem addToWaiting_cases
    (returned : addToWaiting runData nodeName nextRunIndex recreated connection = .ok final)
    : (fed runData [connection] = [] ∧ final = recreated)
      ∨ ∃ items,
          fed runData [connection] = [(connection, items)]
          ∧ final
            = {
                recreated with
                waitingExecution :=
                  addWaiting recreated.waitingExecution nodeName nextRunIndex
                    connection.type connection.inputIndex (.value items)
                waitingExecutionSource :=
                  addWaiting recreated.waitingExecutionSource nodeName nextRunIndex
                    connection.type connection.inputIndex
                    (.value (waitingSource nextRunIndex connection))
              } := by
  unfold addToWaiting at returned
  cases read : getIncomingDataFromAnyRun runData connection.fromNode.name connection.type
      connection.outputIndex with
  | error error =>
      rw [read] at returned
      contradiction
  | ok found =>
      rw [read] at returned
      cases found with
      | none =>
          refine .inl ⟨?_, (Except.ok.inj returned).symm⟩
          simp [fed, incomingItems, read]
      | some found =>
          refine .inr ⟨found.data, ?_, (Except.ok.inj returned).symm⟩
          simp [fed, incomingItems, read]

/-- The connections after the first one with data fill the entry under way, by induction on
the connections.
-/
theorem addToWaiting_fill {entry : ITaskDataConnections Item}
    {source : ITaskDataConnectionsSource}
    (returned
      : connections.foldlM (addToWaiting runData nodeName nextRunIndex)
          (recreated.withEntry nodeName nextRunIndex entry source) = .ok final)
    : final
      = recreated.withEntry nodeName nextRunIndex
          (fillEntry Prod.fst Prod.snd entry (fed runData connections))
          (fillEntry Prod.fst (fun item => waitingSource nextRunIndex item.1) source
            (fed runData connections)) := by
  induction connections generalizing entry source with
  | nil => exact (Except.ok.inj returned).symm
  | cons connection rest ih =>
      rw [List.foldlM_cons] at returned
      have split : fed runData (connection :: rest)
          = fed runData [connection] ++ fed runData rest := by
        simp [fed, List.filterMap_cons]
        split <;> simp
      cases added : addToWaiting runData nodeName nextRunIndex
          (recreated.withEntry nodeName nextRunIndex entry source) connection with
      | error error =>
          rw [added] at returned
          contradiction
      | ok next =>
          rw [added] at returned
          rcases addToWaiting_cases added with ⟨empty, same⟩ | ⟨items, one, same⟩
          · rw [split, empty, List.nil_append]
            exact ih (same ▸ returned)
          · have under : next
                = recreated.withEntry nodeName nextRunIndex
                    (fillEntry Prod.fst Prod.snd entry [(connection, items)])
                    (fillEntry Prod.fst (fun item => waitingSource nextRunIndex item.1) source
                      [(connection, items)]) := by
              rw [same]
              simp only [Recreated.withEntry, addWaiting_entry]
              rfl
            rw [split, one, List.singleton_append]
            exact ih (under ▸ returned)

/-- A group without run data adds nothing; another one adds its entry. -/
theorem addToWaiting_group
    (fresh
      : ((recreated.waitingExecution.get? nodeName).getD .empty).get? nextRunIndex = none)
    (freshSource
      : ((recreated.waitingExecutionSource.get? nodeName).getD .empty).get? nextRunIndex
        = none)
    (returned
      : connections.foldlM (addToWaiting runData nodeName nextRunIndex) recreated = .ok final)
    : final
      = if (fed runData connections).isEmpty then recreated
        else
          recreated.withEntry nodeName nextRunIndex (entryOf runData connections)
            (sourceOf runData nextRunIndex connections) := by
  induction connections with
  | nil => exact (Except.ok.inj returned).symm
  | cons connection rest ih =>
      rw [List.foldlM_cons] at returned
      cases added : addToWaiting runData nodeName nextRunIndex recreated connection with
      | error error =>
          rw [added] at returned
          contradiction
      | ok next =>
          rw [added] at returned
          rcases addToWaiting_cases added with ⟨empty, rfl⟩ | ⟨items, one, same⟩
          · have skipped : fed runData (connection :: rest) = fed runData rest := by
              have none : incomingItems runData connection = none := by
                simpa [fed] using empty
              simp [fed, none]
            simp only [entryOf, sourceOf, skipped]
            exact ih returned
          · have read : incomingItems runData connection = some items := by
              cases found : incomingItems runData connection with
              | none => simp [fed, found] at one
              | some other => simpa [fed, found] using one
            have more : fed runData (connection :: rest)
                = (connection, items) :: fed runData rest := by
              simp [fed, read]
            have opened : next
                = recreated.withEntry nodeName nextRunIndex
                    (fillEntry Prod.fst Prod.snd .empty [(connection, items)])
                    (fillEntry Prod.fst (fun item => waitingSource nextRunIndex item.1)
                      .empty [(connection, items)]) := by
              rw [same]
              simp only [addWaiting_open fresh, addWaiting_open freshSource]
              rfl
            rw [opened] at returned
            rw [addToWaiting_fill returned, more]
            simp only [List.isEmpty_cons, Bool.false_eq_true, if_false, entryOf, sourceOf, more]
            rfl

/-- The node waits with one entry for each of these groups. -/
structure Recreated.HasGroups (runData : IRunData Item) (recreated : Recreated Item)
    (nodeName : String) (groups : List (List GraphConnection)) : Prop where
  data
    : recreated.waitingExecution.get? nodeName = tableOf (groups.map (entryOf runData))
  source
    : recreated.waitingExecutionSource.get? nodeName
      = tableOf (groups.mapIdx (sourceOf runData))

/-- The waiting area of the node is the same in both. -/
def Recreated.SameAt (before after : Recreated Item) (nodeName : String) : Prop :=
  after.waitingExecution.get? nodeName = before.waitingExecution.get? nodeName
  ∧ after.waitingExecutionSource.get? nodeName = before.waitingExecutionSource.get? nodeName

/-- An incomplete group with run data makes an entry. -/
def SourceConnectionGroup.waits (runData : IRunData Item) (group : SourceConnectionGroup)
    : Bool :=
  !group.complete && !(fed runData group.connections).isEmpty

variable {groups : List (List GraphConnection)} {pinData : IPinData Item}
  {startNode : INode}

theorem Recreated.HasGroups.add (holds : recreated.HasGroups runData nodeName groups)
    (connections : List GraphConnection)
    : (recreated.withEntry nodeName groups.length (entryOf runData connections)
          (sourceOf runData groups.length connections)).HasGroups runData nodeName
        (groups ++ [connections]) where
  data := by
    simp only [Recreated.withEntry, Dict.get?_set_self, holds.data, tableOf_getD,
      List.map_append, List.map_singleton, tableOf_append, List.length_map]
  source := by
    simp only [Recreated.withEntry, Dict.get?_set_self, holds.source, tableOf_getD,
      List.mapIdx_concat, tableOf_append, List.length_mapIdx]

section

variable (holds : recreated.HasGroups runData startNode.name groups)

include holds

/-- What one group does to the waiting area of its node and of the others. -/
theorem recreateGroup_waiting {group : SourceConnectionGroup}
    (returned : recreateGroup runData pinData startNode recreated group = .ok final)
    : final.HasGroups runData startNode.name
        (groups ++ if group.waits runData then [group.connections] else [])
      ∧ ∀ other, other ≠ startNode.name → recreated.SameAt final other := by
  unfold recreateGroup at returned
  cases complete : group.complete with
  | true =>
      simp only [complete, if_true] at returned
      cases arrived : group.connections.foldlM (addIncomingData runData pinData startNode)
          ([], []) with
      | error error =>
          rw [arrived] at returned
          contradiction
      | ok incoming =>
          rw [arrived] at returned
          cases returned
          simp only [SourceConnectionGroup.waits, complete, Bool.not_true, Bool.false_and,
            Bool.false_eq_true, if_false, List.append_nil]
          exact ⟨⟨holds.data, holds.source⟩, fun other _ => ⟨rfl, rfl⟩⟩
  | false =>
      have next : (recreated.waitingExecution.get? startNode.name).elim 0
          (fun runs => runs.keys.length) = groups.length := by
        rw [holds.data, tableOf_length, List.length_map]
      simp only [complete, Bool.false_eq_true, if_false, next] at returned
      have fresh : ((recreated.waitingExecution.get? startNode.name).getD .empty).get?
          groups.length = none := by
        rw [holds.data, tableOf_getD, get?_numbered, List.getElem?_eq_none (by simp)]
      have freshSource : ((recreated.waitingExecutionSource.get? startNode.name).getD
          .empty).get? groups.length = none := by
        rw [holds.source, tableOf_getD, get?_numbered, List.getElem?_eq_none (by simp)]
      have same := addToWaiting_group fresh freshSource returned
      simp only [SourceConnectionGroup.waits, complete, Bool.not_false, Bool.true_and]
      cases empty : (fed runData group.connections).isEmpty with
      | true =>
          rw [empty, if_pos rfl] at same
          subst same
          simpa using ⟨holds, fun other _ => (⟨rfl, rfl⟩ : final.SameAt final other)⟩
      | false =>
          rw [empty, if_neg (by simp)] at same
          subst same
          refine ⟨by simpa using holds.add group.connections, fun other differ => ⟨?_, ?_⟩⟩
          · exact Dict.get?_set_of_ne _ _ differ
          · exact Dict.get?_set_of_ne _ _ differ

/-- The groups of a start node in turn, by induction on the groups. -/
theorem recreateGroups_waiting {all : List SourceConnectionGroup}
    (returned : all.foldlM (recreateGroup runData pinData startNode) recreated = .ok final)
    : final.HasGroups runData startNode.name
        (groups
          ++ (all.filter (SourceConnectionGroup.waits runData)).map
            SourceConnectionGroup.connections)
      ∧ ∀ other, other ≠ startNode.name → recreated.SameAt final other := by
  induction all generalizing recreated groups with
  | nil =>
      obtain rfl := Except.ok.inj returned
      simpa using ⟨holds, fun other _ => (⟨rfl, rfl⟩ : recreated.SameAt recreated other)⟩
  | cons group rest ih =>
      rw [List.foldlM_cons] at returned
      cases added : recreateGroup runData pinData startNode recreated group with
      | error error =>
          rw [added] at returned
          contradiction
      | ok next =>
          rw [added] at returned
          obtain ⟨here, elsewhere⟩ := recreateGroup_waiting holds added
          obtain ⟨all, others⟩ := ih here returned
          refine ⟨?_, fun other differ => ?_⟩
          · rw [List.filter_cons]
            cases waits : group.waits runData with
            | true | false => simpa [waits] using all
          · exact ⟨(others other differ).1.trans (elsewhere other differ).1,
              (others other differ).2.trans (elsewhere other differ).2⟩

end

variable {startNodes : List INode}

section Recreation

variable [Inhabited Item] {localeCompare : String → String → Int} {graph : DirectedGraph}

omit [Inhabited Item] in
/-- The groups that a start node waits with. -/
def waitingGroups (localeCompare : String → String → Int) (graph : DirectedGraph)
    (runData : IRunData Item) (pinData : IPinData Item) (startNode : INode)
    : List (List GraphConnection) :=
  if (graph.connections.values.filter (fun connection =>
      connection.toNode = startNode ∧ connection.type = .main)).isEmpty then
    []
  else
    ((getSourceDataGroups localeCompare graph startNode runData pinData).filter
      (SourceConnectionGroup.waits runData)).map SourceConnectionGroup.connections

/-- A start node has to be the node of the graph under its name. -/
theorem recreateStartNode_present
    (returned
      : recreateStartNode localeCompare graph runData pinData recreated startNode = .ok final)
    : graph.nodes.get? startNode.name = some startNode := by
  unfold recreateStartNode DirectedGraph.getDirectParentConnections DirectedGraph.ok at returned
  cases present : graph.nodeExists startNode with
  | false =>
      simp only [present, Bool.false_eq_true, if_false] at returned
      contradiction
  | true => simpa [DirectedGraph.nodeExists] using present

/-- A start node that is not waiting yet comes to wait with its groups. -/
theorem recreateStartNode_waiting
    (fresh : recreated.HasGroups runData startNode.name [])
    (returned
      : recreateStartNode localeCompare graph runData pinData recreated startNode = .ok final)
    : final.HasGroups runData startNode.name
        (waitingGroups localeCompare graph runData pinData startNode)
      ∧ ∀ other, other ≠ startNode.name → recreated.SameAt final other := by
  have present : graph.nodeExists startNode = true := by
    simpa [DirectedGraph.nodeExists] using recreateStartNode_present returned
  unfold recreateStartNode DirectedGraph.getDirectParentConnections DirectedGraph.ok at returned
  simp only [present, if_true] at returned
  change (if _ then _ else _) = _ at returned
  have parents : (graph.connections.values.filter (fun connection =>
        connection.toNode = startNode)).filter (fun connection => connection.type = .main)
      = graph.connections.values.filter (fun connection =>
        connection.toNode = startNode ∧ connection.type = .main) := by
    rw [List.filter_filter]
    exact List.filter_congr fun connection _ => by simp [Bool.and_comm]
  rw [parents] at returned
  unfold waitingGroups
  split at returned
  · next none =>
      cases returned
      rw [if_pos none]
      exact ⟨⟨fresh.data, fresh.source⟩, fun other _ => ⟨rfl, rfl⟩⟩
  · next some_ =>
      rw [if_neg some_]
      simpa using recreateGroups_waiting fresh returned

theorem recreateStartNodes_present (returned
      : startNodes.foldlM (recreateStartNode localeCompare graph runData pinData) recreated
        = .ok final)
    : ∀ startNode ∈ startNodes, graph.nodes.get? startNode.name = some startNode := by
  induction startNodes generalizing recreated with
  | nil => simp
  | cons startNode rest ih =>
      rw [List.foldlM_cons] at returned
      cases added : recreateStartNode localeCompare graph runData pinData recreated startNode with
      | error error =>
          rw [added] at returned
          contradiction
      | ok next =>
          rw [added] at returned
          intro node member
          rcases List.mem_cons.mp member with rfl | later
          · exact recreateStartNode_present added
          · exact ih returned node later

/-- Every node waits with its groups if it is a start node, and not at all otherwise. Start
nodes differ in their names, since each is the node of the graph under its name.
-/
theorem recreateStartNodes_waiting (distinct : startNodes.Nodup)
    (fresh : ∀ startNode ∈ startNodes, recreated.HasGroups runData startNode.name [])
    (returned
      : startNodes.foldlM (recreateStartNode localeCompare graph runData pinData) recreated
        = .ok final)
    : (∀ startNode ∈ startNodes, final.HasGroups runData startNode.name
        (waitingGroups localeCompare graph runData pinData startNode))
      ∧ ∀ other, (∀ startNode ∈ startNodes, startNode.name ≠ other)
        → recreated.SameAt final other := by
  have present := recreateStartNodes_present returned
  induction startNodes generalizing recreated with
  | nil =>
      cases returned
      exact ⟨by simp, fun other _ => ⟨rfl, rfl⟩⟩
  | cons startNode rest ih =>
      obtain ⟨new, restDistinct⟩ := List.nodup_cons.mp distinct
      have differs : ∀ node ∈ rest, node.name ≠ startNode.name := by
        intro node member same
        have there := present node (.tail _ member)
        rw [same, present startNode (by simp)] at there
        exact new (Option.some.inj there ▸ member)
      rw [List.foldlM_cons] at returned
      cases added : recreateStartNode localeCompare graph runData pinData recreated startNode with
      | error error =>
          rw [added] at returned
          contradiction
      | ok next =>
          rw [added] at returned
          obtain ⟨here, elsewhere⟩ := recreateStartNode_waiting (fresh startNode (by simp)) added
          obtain ⟨later, others⟩ := ih restDistinct
            (fun node member =>
              have before := fresh node (.tail _ member)
              have same := elsewhere node.name (differs node member)
              ⟨same.1.trans before.data, same.2.trans before.source⟩)
            returned (fun node member => present node (.tail _ member))
          refine ⟨?_, ?_⟩
          · intro node member
            rcases List.mem_cons.mp member with rfl | below
            · have same := others node.name differs
              exact ⟨same.1.trans here.data, same.2.trans here.source⟩
            · exact later node below
          · intro other absent
            have same := others other
              (fun node member => absent node (.tail _ member))
            have before := elsewhere other (fun equal => absent startNode (by simp) equal.symm)
            exact ⟨same.1.trans before.1, same.2.trans before.2⟩

theorem recreateNodeExecutionStack_waiting (distinct : startNodes.Nodup)
    (returned
      : recreateNodeExecutionStack localeCompare graph runData pinData startNodes = .ok final)
    : (∀ startNode ∈ startNodes, final.HasGroups runData startNode.name
        (waitingGroups localeCompare graph runData pinData startNode))
      ∧ ∀ other, (∀ startNode ∈ startNodes, startNode.name ≠ other)
        → final.HasGroups runData other [] := by
  unfold recreateNodeExecutionStack at returned
  cases enabled : graph.nodes.values.forM (fun node =>
      if node.disabled then
        (throw (.assertion (some (disabledMessage node))) : Except JsError PUnit)
      else pure ⟨⟩) with
  | error error =>
      rw [enabled] at returned
      contradiction
  | ok _ =>
      rw [enabled] at returned
      have start : ∀ name, (⟨[], .empty, .empty⟩ : Recreated Item).HasGroups runData name [] :=
        fun name => ⟨rfl, rfl⟩
      obtain ⟨all, others⟩ := recreateStartNodes_waiting distinct
        (fun startNode _ => start startNode.name) returned
      refine ⟨all, fun other absent => ?_⟩
      have same := others other absent
      exact ⟨same.1.trans (start other).data, same.2.trans (start other).source⟩

end Recreation

end N8n.PartialExecution
