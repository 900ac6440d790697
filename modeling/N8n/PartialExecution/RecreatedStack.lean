import N8n.PartialExecution.GraphSearches
import N8n.PartialExecution.IncomingData

/-! The entries of the stack that `recreateNodeExecutionStack` returns: where they hold what
the connections of a complete group carry.
-/

namespace N8n.PartialExecution

variable {Item : Type}

/-! ### What a connection carries -/

/-- The items of a run at an output. -/
def itemsAt (run : ITaskData Item) (type : NodeConnectionType) (outputIndex : Nat)
    : List Item :=
  match run.data.bind (fun data => data.get? type) with
  | none => []
  | some outputs =>
      match Slot.read outputs outputIndex with
      | .value items => items
      | _ => []

/-- The items of the first of the runs that has any at the output. -/
def firstItems (runs : List (ITaskData Item)) (type : NodeConnectionType) (outputIndex : Nat)
    : Option (IncomingData Item) :=
  (List.range runs.length).findSome? (fun runIndex =>
    match (runs[runIndex]?.map (fun run => itemsAt run type outputIndex)).getD [] with
    | [] => none
    | item :: items => some ⟨item :: items, runIndex⟩)

/-- The pinned items of the source, else the first recorded ones. -/
def carried (runData : IRunData Item) (pinData : IPinData Item) (connection : GraphConnection)
    : Option (IncomingData Item) :=
  match pinData.get? connection.fromNode.name with
  | some items => some ⟨items, 0⟩
  | none => firstItems (runsOf runData connection.fromNode.name) connection.type
      connection.outputIndex

/-- The record of the source, its output and the run of the items. -/
def carriedSource (runData : IRunData Item) (pinData : IPinData Item)
    (connection : GraphConnection)
    : ISourceData where
  previousNode := connection.fromNode.name
  previousNodeOutput := some connection.outputIndex
  previousNodeRun := some ((carried runData pinData connection).elim 0 IncomingData.runIndex)

variable {runData : IRunData Item} {pinData : IPinData Item}

variable {nodeName : String} {outputIndex : Nat} {type : NodeConnectionType}

theorem getIncomingData_items {runIndex : Nat} {result : Option (List Item)}
    (read : getIncomingData runData nodeName runIndex type outputIndex = .ok result)
    : result.getD []
      = ((runsOf runData nodeName)[runIndex]?.map (fun run => itemsAt run type outputIndex)).getD
          [] := by
  rw [getIncomingData_eq] at read
  cases found : (runsOf runData nodeName)[runIndex]? with
  | none =>
      simp only [found, Option.bind_none, Except.ok.injEq] at read
      simp [← read]
  | some run =>
      cases data : run.data with
      | none =>
          simp only [found, Option.bind_some, data, Except.ok.injEq] at read
          simp [← read, itemsAt, data]
      | some data' =>
          cases outputs : data'.get? type with
          | none => simp [found, data, outputs] at read
          | some slots =>
              simp only [found, data, outputs, Option.bind_some] at read
              simp only [itemsAt, data, outputs, Option.map_some, Option.bind_some,
                Option.getD_some]
              cases slot : Slot.read slots outputIndex with
              | _ =>
                  rw [slot] at read
                  cases read
                  rfl

variable {result : Option (IncomingData Item)}

/-- The loop over the runs answers the first items, by induction on the runs left. -/
theorem findIncomingData_eq {indexes : List Nat}
    (found : findIncomingData runData nodeName type outputIndex indexes = .ok result)
    : result
      = indexes.findSome? (fun runIndex =>
          match ((runsOf runData nodeName)[runIndex]?.map (fun run =>
            itemsAt run type outputIndex)).getD [] with
          | [] => none
          | item :: items => some ⟨item :: items, runIndex⟩) := by
  induction indexes with
  | nil => exact (Except.ok.inj found).symm
  | cons index rest ih =>
      unfold findIncomingData at found
      obtain ⟨incoming, read, found⟩ := Exec.ok_of_bind found
      rw [List.findSome?_cons, ← getIncomingData_items read]
      cases incoming with
      | none => exact ih found
      | some items =>
          cases items with
          | nil => exact ih found
          | cons item items => exact (Except.ok.inj found).symm

theorem getIncomingDataFromAnyRun_eq
    (found : getIncomingDataFromAnyRun runData nodeName type outputIndex = .ok result)
    : result = firstItems (runsOf runData nodeName) type outputIndex := by
  have all : (runData.get? nodeName).elim 0 List.length = (runsOf runData nodeName).length := by
    unfold runsOf
    cases runData.get? nodeName <;> rfl
  unfold getIncomingDataFromAnyRun at found
  rw [all] at found
  exact findIncomingData_eq found

variable {connection : GraphConnection}

variable {startNode : INode} {incoming : List (Slot (List Item)) × List (Slot ISourceData)}

/-- The items go behind the others, if there are any, and the source in any case. -/
theorem addIncomingData_eq {result : List (Slot (List Item)) × List (Slot ISourceData)}
    (added : addIncomingData runData pinData startNode incoming connection = .ok result)
    : result
      = (incoming.1 ++ ((carried runData pinData connection).map
            (fun found => Slot.value found.data)).toList,
          incoming.2 ++ [.value (carriedSource runData pinData connection)]) := by
  unfold addIncomingData at added
  unfold carriedSource carried
  cases pinned : pinData.get? connection.fromNode.name with
  | some items =>
      simp only [pinned] at added
      exact (Except.ok.inj added).symm
  | none =>
      simp only [pinned] at added
      split at added
      · contradiction
      · obtain ⟨found, read, added⟩ := Exec.ok_of_bind added
        rw [← getIncomingDataFromAnyRun_eq read]
        cases found with
        | none =>
            cases added
            simp
        | some found => exact (Except.ok.inj added).symm

variable {connections : List GraphConnection}

theorem addIncomingData_all {result : List (Slot (List Item)) × List (Slot ISourceData)}
    (added
      : connections.foldlM (addIncomingData runData pinData startNode) incoming = .ok result)
    : result
      = (incoming.1 ++ connections.filterMap (fun connection =>
            (carried runData pinData connection).map (fun found => Slot.value found.data)),
          incoming.2 ++ connections.map (fun connection =>
            .value (carriedSource runData pinData connection))) := by
  induction connections generalizing incoming with
  | nil =>
      cases added
      simp
  | cons connection rest ih =>
      rw [List.foldlM_cons] at added
      obtain ⟨next, first, added⟩ := Exec.ok_of_bind added
      rw [ih added, addIncomingData_eq first]
      cases arrived : carried runData pinData connection <;> simp [arrived]

/-! ### Slots of one entry -/

/-- What arrives at the main inputs. -/
def mainData (entry : IExecuteData Item) : List (Slot (List Item)) :=
  (entry.data.get? .main).getD []

def mainSource (entry : IExecuteData Item) : List (Slot ISourceData) :=
  (entry.source.bind (fun source => source.get? .main)).getD []

/-- The entry holds the items and the source of each connection at the input that the
connection enters, and no items elsewhere.
-/
structure HoldsGroup (runData : IRunData Item) (pinData : IPinData Item)
    (connections : List GraphConnection) (entry : IExecuteData Item)
    : Prop where
  data : ∀ connection ∈ connections,
    Slot.read (mainData entry) connection.inputIndex
      = (carried runData pinData connection).elim .undefined (fun found => .value found.data)
  source : ∀ connection ∈ connections,
    Slot.read (mainSource entry) connection.inputIndex
      = .value (carriedSource runData pinData connection)
  others : ∀ index, (∀ connection ∈ connections, connection.inputIndex ≠ index)
    → ∀ items, Slot.read (mainData entry) index = .value items → items = []

/-- The connections enter the inputs from the first one on, and those that carry nothing come
behind those that carry something.
-/
def Fits (runData : IRunData Item) (pinData : IPinData Item)
    (connections : List GraphConnection)
    : Prop :=
  (∃ connection ∈ connections, connection.inputIndex = 0)
  ∧ ∀ first ∈ connections, ∀ second ∈ connections,
      first.inputIndex < second.inputIndex
        → carried runData pinData first = none → carried runData pinData second = none

variable {α : Type}

variable {items : List α}

/-- Leaving out what is missing keeps the places if all that is missing comes last. -/
theorem getElem?_filterMap_of_last {β : Type} {f : α → Option β}
    (last : items.Pairwise (fun first second => f first = none → f second = none)) (index : Nat)
    : (items.filterMap f)[index]? = items[index]?.bind f := by
  induction items generalizing index with
  | nil => simp
  | cons item rest ih =>
      obtain ⟨behind, later⟩ := List.pairwise_cons.mp last
      cases here : f item with
      | none =>
          have none : rest.filterMap f = [] :=
            List.filterMap_eq_nil_iff.mpr (fun other member => behind other member here)
          rw [List.filterMap_cons_none here, none]
          cases index with
          | zero => simp [here]
          | succ index =>
              have := ih later index
              rw [none] at this
              simpa using this
      | some value =>
          rw [List.filterMap_cons_some here]
          cases index with
          | zero => simp [here]
          | succ index => simpa using ih later index

/-- The entry that is made for a complete group. -/
def groupEntry (runData : IRunData Item) (pinData : IPinData Item) (startNode : INode)
    (connections : List GraphConnection)
    : IExecuteData Item :=
  stackItem startNode
    (connections.filterMap (fun connection =>
      (carried runData pinData connection).map (fun found => Slot.value found.data)))
    (some (connections.map (fun connection =>
      .value (carriedSource runData pinData connection))))

variable {startNode : INode} {connections : List GraphConnection}

theorem groupEntry_mainData
    : mainData (groupEntry runData pinData startNode connections)
      = connections.filterMap (fun connection =>
          (carried runData pinData connection).map (fun found => Slot.value found.data)) := by
  simp [mainData, groupEntry, stackItem]

theorem groupEntry_mainSource
    : mainSource (groupEntry runData pinData startNode connections)
      = connections.map (fun connection =>
          .value (carriedSource runData pinData connection)) := by
  simp [mainSource, groupEntry, stackItem]

/-- The connections of a group enter consecutive inputs. -/
def Consecutive (first : Nat) (connections : List GraphConnection) : Prop :=
  connections.map GraphConnection.inputIndex = List.range' first connections.length

variable {first : Nat}

variable {index : Nat}

theorem Consecutive.inputIndex_eq (consecutive : Consecutive first connections)
    (here : connections[index]? = some connection)
    : connection.inputIndex = first + index := by
  obtain ⟨inside, _⟩ := List.getElem?_eq_some_iff.mp here
  have place := congrArg (fun indexes => indexes[index]?) consecutive
  simp only [List.getElem?_map, here, Option.map_some, List.getElem?_range' inside] at place
  rw [Option.some.inj place]
  omega

theorem read_eq (slots : List (Slot α)) (index : Nat)
    : Slot.read slots index = slots[index]?.getD .undefined := by
  rw [Slot.read, List.getD_eq_getElem?_getD]

/-- Where nothing is read, the items have come to their end: there are no holes. -/
theorem length_le_of_undefined (undefined : (connections.filterMap (fun connection =>
        (carried runData pinData connection).map (fun found => Slot.value found.data)))[index]?.getD
          .undefined = .undefined)
    : (connections.filterMap (fun connection =>
        (carried runData pinData connection).map (fun found => Slot.value found.data))).length
      ≤ index := by
  by_contra inside
  rw [List.getElem?_eq_getElem (Nat.lt_of_not_le inside), Option.getD_some] at undefined
  have member := List.getElem_mem (Nat.lt_of_not_le inside)
  rw [undefined] at member
  obtain ⟨connection, _, arrived⟩ := List.mem_filterMap.mp member
  obtain ⟨found, _, isValue⟩ := Option.map_eq_some_iff.mp arrived
  contradiction

section

variable (consecutive : Consecutive first connections)

include consecutive

/-- A group whose sources are at their inputs starts at the first input: otherwise the input
of the last connection is beyond them.
-/
theorem HoldsGroup.first_eq (notEmpty : connections ≠ [])
    (holds : HoldsGroup runData pinData connections
      (groupEntry runData pinData startNode connections))
    : first = 0 := by
  have last : connections[connections.length - 1]? = some (connections.getLast notEmpty) := by
    rw [← List.getLast?_eq_getElem?, List.getLast?_eq_some_getLast notEmpty]
  have source := holds.source _ (List.getLast_mem notEmpty)
  rw [groupEntry_mainSource, consecutive.inputIndex_eq last, read_eq] at source
  by_contra later
  rw [List.getElem?_eq_none (by simp; omega)] at source
  contradiction

/-- The entry of a group holds what it should exactly if the group fits. -/
theorem holdsGroup_iff (notEmpty : connections ≠ [])
    : HoldsGroup runData pinData connections
        (groupEntry runData pinData startNode connections)
      ↔ Fits runData pinData connections := by
  constructor
  · intro holds
    obtain rfl := holds.first_eq consecutive notEmpty
    refine ⟨⟨connections.head notEmpty, List.head_mem notEmpty, ?_⟩, ?_⟩
    · exact consecutive.inputIndex_eq (by
        rw [← List.head?_eq_getElem?, List.head?_eq_some_head notEmpty])
    · intro one oneMember other otherMember before missing
      have oneSlot := holds.data one oneMember
      have otherSlot := holds.data other otherMember
      rw [groupEntry_mainData, read_eq] at oneSlot otherSlot
      rw [missing] at oneSlot
      have beyond := length_le_of_undefined oneSlot
      rw [List.getElem?_eq_none (by omega)] at otherSlot
      cases arrived : carried runData pinData other with
      | none => rfl
      | some found =>
          rw [arrived] at otherSlot
          contradiction
  · rintro ⟨⟨connection, member, atFirst⟩, order⟩
    obtain ⟨index, here⟩ := List.mem_iff_getElem?.mp member
    have zero : first = 0 := by
      have := consecutive.inputIndex_eq here
      omega
    subst zero
    have last : connections.Pairwise (fun one other =>
        (carried runData pinData one).map (fun found => Slot.value found.data) = none
        → (carried runData pinData other).map (fun found => Slot.value found.data) = none) := by
      rw [List.pairwise_iff_getElem]
      intro one other oneInside otherInside before missing
      rw [Option.map_eq_none_iff] at missing ⊢
      refine order _ (List.getElem_mem oneInside) _ (List.getElem_mem otherInside) ?_ missing
      rw [consecutive.inputIndex_eq (List.getElem?_eq_getElem oneInside),
        consecutive.inputIndex_eq (List.getElem?_eq_getElem otherInside)]
      omega
    have atPlace (connection : GraphConnection) (member : connection ∈ connections)
        : connections[connection.inputIndex]? = some connection := by
      obtain ⟨index, here⟩ := List.mem_iff_getElem?.mp member
      rw [consecutive.inputIndex_eq here, Nat.zero_add]
      exact here
    refine ⟨?_, ?_, ?_⟩
    · intro connection member
      rw [groupEntry_mainData, read_eq, getElem?_filterMap_of_last last,
        atPlace connection member]
      cases arrived : carried runData pinData connection <;> simp [arrived]
    · intro connection member
      rw [groupEntry_mainSource, read_eq, List.getElem?_map, atPlace connection member]
      rfl
    · intro index none items holds
      rw [groupEntry_mainData, read_eq, getElem?_filterMap_of_last last] at holds
      cases here : connections[index]? with
      | none =>
          rw [here] at holds
          contradiction
      | some connection =>
          have place := consecutive.inputIndex_eq here
          rw [Nat.zero_add] at place
          exact absurd place (none connection (List.mem_of_getElem? here))

/-! ### Groups -/

theorem Consecutive.append (next : connection.inputIndex = first + connections.length)
    : Consecutive first (connections ++ [connection]) := by
  rw [Consecutive, List.map_append, consecutive, List.length_append, List.length_singleton,
    List.range'_concat, List.map_singleton, next, Nat.one_mul]

end

/-- The lowest input index is that of one of the connections. -/
theorem exists_at_lowest (notEmpty : connections ≠ [])
    : ∃ connection ∈ connections,
        (connection.inputIndex : Int) = beforeLowest connections + 1 := by
  cases connections with
  | nil => contradiction
  | cons head rest =>
      have reached : ∀ (lowest : Int),
          rest.foldl (fun lowest other => min lowest other.inputIndex) lowest = lowest
          ∨ ∃ connection ∈ rest,
              (connection.inputIndex : Int)
                = rest.foldl (fun lowest other => min lowest other.inputIndex) lowest := by
        clear notEmpty
        induction rest with
        | nil => simp
        | cons next rest ih =>
            intro lowest
            rw [List.foldl_cons]
            rcases ih (min lowest next.inputIndex) with same | ⟨connection, member, isLowest⟩
            · rw [same]
              rcases min_choice lowest (next.inputIndex : Int) with isOld | isNext
              · exact .inl isOld
              · exact .inr ⟨next, (.head _), isNext.symm⟩
            · exact .inr ⟨connection, List.mem_cons_of_mem next member, isLowest⟩
      simp only [beforeLowest]
      rcases reached head.inputIndex with same | ⟨connection, member, isLowest⟩
      · exact ⟨head, (.head _), by omega⟩
      · exact ⟨connection, List.mem_cons_of_mem head member, by omega⟩

/-- Between turns of the loop, the open group is empty and the next turn finds a connection for
it, or it has taken connections up to the current input index.
-/
def Grouping (fuel : Nat) (withData withoutData : List GraphConnection)
    (currentGroup : SourceConnectionGroup) (currentInputIndex : Int)
    : Prop :=
  (currentGroup.connections = [] ∧ withData ++ withoutData ≠ []
    ∧ currentInputIndex = beforeLowest (withData ++ withoutData)
    ∧ 2 * (withData.length + withoutData.length) ≤ fuel)
  ∨ ∃ first : Nat,
      currentGroup.connections ≠ [] ∧ Consecutive first currentGroup.connections
      ∧ currentInputIndex = first + currentGroup.connections.length - 1
      ∧ 2 * (withData.length + withoutData.length) + 1 ≤ fuel

variable {fuel : Nat} {withData withoutData : List GraphConnection}
  {currentGroup : SourceConnectionGroup} {currentInputIndex : Int}

/-- Taking a connection at the next input index keeps the open group consecutive. -/
theorem Grouping.take {lessData lessWithout : List GraphConnection}
    (grouping : Grouping (fuel + 1) withData withoutData currentGroup currentInputIndex)
    (complete : Bool) (next : (connection.inputIndex : Int) = currentInputIndex + 1)
    (fewer : lessData.length + lessWithout.length + 1 = withData.length + withoutData.length)
    : Grouping fuel lessData lessWithout
        ⟨complete, currentGroup.connections ++ [connection]⟩ (currentInputIndex + 1) := by
  rcases grouping with ⟨isEmpty, _, _, enough⟩ | ⟨first, notEmpty, consecutive, index, enough⟩
  · refine .inr ⟨connection.inputIndex, by simp, ?_, ?_, by omega⟩
    · simp [isEmpty, Consecutive]
    · simp only [isEmpty, List.nil_append, List.length_singleton]
      omega
  · refine .inr ⟨first, by simp, consecutive.append (by omega), ?_, by omega⟩
    rw [List.length_append, List.length_singleton]
    omega

theorem length_eraseP_of_find? {p : α → Bool} {item : α} (found : items.find? p = some item)
    : p item = true ∧ (items.eraseP p).length + 1 = items.length :=
  ⟨List.find?_some found,
    List.length_eraseP_add_one (List.mem_of_find?_eq_some found) (List.find?_some found)⟩

/-- Every group has connections, into consecutive inputs, by induction on the fuel. -/
theorem groupConnections_consecutive
    (grouping : Grouping fuel withData withoutData currentGroup currentInputIndex)
    : ∀ group ∈ groupConnections fuel withData withoutData currentGroup currentInputIndex,
        group.connections ≠ [] ∧ ∃ first, Consecutive first group.connections := by
  induction fuel generalizing withData withoutData currentGroup currentInputIndex with
  | zero =>
      rcases grouping with ⟨_, present, _, enough⟩ | ⟨_, _, _, _, enough⟩
      · have lengths := List.length_pos_of_ne_nil present
        rw [List.length_append] at lengths
        omega
      · omega
  | succ fuel ih =>
      rw [groupConnections]
      split
      case isTrue done =>
        obtain ⟨rfl, rfl⟩ : withData = [] ∧ withoutData = [] := by simpa using done
        intro group member
        obtain rfl := List.mem_singleton.mp member
        rcases grouping with ⟨_, present, _, _⟩ | ⟨first, notEmpty, consecutive, _, _⟩
        · exact absurd rfl present
        · exact ⟨notEmpty, first, consecutive⟩
      case isFalse more =>
        simp only
        split
        case h_1 connection found =>
          obtain ⟨atIndex, fewer⟩ := length_eraseP_of_find? found
          apply ih (grouping.take currentGroup.complete (by simpa using atIndex) ?_)
          omega
        case h_2 noData =>
          split
          case h_1 connection found =>
            obtain ⟨atIndex, fewer⟩ := length_eraseP_of_find? found
            apply ih (grouping.take false (by simpa using atIndex) ?_)
            omega
          case h_2 none =>
            have present : withData ++ withoutData ≠ [] := by simpa using more
            rcases grouping with ⟨_, _, isLowest, _⟩ | ⟨first, notEmpty, consecutive, _, enough⟩
            · obtain ⟨connection, member, lowest⟩ := exists_at_lowest present
              rw [← isLowest] at lowest
              rw [List.find?_eq_none] at noData none
              rcases List.mem_append.mp member with inData | inWithout
              · exact absurd (noData connection inData) (by simp [lowest])
              · exact absurd (none connection inWithout) (by simp [lowest])
            · intro group member
              rcases List.mem_cons.mp member with rfl | later
              · exact ⟨notEmpty, first, consecutive⟩
              · exact ih (.inl ⟨rfl, present, rfl, by omega⟩) group later

variable {group : SourceConnectionGroup}

theorem getSourceDataGroups_consecutive {localeCompare : String → String → Int}
    {graph : DirectedGraph} {node : INode}
    (member : group ∈ getSourceDataGroups localeCompare graph node runData pinData)
    : group.connections ≠ [] ∧ ∃ first, Consecutive first group.connections := by
  unfold getSourceDataGroups at member
  simp only at member
  split at member
  · simp at member
  case isFalse present =>
    rw [Bool.and_eq_true, List.isEmpty_iff, List.isEmpty_iff] at present
    have sorted (connections : List GraphConnection)
        : (sortConnections localeCompare connections).length = connections.length :=
      List.length_insertionSort _ _
    refine groupConnections_consecutive (.inl ⟨rfl, ?_, rfl, ?_⟩) group member
    · intro none
      have lengths := congrArg List.length none
      rw [List.length_append, sorted, sorted, List.length_nil, Nat.add_eq_zero_iff,
        List.length_eq_zero_iff, List.length_eq_zero_iff] at lengths
      exact present lengths
    · rw [sorted, sorted]
      omega

/-! ### The whole stack -/

variable {result recreated : Recreated Item}

theorem addToWaiting_stack {nextRunIndex : Nat}
    (added : addToWaiting runData nodeName nextRunIndex recreated connection = .ok result)
    : result.nodeExecutionStack = recreated.nodeExecutionStack := by
  obtain ⟨found, _, added⟩ := Exec.ok_of_bind added
  cases found with
  | none | some => exact (Except.ok.inj added) ▸ rfl

/-- A loop whose turns append to the stack appends what all of them do. -/
theorem foldlM_stack {ι : Type} {step : Recreated Item → ι → Except JsError (Recreated Item)}
    {entries : ι → List (IExecuteData Item)} {items : List ι}
    (steps : ∀ before item after, step before item = .ok after
      → after.nodeExecutionStack = before.nodeExecutionStack ++ entries item)
    (ran : items.foldlM step recreated = .ok result)
    : result.nodeExecutionStack
      = recreated.nodeExecutionStack ++ (items.map entries).flatten := by
  induction items generalizing recreated with
  | nil =>
      cases ran
      simp
  | cons item rest ih =>
      rw [List.foldlM_cons] at ran
      obtain ⟨next, first, ran⟩ := Exec.ok_of_bind ran
      rw [ih ran, steps _ _ _ first]
      simp

/-- What a group adds to the stack. -/
def groupEntries (runData : IRunData Item) (pinData : IPinData Item) (startNode : INode)
    (group : SourceConnectionGroup)
    : List (IExecuteData Item) :=
  if group.complete then [groupEntry runData pinData startNode group.connections] else []

theorem recreateGroup_stack
    (ran : recreateGroup runData pinData startNode recreated group = .ok result)
    : result.nodeExecutionStack
      = recreated.nodeExecutionStack ++ groupEntries runData pinData startNode group := by
  unfold recreateGroup at ran
  unfold groupEntries
  cases complete : group.complete with
  | true =>
      simp only [complete, if_true] at ran ⊢
      obtain ⟨incoming, arrived, ran⟩ := Exec.ok_of_bind ran
      obtain rfl := addIncomingData_all arrived
      exact (Except.ok.inj ran) ▸ rfl
  | false =>
      simp only [complete, Bool.false_eq_true, if_false] at ran ⊢
      have kept (before : Recreated Item) (connection : GraphConnection)
          (after : Recreated Item)
          (added : addToWaiting runData startNode.name
            ((recreated.waitingExecution.get? startNode.name).elim 0
              (fun runs => runs.keys.length)) before connection = .ok after)
          : after.nodeExecutionStack = before.nodeExecutionStack ++ [] := by
        rw [List.append_nil, addToWaiting_stack added]
      rw [foldlM_stack kept ran]
      simp

theorem groupEntries_flatten (groups : List SourceConnectionGroup)
    : (groups.map (groupEntries runData pinData startNode)).flatten
      = (groups.filter SourceConnectionGroup.complete).map (fun group =>
          groupEntry runData pinData startNode group.connections) := by
  induction groups with
  | nil => rfl
  | cons group rest ih =>
      rw [List.map_cons, List.flatten_cons, ih, groupEntries]
      cases complete : group.complete <;> simp [complete]

section Stack

variable [Inhabited Item] (localeCompare : String → String → Int) (graph : DirectedGraph)
variable (runData : IRunData Item) (pinData : IPinData Item)

def hasMainParents (startNode : INode) : Bool :=
  (graph.connectionsInto startNode).any (fun connection => connection.type = .main)

/-- The complete groups that a start node is put on the stack for. -/
def completeGroups (startNode : INode) : List SourceConnectionGroup :=
  (getSourceDataGroups localeCompare graph startNode runData pinData).filter
    SourceConnectionGroup.complete

/-- The entries that a start node is put on the stack with: one for each complete group, or a
single one if nothing leads to the node.
-/
def startEntries (startNode : INode) : List (IExecuteData Item) :=
  if hasMainParents graph startNode then
    (completeGroups localeCompare graph runData pinData startNode).map (fun group =>
      groupEntry runData pinData startNode group.connections)
  else [stackItem startNode [.value [default]] none]

variable {localeCompare graph runData pinData}

theorem recreateStartNode_stack
    (ran : recreateStartNode localeCompare graph runData pinData recreated startNode = .ok result)
    : result.nodeExecutionStack
      = recreated.nodeExecutionStack
        ++ startEntries localeCompare graph runData pinData startNode := by
  obtain ⟨parents, found, ran⟩ := Exec.ok_of_bind ran
  obtain ⟨_, _, same⟩ := Exec.ok_of_bind found
  cases same
  have isEmpty : ((graph.connectionsInto startNode).filter (fun connection =>
      connection.type = .main)).isEmpty = !hasMainParents graph startNode := by
    rw [Bool.eq_iff_iff]
    simp [hasMainParents, List.filter_eq_nil_iff]
  simp only [DirectedGraph.connectionsInto] at isEmpty
  rw [isEmpty] at ran
  unfold startEntries
  cases hasParents : hasMainParents graph startNode with
  | false =>
      simp only [hasParents, Bool.not_false, if_true] at ran
      exact (Except.ok.inj ran) ▸ rfl
  | true =>
      simp only [hasParents, Bool.not_true, Bool.false_eq_true, if_false] at ran
      rw [foldlM_stack (fun _ _ _ => recreateGroup_stack) ran, completeGroups]
      rw [groupEntries_flatten]
      rfl

variable {startNodes : List INode}

theorem recreateNodeExecutionStack_stack
    (ran : recreateNodeExecutionStack localeCompare graph runData pinData startNodes = .ok result)
    : result.nodeExecutionStack
      = (startNodes.map (startEntries localeCompare graph runData pinData)).flatten := by
  obtain ⟨_, _, ran⟩ := Exec.ok_of_bind ran
  exact foldlM_stack (fun _ _ _ => recreateStartNode_stack) ran

variable (localeCompare graph runData pinData) in
/-- The entries that a start node is put on the stack with hold its complete groups, one each.
-/
def HoldsStart (startNode : INode) (entries : List (IExecuteData Item)) : Prop :=
  if hasMainParents graph startNode then
    List.Forall₂
      (fun group entry =>
        entry.node = some startNode ∧ HoldsGroup runData pinData group.connections entry)
      (completeGroups localeCompare graph runData pinData startNode) entries
  else entries.length = 1

theorem holdsStart_iff
    : HoldsStart localeCompare graph runData pinData startNode
        (startEntries localeCompare graph runData pinData startNode)
      ↔ (hasMainParents graph startNode = true
          → ∀ group ∈ completeGroups localeCompare graph runData pinData startNode,
              Fits runData pinData group.connections) := by
  unfold HoldsStart startEntries
  cases hasParents : hasMainParents graph startNode with
  | false => simp
  | true =>
      simp only [if_true, List.forall₂_map_right_iff, List.forall₂_same, true_implies]
      refine forall_congr' fun group => forall_congr' fun member => ?_
      obtain ⟨notEmpty, first, consecutive⟩ :=
        getSourceDataGroups_consecutive (List.mem_filter.mp member).1
      rw [holdsGroup_iff consecutive notEmpty]
      exact and_iff_right rfl

theorem HoldsStart.length_eq {entries : List (IExecuteData Item)}
    (holds : HoldsStart localeCompare graph runData pinData startNode entries)
    : entries.length = (startEntries localeCompare graph runData pinData startNode).length := by
  unfold HoldsStart at holds
  unfold startEntries
  cases hasParents : hasMainParents graph startNode with
  | false => simpa [hasParents] using holds
  | true =>
      simp only [hasParents, if_true] at holds
      simp [holds.length_eq]

theorem lengths_eq_of_holdsStart {entries : List (List (IExecuteData Item))}
    (holds
      : List.Forall₂ (HoldsStart localeCompare graph runData pinData) startNodes entries)
    : entries.map List.length
      = (startNodes.map (startEntries localeCompare graph runData pinData)).map List.length := by
  induction holds with
  | nil => rfl
  | cons first _ ih =>
      rw [List.map_cons, List.map_cons, List.map_cons, ih, first.length_eq]

end Stack

/-- Names in the order of their code units. -/
def byCodeUnits (first second : String) : Int :=
  if first < second then -1 else if second < first then 1 else 0

/-- `Merge` with a connection from each of the nodes, into these inputs. -/
def mergeOf (inputs : List (INode × Nat)) : DirectedGraph where
  nodes := Dict.empty.insertAll INode.name
    (⟨"0", "Merge", "merge", false⟩ :: inputs.map Prod.fst)
  connections := Dict.empty.insertAll makeKey
    (inputs.map (fun (node, inputIndex) =>
      ⟨node, ⟨"0", "Merge", "merge", false⟩, .main, 0, inputIndex⟩))

/-- Each of the nodes has run once and put out one item. -/
def putOut (items : List (String × Nat)) : IRunData Nat :=
  items.foldl
    (fun runData (nodeName, item) =>
      runData.set nodeName [⟨some (Dict.empty.set .main [.value [item]])⟩])
    .empty

end N8n.PartialExecution
