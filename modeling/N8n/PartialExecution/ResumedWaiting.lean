import N8n.Engine.Arrival
import N8n.Library.Runs
import N8n.PartialExecution.RecreatedWaiting

/-! Deliveries after a partial execution has recreated the waiting area. A recreated entry
is an array with holes, and the test for missing data only knows `null`. So an entry that
lacks data at two connected inputs is pushed when the first of them arrives.
-/

namespace N8n.PartialExecution

open Engine ExecutionData Runs

variable {Item : Type}

/-- What stands at a main input of an entry. -/
def mainSlot {α : Type} (entry : Dict NodeConnectionType (List (Slot α))) (inputIndex : Nat)
    : Slot α :=
  Slot.read ((entry.get? .main).getD []) inputIndex

def Recreated.toExecutionData (recreated : Recreated Item) : ExecutionData Item where
  nodeExecutionStack := recreated.nodeExecutionStack
  waitingExecution := recreated.waitingExecution
  waitingExecutionSource := some recreated.waitingExecutionSource

/-- A call brings data or `null` to a connected main input. -/
def Arrives (workflow : Workflow) (delivery : Delivery Item) : Prop :=
  workflow.ConnectedInput delivery.connectionData.node delivery.connectionData.index
  ∧ delivery.batch.isDefined = true

instance (workflow : Workflow) (delivery : Delivery Item)
    : Decidable (Arrives workflow delivery) :=
  inferInstanceAs (Decidable (_ ∧ _))

/-- The item has data at each connected main input of the node. -/
def Complete (workflow : Workflow) (nodeName : String) (item : IExecuteData Item) : Prop :=
  ∀ inputIndex, workflow.ConnectedInput nodeName inputIndex
    → ∃ batch, mainSlot item.data inputIndex = .value batch

/-- The effects of a call stay when it throws. -/
def resume [Inhabited Item] (workflow : Workflow) (state : ExecutionData Item)
    (call : Call Item)
    : Option (ExecutionData Item) :=
  if Arrives workflow call.delivery then
    some ((addNodeToBeExecuted workflow call.runData call.delivery).after state)
  else none

/-- An item that the call pushes for a node with several inputs is complete. -/
def PushesComplete [Inhabited Item] (workflow : Workflow) (state : ExecutionData Item)
    (call : Call Item)
    : Prop :=
  1 < (workflow.mainInputs call.delivery.connectionData.node).length
  → ∀ item,
      ((addNodeToBeExecuted workflow call.runData call.delivery).after
          state).nodeExecutionStack
        = item :: state.nodeExecutionStack
      → Complete workflow call.delivery.connectionData.node item

/-- The group has run data for the main input. -/
def Feeds (runData : IRunData Item) (connections : List GraphConnection) (inputIndex : Nat)
    : Prop :=
  ∃ item ∈ fed runData connections, item.1.type = .main ∧ item.1.inputIndex = inputIndex

/-- The group has run data for some main input, so its entry has a `main` array. -/
def feedsMain (runData : IRunData Item) (connections : List GraphConnection) : Bool :=
  (fed runData connections).any (fun item => item.1.type = .main)

/-- Of two connected inputs, the group has run data for one at least. -/
def LacksAtMostOne (workflow : Workflow) (nodeName : String) (runData : IRunData Item)
    (connections : List GraphConnection)
    : Prop :=
  ∀ first second, workflow.ConnectedInput nodeName first
    → workflow.ConnectedInput nodeName second → first ≠ second
    → Feeds runData connections first ∨ Feeds runData connections second

/-! ### Recreated entries -/

section FillEntry

variable {α β : Type} (place : β → GraphConnection) (value : β → α)

theorem fillEntry_append (entry : Dict NodeConnectionType (List (Slot α))) (items : List β)
    (item : β)
    : fillEntry place value entry (items ++ [item])
      = (fillEntry place value entry items).set (place item).type
          (Slot.write
            (((fillEntry place value entry items).get? (place item).type).getD [])
            (place item).inputIndex (.value (value item))) := by
  simp [fillEntry, List.foldl_append]

theorem main_fillEntry (items : List β)
    : ((fillEntry place value .empty items).get? .main).isSome
      = items.any (fun item => (place item).type = .main) := by
  induction items using List.reverseRecOn with
  | nil => rfl
  | append_singleton items item ih =>
      rw [fillEntry_append, Dict.get?_set, List.any_append, ← ih]
      by_cases main : (place item).type = .main
      · simp [main]
      · simp [main, Ne.symm main]

/-- A slot of a filled entry is a value if some item goes there, and a hole otherwise. -/
theorem mainSlot_fillEntry (items : List β) (inputIndex : Nat)
    : if ∃ item ∈ items, (place item).type = .main ∧ (place item).inputIndex = inputIndex then
        ∃ a, mainSlot (fillEntry place value .empty items) inputIndex = .value a
      else mainSlot (fillEntry place value .empty items) inputIndex = .undefined := by
  induction items using List.reverseRecOn with
  | nil => simp [mainSlot, fillEntry, Slot.read]
  | append_singleton items item ih =>
      by_cases main : (place item).type = .main
      · have read : mainSlot (fillEntry place value .empty (items ++ [item])) inputIndex
            = if inputIndex = (place item).inputIndex then .value (value item)
              else mainSlot (fillEntry place value .empty items) inputIndex := by
          rw [fillEntry_append, mainSlot, main, Dict.get?_set_self, Option.getD_some,
            Slot.read_write]
          rfl
        rw [read]
        by_cases here : inputIndex = (place item).inputIndex
        · rw [if_pos ⟨item, by simp, main, here.symm⟩, if_pos here]
          exact ⟨value item, rfl⟩
        · rw [if_neg here]
          have same : (∃ other ∈ items ++ [item],
                (place other).type = .main ∧ (place other).inputIndex = inputIndex)
              ↔ ∃ other ∈ items,
                (place other).type = .main ∧ (place other).inputIndex = inputIndex := by
            constructor
            · intro found
              obtain ⟨other, member, type, index⟩ := found
              rcases List.mem_append.mp member with old | new
              · exact ⟨other, old, type, index⟩
              · obtain rfl := List.mem_singleton.mp new
                exact absurd index.symm here
            · intro found
              obtain ⟨other, member, facts⟩ := found
              exact ⟨other, List.mem_append_left _ member, facts⟩
          simpa only [same] using ih
      · have read : mainSlot (fillEntry place value .empty (items ++ [item])) inputIndex
            = mainSlot (fillEntry place value .empty items) inputIndex := by
          rw [fillEntry_append, mainSlot, Dict.get?_set_of_ne _ _ (Ne.symm main)]
          rfl
        rw [read]
        simpa [main] using ih

/-- Filled entries have values and holes, but no `null`. -/
theorem fillEntry_nullFree (items : List β) {inputType : NodeConnectionType}
    {slots : List (Slot α)}
    (found : (fillEntry place value .empty items).get? inputType = some slots)
    : ∀ slot ∈ slots, slot ≠ .null := by
  induction items using List.reverseRecOn generalizing inputType slots with
  | nil => simp [fillEntry] at found
  | append_singleton items item ih =>
      rw [fillEntry_append, Dict.get?_set] at found
      split at found
      · cases found
        intro slot member
        rcases Slot.mem_write member with old | rfl | rfl
        · cases before : (fillEntry place value .empty items).get? (place item).type with
          | none => simp [before] at old
          | some slots =>
              rw [before] at old
              exact ih before slot old
        · simp
        · simp
      · exact ih found

end FillEntry

theorem mainSlot_entryOf (runData : IRunData Item) (connections : List GraphConnection)
    (inputIndex : Nat)
    : (Feeds runData connections inputIndex
        ∧ ∃ items, mainSlot (entryOf runData connections) inputIndex = .value items)
      ∨ (¬ Feeds runData connections inputIndex
        ∧ mainSlot (entryOf runData connections) inputIndex = .undefined) := by
  have slot := mainSlot_fillEntry Prod.fst Prod.snd (fed runData connections) inputIndex
  split at slot
  · next feeds => exact .inl ⟨feeds, slot⟩
  · next none => exact .inr ⟨none, slot⟩

variable {runData : IRunData Item} {groups : List (List GraphConnection)}

section

variable {recreated : Recreated Item} {nodeName : String}
  (holds : recreated.HasGroups runData nodeName groups)

include holds

theorem Recreated.HasGroups.matchedAt
    : recreated.toExecutionData.MatchedAt nodeName := by
  have source : recreated.toExecutionData.sources = recreated.waitingExecutionSource := rfl
  refine ⟨?_, ?_⟩
  · rw [source, holds.source]
    change (recreated.waitingExecution.get? nodeName).isSome = _
    rw [holds.data]
    cases groups <;> simp [tableOf]
  · intro runIndex
    have data : (recreated.toExecutionData.tables nodeName).data
        = numbered (groups.map (entryOf runData)) := by
      change (recreated.waitingExecution.get? nodeName).getD .empty = _
      rw [holds.data, tableOf_getD]
    have sources : (recreated.toExecutionData.tables nodeName).source
        = numbered (groups.mapIdx (sourceOf runData)) := by
      change (recreated.toExecutionData.sources.get? nodeName).getD .empty = _
      rw [source, holds.source, tableOf_getD]
    rw [data, sources, get?_numbered, get?_numbered, List.getElem?_map, List.getElem?_mapIdx]
    cases groups[runIndex]? with
    | none => rfl
    | some connections =>
        simp only [Option.map_some, entryOf, sourceOf, main_fillEntry]

/-- The recreated entry at a run index is that of the group there. -/
theorem Recreated.HasGroups.get?_data (runIndex : Nat)
    : (recreated.toExecutionData.tables nodeName).data.get? runIndex
      = groups[runIndex]?.map (entryOf runData) := by
  change ((recreated.waitingExecution.get? nodeName).getD .empty).get? runIndex = _
  rw [holds.data, tableOf_getD, get?_numbered, List.getElem?_map]

end

/-! ### Entries that are pushed complete -/

def readable (entry : ITaskDataConnections Item) : Bool := (entry.get? .main).isSome

/-- No entry up to the run index is without a `main` array. -/
def ReadableUpTo (table : Dict Nat (ITaskDataConnections Item)) (runIndex : Nat) : Prop :=
  ∀ earlier entry, earlier ≤ runIndex → table.get? earlier = some entry
    → readable entry = true

/-- Every connected input has data or `null`, or at most one has a hole or `null`. -/
def Guarded (workflow : Workflow) (nodeName : String) (entry : ITaskDataConnections Item)
    : Prop :=
  (∀ inputIndex, workflow.ConnectedInput nodeName inputIndex
    → mainSlot entry inputIndex ≠ .undefined)
  ∨ ∀ first second, workflow.ConnectedInput nodeName first
      → workflow.ConnectedInput nodeName second → first ≠ second
      → (mainSlot entry first).isTruthy = true ∨ (mainSlot entry second).isTruthy = true

/-- Every entry that a delivery can reach is guarded. -/
def GuardedTable (workflow : Workflow) (nodeName : String)
    (table : Dict Nat (ITaskDataConnections Item))
    : Prop :=
  ∀ runIndex entry, table.get? runIndex = some entry → ReadableUpTo table runIndex
    → Guarded workflow nodeName entry

variable {inputIndex runIndex : Nat} {table : Dict Nat (ITaskDataConnections Item)}

/-- The search for an open entry has passed readable entries only, and full ones before it
found one, by induction on the sorted run indexes.
-/
theorem findWaitingIndex_readable {indexes : List Nat} (sorted : indexes.Pairwise (· ≤ ·))
    (found : findWaitingIndex inputIndex table indexes = .ok (some runIndex))
    : ∀ earlier ∈ indexes, earlier ≤ runIndex → ∀ entry, table.get? earlier = some entry
      → readable entry = true := by
  induction indexes with
  | nil => simp
  | cons index rest ih =>
      obtain ⟨lowest, sortedRest⟩ := List.pairwise_cons.mp sorted
      cases held : (table.get? index).bind (fun entry => entry.get? .main) with
      | none => simp [findWaitingIndex, held] at found
      | some main =>
          have here : ∀ entry, table.get? index = some entry → readable entry = true := by
            intro entry located
            simp only [located, Option.bind_some] at held
            simp [readable, held]
          intro earlier member before entry located
          rcases List.mem_cons.mp member with rfl | later
          · exact here entry located
          · cases filled : (Slot.read main inputIndex).isTruthy with
            | true =>
                exact ih sortedRest (by simpa [findWaitingIndex, held, filled] using found)
                  earlier later before entry located
            | false =>
                have same : index = runIndex := by
                  simpa [findWaitingIndex, held, filled] using found
                have equal : earlier = index := by
                  have := lowest earlier later
                  omega
                exact here entry (equal ▸ located)

theorem sortedKeys_pairwise {α : Type} (table : Dict Nat α)
    : table.sortedKeys.Pairwise (· ≤ ·) :=
  List.pairwise_insertionSort (· ≤ ·) table.keys

theorem readableUpTo_of_found
    (found : findWaitingIndex inputIndex table table.sortedKeys = .ok (some runIndex))
    : ReadableUpTo table runIndex := by
  intro earlier entry before located
  exact findWaitingIndex_readable (sortedKeys_pairwise table) found earlier
    (Dict.mem_sortedKeys.mpr (Dict.mem_keys_of_get? located)) before entry located

theorem readable_of_none (found : findWaitingIndex inputIndex table table.sortedKeys = .ok none)
    (runIndex : Nat)
    : ReadableUpTo table runIndex := by
  intro earlier entry _ located
  obtain ⟨other, main, _, same, held, _⟩ := findWaitingIndex_none found earlier
    (Dict.mem_sortedKeys.mpr (Dict.mem_keys_of_get? located))
  cases located.symm.trans same
  simp [readable, held]

variable {workflow : Workflow} {nodeName : String} {tables : Tables Item}

variable {entry : ITaskDataConnections Item} {main : List (Slot (List Item))}

theorem mainSlot_set (held : entry.get? .main = some main) (inputIndex other : Nat)
    (slot : Slot (List Item))
    : mainSlot (entry.set .main (Slot.write main inputIndex slot)) other
      = if other = inputIndex then slot else mainSlot entry other := by
  simp only [mainSlot, Dict.get?_set_self, Option.getD_some, held]
  exact Slot.read_write main inputIndex other slot

/-- Data or `null` at an open connected input leaves a guarded entry without holes. -/
theorem Guarded.write (guarded : Guarded workflow nodeName entry)
    (held : entry.get? .main = some main) (connected : workflow.ConnectedInput nodeName inputIndex)
    (missing : (Slot.read main inputIndex).isTruthy = false) {slot : Slot (List Item)}
    (defined : slot.isDefined = true)
    : ∀ other, workflow.ConnectedInput nodeName other
      → mainSlot (entry.set .main (Slot.write main inputIndex slot)) other ≠ .undefined := by
  intro other otherConnected
  rw [mainSlot_set held]
  split
  · intro hole
    simp [hole, Slot.isDefined] at defined
  · next differ =>
      rcases guarded with noHoles | oneMissing
      · exact noHoles other otherConnected
      · have open_ : (mainSlot entry inputIndex).isTruthy = false := by
          simpa [mainSlot, held] using missing
        rcases oneMissing other inputIndex otherConnected connected differ with full | full
        · intro hole
          simp [hole, Slot.isTruthy] at full
        · simp [open_] at full

theorem guarded_fresh
    : Guarded workflow nodeName
        (Dict.empty.set .main
          (List.replicate (workflow.mainInputs nodeName).length .null)
          : ITaskDataConnections Item) := by
  refine .inl ?_
  intro inputIndex connected
  simp only [mainSlot, Dict.get?_set_self, Option.getD_some, Slot.read_replicate_null,
    if_pos connected.lt_length]
  simp

/-- The entry that a delivery chooses is guarded, and so are those it can reach after. -/
theorem Chosen.guarded {inputIndex runIndex : Nat} {chosen : Tables Item}
    (choice
      : Chosen (workflow.mainInputs nodeName).length inputIndex tables runIndex chosen)
    (guarded : GuardedTable workflow nodeName tables.data)
    {entry : ITaskDataConnections Item} (found : chosen.data.get? runIndex = some entry)
    : Guarded workflow nodeName entry := by
  cases choice with
  | reuse search => exact guarded runIndex entry found (readableUpTo_of_found search)
  | fresh search =>
      simp only [Tables.set, Dict.get?_set_self, Option.some.injEq] at found
      exact found ▸ guarded_fresh

/-- Changing or deleting the chosen entry makes no further entry reachable. -/
theorem Chosen.guarded_others {chosen : Tables Item}
    (choice
      : Chosen (workflow.mainInputs nodeName).length inputIndex tables runIndex chosen)
    (guarded : GuardedTable workflow nodeName tables.data)
    (others : ∀ other, other ≠ runIndex → table.get? other = chosen.data.get? other) {other : Nat}
    (differ : other ≠ runIndex) (found : table.get? other = some entry)
    (upTo : ReadableUpTo table other)
    : Guarded workflow nodeName entry := by
  have original : ∀ index, index ≠ runIndex → table.get? index = tables.data.get? index := by
    intro index apart
    rw [others index apart]
    cases choice with
    | reuse _ => rfl
    | fresh _ => exact Dict.get?_set_of_ne _ _ apart
  refine guarded other entry ((original other differ).symm.trans found) ?_
  intro earlier held before located
  by_cases same : earlier = runIndex
  · subst same
    cases choice with
    | reuse search => exact readableUpTo_of_found search earlier held (Nat.le_refl _) located
    | fresh search => exact readable_of_none search _ _ held (Nat.le_refl _) located
  · exact upTo earlier held before ((original earlier same).trans located)

theorem value_of_allDataFound (all : allDataFound main = true)
    (noHole : Slot.read main inputIndex ≠ .undefined)
    : ∃ batch, Slot.read main inputIndex = .value batch := by
  have inside : inputIndex < main.length := by
    by_contra outside
    apply noHole
    simp [Slot.read, List.getD_eq_getElem?_getD,
      List.getElem?_eq_none (Nat.le_of_not_lt outside)]
  have present := List.all_eq_true.mp all _ (Slot.read_mem inside)
  cases read : Slot.read main inputIndex with
  | undefined => exact absurd read noHole
  | null => simp [read] at present
  | value batch => exact ⟨batch, rfl⟩

/-- A delivery to a guarded table keeps it guarded, and pushes complete items only. -/
theorem Arrival.guarded {delivery : Delivery Item} {before after : Tables Item}
    {stack grown : List (IExecuteData Item)}
    (arrival : Arrival workflow delivery before stack after grown)
    (guarded : GuardedTable workflow delivery.connectionData.node before.data)
    (arrives : Arrives workflow delivery)
    : GuardedTable workflow delivery.connectionData.node after.data
      ∧ ∀ item, grown = item :: stack
        → Complete workflow delivery.connectionData.node item := by
  cases arrival with
  | unreadable _ => exact ⟨guarded, fun item same => absurd same (by simp)⟩
  | @complete runIndex _ _ _ _ _ choice found _ held _ missing all =>
      refine ⟨?_, ?_⟩
      · intro other entry located upTo
        have differ : other ≠ runIndex := by
          intro same
          subst same
          simp [Tables.delete, Dict.get?_delete] at located
        refine Chosen.guarded_others choice guarded ?_ differ located upTo
        intro index apart
        simp [Tables.delete, Dict.get?_delete, apart]
      · intro item same inputIndex connected
        obtain ⟨rfl, _⟩ := List.cons.inj same
        have noHole := (Chosen.guarded choice guarded found).write held arrives.1 missing
          arrives.2 inputIndex connected
        simp only [mainSlot, waitingItem, Dict.get?_set_self, Option.getD_some] at noHole ⊢
        exact value_of_allDataFound all noHole
  | @incomplete runIndex _ _ _ _ _ _ _ choice found _ held _ missing _ storedHeld _ =>
      refine ⟨?_, fun item same => absurd same (by simp)⟩
      intro other entry located upTo
      by_cases same : other = runIndex
      · subst same
        simp only [Tables.set, Dict.get?_set_self, Option.some.injEq] at located
        subst located
        refine .inl fun inputIndex connected => ?_
        have noHole := (Chosen.guarded choice guarded found).write held arrives.1 missing
          arrives.2 inputIndex connected
        simpa only [mainSlot, storedHeld, Dict.get?_set_self] using noHole
      · refine Chosen.guarded_others choice guarded ?_ same located upTo
        intro index apart
        exact Dict.get?_set_of_ne _ _ apart

/-! ### Runs of deliveries -/

variable [Inhabited Item]

/-- Every node with several inputs has matching tables that are guarded. -/
def GuardedState (workflow : Workflow) (state : ExecutionData Item) : Prop :=
  ∀ nodeName, 1 < (workflow.mainInputs nodeName).length
    → state.MatchedAt nodeName ∧ GuardedTable workflow nodeName (state.tables nodeName).data

omit [Inhabited Item] in
theorem SameElsewhere.tables_eq {before after : ExecutionData Item} {other : String}
    (elsewhere : SameElsewhere before after nodeName) (differ : other ≠ nodeName)
    : after.tables other = before.tables other := by
  simp [ExecutionData.tables, table, (elsewhere other differ).1, (elsewhere other differ).2]

omit [Inhabited Item] in
theorem SameElsewhere.matchedAt {before after : ExecutionData Item} {other : String}
    (elsewhere : SameElsewhere before after nodeName) (differ : other ≠ nodeName)
    (matched : before.MatchedAt other)
    : after.MatchedAt other where
  nodes := by
    rw [(elsewhere other differ).1, (elsewhere other differ).2]
    exact matched.nodes
  tables := by
    rw [SameElsewhere.tables_eq elsewhere differ]
    exact matched.tables

omit [Inhabited Item] in
/-- A delivery to a node with one input leaves the waiting area alone. -/
theorem deliverToStack_waiting (workflow : Workflow) (delivery : Delivery Item)
    (state : ExecutionData Item)
    : ((deliverToStack workflow delivery).after state).waitingExecution
          = state.waitingExecution
      ∧ ((deliverToStack workflow delivery).after state).waitingExecutionSource
          = state.waitingExecutionSource := by
  unfold deliverToStack
  cases workflow.getNode delivery.connectionData.node with
  | none | some => exact ⟨rfl, rfl⟩

/-- One call keeps a state guarded and pushes complete items only. -/
theorem GuardedState.resume (v1 : workflow.settings.executionOrder = some .v1)
    {state next : ExecutionData Item} {call : Call Item}
    (guarded : GuardedState workflow state)
    (taken : PartialExecution.resume workflow state call = some next)
    : PushesComplete workflow state call ∧ GuardedState workflow next := by
  unfold PartialExecution.resume at taken
  split at taken
  · next arrives =>
      cases taken
      by_cases several : 1 < (workflow.mainInputs call.delivery.connectionData.node).length
      · have whole : addNodeToBeExecuted workflow call.runData call.delivery
            = deliverToWaiting workflow call.runData call.delivery := if_pos several
        obtain ⟨matched, table⟩ := guarded _ several
        have arrived := deliverToWaiting_arrived v1 call.runData call.delivery matched
        obtain ⟨kept, complete⟩ := Arrival.guarded arrived.arrival table arrives
        refine ⟨fun _ item same => complete item (whole ▸ same), ?_⟩
        intro nodeName inputs
        rw [whole]
        by_cases same : nodeName = call.delivery.connectionData.node
        · subst same
          exact ⟨arrived.matched, kept⟩
        · obtain ⟨otherMatched, otherTable⟩ := guarded nodeName inputs
          rw [SameElsewhere.tables_eq arrived.elsewhere same]
          exact ⟨SameElsewhere.matchedAt arrived.elsewhere same otherMatched, otherTable⟩
      · refine ⟨fun inputs => absurd inputs several, ?_⟩
        have whole : addNodeToBeExecuted workflow call.runData call.delivery
            = deliverToStack workflow call.delivery := if_neg several
        obtain ⟨data, source⟩ := deliverToStack_waiting workflow call.delivery state
        intro nodeName inputs
        obtain ⟨matched, table⟩ := guarded nodeName inputs
        have elsewhere : SameElsewhere state
            ((deliverToStack workflow call.delivery).after state)
            call.delivery.connectionData.node := by
          intro other _
          exact ⟨by rw [data], by rw [sources, sources, source]⟩
        have differ : nodeName ≠ call.delivery.connectionData.node := by
          intro same
          exact several (same ▸ inputs)
        rw [whole, SameElsewhere.tables_eq elsewhere differ]
        exact ⟨SameElsewhere.matchedAt elsewhere differ matched, table⟩
  · contradiction

/-! ### An entry that lacks data at two inputs is pushed without one of them -/

/-- A call that brings some data to the input. -/
def dataCall (nodeName : String) (inputIndex : Nat) : Call Item where
  runData := .empty
  delivery :=
    {
      connectionData := ⟨nodeName, .main, inputIndex⟩
      outputIndex := 0
      parentNodeName := ""
      nodeSuccessData := some [.value [default]]
      runIndex := 0
      newRunIndex := none
      metadata := none
    }

omit [Inhabited Item] in
/-- The search for an open entry stops at the latest at one that can be read. -/
theorem findWaitingIndex_stops {indexes : List Nat} (sorted : indexes.Pairwise (· ≤ ·))
    (known : ∀ index ∈ indexes, index ∈ table.keys) (upTo : ReadableUpTo table runIndex)
    (member : runIndex ∈ indexes) (located : table.get? runIndex = some entry)
    (open_ : (mainSlot entry inputIndex).isTruthy = false)
    : ∃ stop, findWaitingIndex inputIndex table indexes = .ok (some stop) := by
  induction indexes with
  | nil => simp at member
  | cons index rest ih =>
      obtain ⟨lowest, sortedRest⟩ := List.pairwise_cons.mp sorted
      have before : index ≤ runIndex := by
        rcases List.mem_cons.mp member with same | later
        · exact Nat.le_of_eq same.symm
        · exact lowest runIndex later
      obtain ⟨here, found⟩ := Dict.exists_get?_of_mem_keys (known index (by simp))
      obtain ⟨main, held⟩ := Option.isSome_iff_exists.mp (upTo index here before found)
      have read : (table.get? index).bind (fun entry => entry.get? .main) = some main := by
        simp [found, held]
      cases filled : (Slot.read main inputIndex).isTruthy with
      | false => exact ⟨index, by simp [findWaitingIndex, read, filled]⟩
      | true =>
          have later : runIndex ∈ rest := by
            refine (List.mem_cons.mp member).resolve_left ?_
            intro same
            subst same
            cases located.symm.trans found
            simp [mainSlot, held, filled] at open_
          obtain ⟨stop, stops⟩ := ih sortedRest
            (fun other member => known other (.tail _ member)) later
          exact ⟨stop, by simpa [findWaitingIndex, read, filled] using stops⟩

/-- No slot of the array has `null`. -/
def NullFree (table : Dict Nat (ITaskDataConnections Item)) : Prop :=
  ∀ runIndex entry main, table.get? runIndex = some entry → entry.get? .main = some main
    → ∀ slot ∈ main, slot ≠ .null

omit [Inhabited Item] in
theorem allDataFound_write (nullFree : ∀ slot ∈ main, slot ≠ .null) (inputIndex : Nat)
    (batch : List Item)
    : allDataFound (Slot.write main inputIndex (.value batch)) = true := by
  unfold allDataFound
  rw [List.all_eq_true]
  intro slot member
  cases slot with
  | null =>
      rcases Slot.mem_write member with old | hole | new
      · exact absurd rfl (nullFree _ old)
      · contradiction
      · contradiction
  | _ => rfl

omit [Inhabited Item] in
theorem NullFree.delete (nullFree : NullFree table) (runIndex : Nat)
    : NullFree (table.delete runIndex) := by
  intro other entry main found
  rw [Dict.get?_delete] at found
  split at found
  · contradiction
  · exact nullFree other entry main found

omit [Inhabited Item] in
theorem ReadableUpTo.delete (upTo : ReadableUpTo table runIndex) (gone : Nat)
    : ReadableUpTo (table.delete gone) runIndex := by
  intro earlier entry before found
  rw [Dict.get?_delete] at found
  split at found
  · contradiction
  · exact upTo earlier entry before found

omit [Inhabited Item] in
theorem keys_delete_lt {α : Type} {table : Dict Nat α} (member : runIndex ∈ table.keys)
    : (table.delete runIndex).keys.length < table.keys.length := by
  have filtered : (table.delete runIndex).keys = table.keys.filter (· ≠ runIndex) := by
    simp only [Dict.keys, Dict.delete, List.filter_map]
    rfl
  rw [filtered]
  apply List.length_filter_lt_length_iff_exists.mpr
  exact ⟨runIndex, member, by simp⟩

/-- Data for an input of a table without `null` completes the entry it goes to. -/
theorem Arrival.of_nullFree {before after : Tables Item} {stack grown : List (IExecuteData Item)}
    (arrival : Arrival workflow (dataCall nodeName inputIndex).delivery before stack after grown)
    (nullFree : NullFree before.data) {stop : Nat}
    (stops
      : findWaitingIndex inputIndex before.data before.data.sortedKeys = .ok (some stop))
    : ∃ entry main item,
        before.data.get? stop = some entry
        ∧ entry.get? .main = some main
        ∧ grown = item :: stack
        ∧ item.data = entry.set .main (Slot.write main inputIndex (.value [default]))
        ∧ after = before.delete stop := by
  cases arrival with
  | unreadable thrown =>
      have same := thrown.symm.trans stops
      contradiction
  | complete choice found _ held _ _ _ =>
      cases choice with
      | reuse search =>
          obtain rfl := Option.some.inj (Except.ok.inj (search.symm.trans stops))
          exact ⟨_, _, _, found, held, rfl, rfl, rfl⟩
      | fresh search =>
          have same := search.symm.trans stops
          simp at same
  | incomplete choice found _ held _ _ notAll _ _ =>
      cases choice with
      | reuse search =>
          have full := allDataFound_write (nullFree _ _ _ found held) inputIndex [default]
          exact absurd full (by simpa [dataCall, Delivery.batch, Slot.read] using notAll)
      | fresh search =>
          have same := search.symm.trans stops
          simp at same

/-- Where an entry that can be reached lacks data at two connected inputs, calls that bring
data to the first one push an item without the second, by induction on the number of entries.
-/
theorem exists_incomplete_push (v1 : workflow.settings.executionOrder = some .v1)
    {state : ExecutionData Item} (matched : state.MatchedAt nodeName)
    (nullFree : NullFree (state.tables nodeName).data)
    (located : (state.tables nodeName).data.get? runIndex = some entry)
    (upTo : ReadableUpTo (state.tables nodeName).data runIndex) {first second : Nat}
    (firstConnected : workflow.ConnectedInput nodeName first)
    (secondConnected : workflow.ConnectedInput nodeName second) (differ : first ≠ second)
    (firstOpen : (mainSlot entry first).isTruthy = false)
    (secondOpen : (mainSlot entry second).isTruthy = false)
    : ∃ calls, ¬Along (resume workflow) (PushesComplete workflow) state calls := by
  induction entries : (state.tables nodeName).data.keys.length using Nat.strong_induction_on
    generalizing state with
  | _ length ih =>
      have several : 1 < (workflow.mainInputs nodeName).length := by
        have firstInside := firstConnected.lt_length
        have secondInside := secondConnected.lt_length
        omega
      have taken : resume workflow state (dataCall nodeName first)
          = some ((deliverToWaiting workflow .empty (dataCall nodeName first).delivery).after
              state) := by
        unfold resume
        rw [if_pos ⟨firstConnected, rfl⟩]
        exact congrArg (fun program => some (Exec.after program state)) (if_pos several)
      obtain ⟨stop, stops⟩ := findWaitingIndex_stops
        (sortedKeys_pairwise (state.tables nodeName).data)
        (fun index member => Dict.mem_sortedKeys.mp member) upTo
        (Dict.mem_sortedKeys.mpr (Dict.mem_keys_of_get? located)) located firstOpen
      have arrived :=
        deliverToWaiting_arrived v1 .empty (dataCall nodeName first).delivery matched
      obtain ⟨chosen, main, item, found, held, pushed, data, deleted⟩ :=
        Arrival.of_nullFree arrived.arrival nullFree stops
      by_cases same : stop = runIndex
      · subst same
        cases located.symm.trans found
        refine ⟨[dataCall nodeName first], fun along => ?_⟩
        have complete := (along _ taken).1 several item
          ((congrArg (fun program => (Exec.after program state).nodeExecutionStack)
            (if_pos several)).trans pushed)
        obtain ⟨batch, value⟩ := complete second secondConnected
        rw [data, mainSlot_set held, if_neg (Ne.symm differ)] at value
        simp [value, Slot.isTruthy] at secondOpen
      · have fewer := keys_delete_lt (Dict.mem_keys_of_get? found)
        generalize (deliverToWaiting workflow .empty (dataCall nodeName first).delivery).after
          state = next at taken arrived deleted
        have left : (next.tables nodeName).data = (state.tables nodeName).data.delete stop :=
          congrArg Tables.data deleted
        have still : (next.tables nodeName).data.get? runIndex = some entry := by
          rw [left, Dict.get?_delete, if_neg (Ne.symm same), located]
        obtain ⟨calls, notAlong⟩ := ih (next.tables nodeName).data.keys.length
          (by rw [left, ← entries]; exact fewer) arrived.matched (left ▸ nullFree.delete stop)
          still (left ▸ upTo.delete stop) rfl
        exact ⟨dataCall nodeName first :: calls, fun along => notAlong (along _ taken).2⟩

/-! ### Recreated waiting areas -/

/-- The groups that deliveries can reach: those before the first one without run data for
any main input.
-/
def reachableGroups (runData : IRunData Item) (groups : List (List GraphConnection))
    : List (List GraphConnection) :=
  groups.takeWhile (feedsMain runData)

omit [Inhabited Item] in
theorem mem_reachableGroups {connections : List GraphConnection}
    : connections ∈ reachableGroups runData groups
      ↔ ∃ runIndex : Nat,
          groups[runIndex]? = some connections
          ∧ ∀ earlier other, earlier ≤ runIndex → groups[earlier]? = some other
            → feedsMain runData other = true := by
  unfold reachableGroups
  induction groups with
  | nil => simp
  | cons group rest ih =>
      rw [List.takeWhile_cons]
      cases feeds : feedsMain runData group with
      | false =>
          simp only [Bool.false_eq_true, if_false, List.not_mem_nil, false_iff]
          intro found
          obtain ⟨runIndex, _, all⟩ := found
          have here := all 0 group (Nat.zero_le _) rfl
          simp [feeds] at here
      | true =>
          simp only [if_true, List.mem_cons, ih]
          constructor
          · intro member
            rcases member with rfl | ⟨runIndex, found, all⟩
            · refine ⟨0, rfl, fun earlier other before there => ?_⟩
              obtain rfl := Nat.le_zero.mp before
              cases there
              exact feeds
            · refine ⟨runIndex + 1, found, fun earlier other before there => ?_⟩
              cases earlier with
              | zero =>
                  cases there
                  exact feeds
              | succ earlier => exact all earlier other (Nat.le_of_succ_le_succ before) there
          · intro found
            obtain ⟨runIndex, found, all⟩ := found
            cases runIndex with
            | zero => exact .inl (Option.some.inj found).symm
            | succ runIndex =>
                exact .inr ⟨runIndex, found, fun earlier other before there =>
                  all (earlier + 1) other (Nat.succ_le_succ before) there⟩

omit [Inhabited Item] in
theorem readable_entryOf (runData : IRunData Item) (connections : List GraphConnection)
    : readable (entryOf runData connections) = feedsMain runData connections :=
  main_fillEntry Prod.fst Prod.snd (fed runData connections)

omit [Inhabited Item] in
/-- The entry of a group is guarded if the group lacks at most one of the connected inputs. -/
theorem guarded_entryOf_iff {connections : List GraphConnection}
    : Guarded workflow nodeName (entryOf runData connections)
      ↔ LacksAtMostOne workflow nodeName runData connections := by
  have truthy : ∀ inputIndex,
      (mainSlot (entryOf runData connections) inputIndex).isTruthy = true
      ↔ Feeds runData connections inputIndex := by
    intro inputIndex
    rcases mainSlot_entryOf runData connections inputIndex with
      ⟨feeds, items, slot⟩ | ⟨none, slot⟩
    · simp [slot, feeds, Slot.isTruthy]
    · simp [slot, none, Slot.isTruthy]
  constructor
  · intro guarded first second firstConnected secondConnected differ
    rcases guarded with noHoles | oneMissing
    · rcases mainSlot_entryOf runData connections first with ⟨feeds, _⟩ | ⟨_, slot⟩
      · exact .inl feeds
      · exact absurd slot (noHoles first firstConnected)
    · rw [← truthy first, ← truthy second]
      exact oneMissing first second firstConnected secondConnected differ
  · intro lacks
    refine .inr fun first second firstConnected secondConnected differ => ?_
    rw [truthy first, truthy second]
    exact lacks first second firstConnected secondConnected differ

namespace Recreated.HasGroups

variable {runData : IRunData Item} {recreated : Recreated Item}
  {groups : List (List GraphConnection)}

omit [Inhabited Item] in
theorem mem_reachableGroups_iff (holds : recreated.HasGroups runData nodeName groups)
    {connections : List GraphConnection}
    : connections ∈ reachableGroups runData groups
      ↔ ∃ runIndex,
          groups[runIndex]? = some connections
          ∧ ReadableUpTo (recreated.toExecutionData.tables nodeName).data runIndex := by
  have same : ∀ runIndex,
      ReadableUpTo (recreated.toExecutionData.tables nodeName).data runIndex
      ↔ ∀ earlier other, earlier ≤ runIndex → groups[earlier]? = some other
        → feedsMain runData other = true := by
    intro runIndex
    simp only [ReadableUpTo, holds.get?_data, Option.map_eq_some_iff]
    constructor
    · intro upTo earlier other before there
      rw [← readable_entryOf]
      exact upTo earlier _ before ⟨other, there, rfl⟩
    · intro all earlier entry before found
      obtain ⟨other, there, rfl⟩ := found
      rw [readable_entryOf]
      exact all earlier other before there
  simp only [mem_reachableGroups, same]

omit [Inhabited Item] in
/-- The recreated table is guarded if each group that can be reached lacks at most one of the
connected inputs.
-/
theorem guardedTable (holds : recreated.HasGroups runData nodeName groups)
    (lacks
      : ∀ connections ∈ reachableGroups runData groups,
          LacksAtMostOne workflow nodeName runData connections)
    : GuardedTable workflow nodeName (recreated.toExecutionData.tables nodeName).data := by
  intro runIndex entry located upTo
  rw [holds.get?_data] at located
  obtain ⟨connections, found, rfl⟩ := Option.map_eq_some_iff.mp located
  exact guarded_entryOf_iff.mpr
    (lacks connections (holds.mem_reachableGroups_iff.mpr ⟨runIndex, found, upTo⟩))

omit [Inhabited Item] in
theorem nullFree (holds : recreated.HasGroups runData nodeName groups)
    : NullFree (recreated.toExecutionData.tables nodeName).data := by
  intro runIndex entry main located held slot member
  rw [holds.get?_data] at located
  obtain ⟨connections, _, rfl⟩ := Option.map_eq_some_iff.mp located
  exact fillEntry_nullFree Prod.fst Prod.snd (fed runData connections) held slot member

end Recreated.HasGroups

section Recreation

variable {localeCompare : String → String → Int} {graph : DirectedGraph}
  {runData : IRunData Item} {pinData : IPinData Item} {startNodes : List INode}
  {recreated : Recreated Item}

end Recreation

/-- The nodes `A`, `B` and `C` behind a trigger, each connected to its own input of `Merge`. -/
def threeBranches : DirectedGraph where
  nodes := Dict.empty.insertAll INode.name
    [
      ⟨"0", "Trigger", "set", false⟩, ⟨"1", "A", "set", false⟩, ⟨"2", "B", "set", false⟩,
      ⟨"3", "C", "set", false⟩,
      ⟨"4", "Merge", "set", false⟩
    ]
  connections := Dict.empty.insertAll makeKey
    [
      ⟨⟨"0", "Trigger", "set", false⟩, ⟨"1", "A", "set", false⟩, .main, 0, 0⟩,
      ⟨⟨"0", "Trigger", "set", false⟩, ⟨"2", "B", "set", false⟩, .main, 0, 0⟩,
      ⟨⟨"0", "Trigger", "set", false⟩, ⟨"3", "C", "set", false⟩, .main, 0, 0⟩,
      ⟨⟨"1", "A", "set", false⟩, ⟨"4", "Merge", "set", false⟩, .main, 0, 0⟩,
      ⟨⟨"2", "B", "set", false⟩, ⟨"4", "Merge", "set", false⟩, .main, 0, 1⟩,
      ⟨⟨"3", "C", "set", false⟩, ⟨"4", "Merge", "set", false⟩, .main, 0, 2⟩
    ]

def threeBranchesWorkflow : Workflow where
  nodes := threeBranches.nodes
  connectionsBySourceNode :=
    Dict.empty.set "Trigger"
        (Dict.empty.set .main [some [⟨"A", .main, 0⟩, ⟨"B", .main, 0⟩, ⟨"C", .main, 0⟩]])
      |>.set "A" (Dict.empty.set .main [some [⟨"Merge", .main, 0⟩]])
      |>.set "B" (Dict.empty.set .main [some [⟨"Merge", .main, 1⟩]])
      |>.set "C" (Dict.empty.set .main [some [⟨"Merge", .main, 2⟩]])
  connectionsByDestinationNode :=
    Dict.empty.set "A" (Dict.empty.set .main [some [⟨"Trigger", .main, 0⟩]])
      |>.set "B" (Dict.empty.set .main [some [⟨"Trigger", .main, 0⟩]])
      |>.set "C" (Dict.empty.set .main [some [⟨"Trigger", .main, 0⟩]])
      |>.set "Merge"
        (Dict.empty.set .main
          [some [⟨"A", .main, 0⟩], some [⟨"B", .main, 0⟩], some [⟨"C", .main, 0⟩]])
  settings := ⟨some .v1⟩

/-- Each of the nodes has run once and put out the item 1. -/
def ranOnce (nodeNames : List String) : IRunData Nat :=
  nodeNames.foldl
    (fun runData nodeName =>
      runData.set nodeName [⟨some (Dict.empty.set .main [.value [1]])⟩])
    .empty

/-- Names in the order of their code units. -/
def compareNames (first second : String) : Int :=
  if first < second then -1 else if second < first then 1 else 0

end N8n.PartialExecution
