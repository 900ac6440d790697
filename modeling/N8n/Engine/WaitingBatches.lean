import N8n.Engine.Arrival
import N8n.Library.Runs

/-! Which batches the waiting area keeps over whole runs of deliveries to one node.
Every delivery keeps all batches, except one that opens a new entry at a run index that
is still in use: the number of entries is taken for a free index, although earlier
entries may have been completed and deleted.
-/

namespace N8n.Engine

open N8n.Runs ExecutionData

variable {Item : Type}

/-- A batch at an input, with what stands at the same slot of the sources. -/
structure Placed (Item : Type) where
  inputIndex : Nat
  batch : List Item
  source : Slot ISourceData
  deriving DecidableEq

/-- The batches of an entry with their slots. -/
def heldBatches (main : List (Slot (List Item))) (sourceMain : List (Slot ISourceData))
    : List (Placed Item) :=
  (List.range main.length).filterMap (fun inputIndex =>
    match Slot.read main inputIndex with
    | .value batch => some ⟨inputIndex, batch, Slot.read sourceMain inputIndex⟩
    | _ => none)

def entryBatches (entry : ITaskDataConnections Item) (source : ITaskDataConnectionsSource)
    : List (Placed Item) :=
  heldBatches ((entry.get? .main).getD []) ((source.get? .main).getD [])

def waitingBatches (tables : Tables Item) : List (Placed Item) :=
  tables.data.entries.flatMap (fun entry =>
    entryBatches entry.2 ((tables.source.get? entry.1).getD .empty))

def pushedBatches (pushed : List (IExecuteData Item)) : List (Placed Item) :=
  pushed.flatMap (fun item => entryBatches item.data (item.source.getD .empty))

/-! ### Batches of one entry -/

/-- Defining a partial function at one more place of a list adds one value. -/
theorem filterMap_perm_of_new {α β : Type} {items : List α} {old new : α → Option β}
    {item : α} {value : β} (distinct : items.Nodup) (member : item ∈ items)
    (undefined : old item = none) (defined : new item = some value)
    (same : ∀ other, other ≠ item → new other = old other)
    : (items.filterMap new).Perm (value :: items.filterMap old) := by
  obtain ⟨before, after, rfl⟩ := List.append_of_mem member
  rw [List.nodup_append, List.nodup_cons] at distinct
  have early : before.filterMap new = before.filterMap old :=
    List.filterMap_congr (fun other here => same other (fun equal =>
      distinct.2.2 other here item (by simp) equal))
  have late : after.filterMap new = after.filterMap old :=
    List.filterMap_congr (fun other here => same other (fun equal =>
      distinct.2.1.1 (equal ▸ here)))
  simp only [List.filterMap_append, List.filterMap_cons, undefined, defined, early, late]
  exact List.perm_middle

variable {inputIndex : Nat}

/-- Writing a batch to a slot without data adds that batch to the entry. -/
theorem heldBatches_write {main : List (Slot (List Item))} (sourceMain : List (Slot ISourceData))
    (inside : inputIndex < main.length) (missing : (Slot.read main inputIndex).isTruthy = false)
    (batch : List Item) (source : Slot ISourceData)
    : (heldBatches (Slot.write main inputIndex (.value batch))
        (Slot.write sourceMain inputIndex source)).Perm
          (⟨inputIndex, batch, source⟩ :: heldBatches main sourceMain) := by
  unfold heldBatches
  rw [Slot.length_write_of_lt _ inside]
  refine filterMap_perm_of_new List.nodup_range (List.mem_range.mpr inside) ?_ ?_ ?_
  · cases read : Slot.read main inputIndex with
    | value held => simp [read, Slot.isTruthy] at missing
    | _ => rfl
  · simp [Slot.read_write]
  · intro other differ
    simp [Slot.read_write, differ]

theorem heldBatches_replicate_null (length : Nat) (sourceMain : List (Slot ISourceData))
    : heldBatches (List.replicate length (.null : Slot (List Item))) sourceMain = [] := by
  unfold heldBatches
  rw [List.filterMap_eq_nil_iff]
  intro inputIndex _
  rw [Slot.read_replicate_null]
  split <;> simp_all

/-! ### Batches of the waiting area -/

theorem waitingBatches_congr (tables : Tables Item)
    (entries : List (Nat × ITaskDataConnections Item))
    (sources : Dict Nat ITaskDataConnectionsSource)
    (same : ∀ entry ∈ entries, sources.get? entry.1 = tables.source.get? entry.1)
    : entries.flatMap (fun entry => entryBatches entry.2 ((sources.get? entry.1).getD .empty))
      = entries.flatMap (fun entry =>
          entryBatches entry.2 ((tables.source.get? entry.1).getD .empty)) :=
  List.flatMap_congr (fun entry member => by rw [same entry member])

variable {runIndex : Nat}

/-- The batches of one entry and those of all others make up the waiting batches. -/
theorem waitingBatches_split (tables : Tables Item) {entry : ITaskDataConnections Item}
    (found : tables.data.get? runIndex = some entry)
    : (waitingBatches tables).Perm
        (entryBatches entry ((tables.source.get? runIndex).getD .empty)
          ++ waitingBatches (tables.delete runIndex)) := by
  obtain ⟨before, after, split, _, deleted⟩ := Dict.split_of_get? found
  have distinct := tables.data.nodup
  rw [split, List.map_append, List.map_cons, List.nodup_append, List.nodup_cons] at distinct
  have others : ∀ other ∈ before ++ after, other.1 ≠ runIndex := by
    rintro other member rfl
    rcases List.mem_append.mp member with early | late
    · exact distinct.2.2 other.1 (List.mem_map.mpr ⟨other, early, rfl⟩) other.1 (by simp) rfl
    · exact distinct.2.1.1 (List.mem_map.mpr ⟨other, late, rfl⟩)
  have rest := waitingBatches_congr tables (before ++ after) (tables.source.delete runIndex)
    (fun other member => by simp [Dict.get?_delete, others other member])
  simp only [waitingBatches, Tables.delete, split, deleted, rest, List.flatMap_append,
    List.flatMap_cons]
  exact List.perm_append_comm_assoc _ _ _

variable {tables : Tables Item}

theorem waitingBatches_delete_of_none (absent : tables.data.get? runIndex = none)
    : waitingBatches (tables.delete runIndex) = waitingBatches tables := by
  have others : ∀ other ∈ tables.data.entries, other.1 ≠ runIndex := by
    rintro other member rfl
    exact Dict.get?_eq_none_iff.mp absent (List.mem_map.mpr ⟨other, member, rfl⟩)
  have kept : (tables.data.delete runIndex).entries = tables.data.entries :=
    List.filter_eq_self.mpr (by simpa using others)
  simp only [waitingBatches, Tables.delete, kept]
  exact waitingBatches_congr _ _ _
    (fun other member => by simp [Dict.get?_delete, others other member])

theorem Tables.delete_set (tables : Tables Item) (runIndex : Nat)
    (entry : ITaskDataConnections Item) (source : ITaskDataConnectionsSource)
    : (tables.set runIndex entry source).delete runIndex = tables.delete runIndex := by
  simp [Tables.delete, Tables.set, Dict.delete_set]

/-- Assigning an entry replaces the batches at its run index. -/
theorem waitingBatches_set (tables : Tables Item) (runIndex : Nat)
    (entry : ITaskDataConnections Item) (source : ITaskDataConnectionsSource)
    : (waitingBatches (tables.set runIndex entry source)).Perm
        (entryBatches entry source ++ waitingBatches (tables.delete runIndex)) := by
  have parts := waitingBatches_split (tables.set runIndex entry source)
    (Dict.get?_set_self tables.data runIndex entry)
  rw [Tables.delete_set] at parts
  simpa [Tables.set] using parts

variable {numberOfInputs : Nat} {before : Tables Item}

/-- The batches before a delivery is written: a new entry holds none, and displaces those
of an entry whose run index it takes.
-/
theorem Chosen.batches {chosen : Tables Item}
    (choice : Chosen numberOfInputs inputIndex before runIndex chosen)
    : findWaitingIndex inputIndex before.data before.data.sortedKeys = .ok (some runIndex)
        ∧ chosen = before
      ∨ runIndex = before.data.values.length
        ∧ findWaitingIndex inputIndex before.data before.data.sortedKeys = .ok none
        ∧ (waitingBatches chosen).Perm (waitingBatches (before.delete runIndex)) := by
  cases choice with
  | reuse found => exact Or.inl ⟨found, rfl⟩
  | fresh found =>
      refine Or.inr ⟨rfl, found, ?_⟩
      have parts := waitingBatches_set before before.data.values.length
        (Dict.empty.set .main (List.replicate numberOfInputs .null))
        (Dict.empty.set .main (List.replicate numberOfInputs .null))
      simpa [entryBatches, heldBatches_replicate_null] using parts

/-! ### One delivery -/

/-- The delivery brings data, to a main input of the node. -/
structure Delivers (workflow : Workflow) (nodeName : String) (delivery : Delivery Item)
    : Prop where
  node : delivery.connectionData.node = nodeName
  input : delivery.connectionData.index < (workflow.mainInputs nodeName).length
  data : delivery.batch.isTruthy = true

instance (workflow : Workflow) (nodeName : String) (delivery : Delivery Item)
    : Decidable (Delivers workflow nodeName delivery) :=
  decidable_of_iff
    (delivery.connectionData.node = nodeName
      ∧ delivery.connectionData.index < (workflow.mainInputs nodeName).length
      ∧ delivery.batch.isTruthy = true)
    ⟨fun all => ⟨all.1, all.2.1, all.2.2⟩, fun h => ⟨h.node, h.input, h.data⟩⟩

namespace Delivery

/-- The batch delivered, at its input index and with its own source record. -/
def placed (self : Delivery Item) : Placed Item where
  inputIndex := self.connectionData.index
  batch := match self.batch with
    | .value batch => batch
    | _ => []
  source := .value self.sourceData

theorem placed_of_data {self : Delivery Item} (data : self.batch.isTruthy = true)
    : self.batch = .value self.placed.batch ∧ self.source = .value self.sourceData := by
  obtain ⟨batch, same⟩ := Slot.isTruthy_iff.mp data
  refine ⟨by simp [placed, same], ?_⟩
  unfold Delivery.batch at same
  unfold Delivery.source
  split at same
  · cases same
  · rfl

end Delivery

/-- Every entry has a full-length array that holds some batch. -/
def WellFormed (numberOfInputs : Nat) (tables : Tables Item) : Prop :=
  ∀ runIndex entry, tables.data.get? runIndex = some entry →
    ∃ main, entry.get? .main = some main
      ∧ main.length = numberOfInputs
      ∧ ∃ inputIndex < numberOfInputs, (Slot.read main inputIndex).isTruthy = true

theorem findWaitingIndex_error {table : Dict Nat (ITaskDataConnections Item)} {indexes : List Nat}
    {error : JsError} (thrown : findWaitingIndex inputIndex table indexes = .error error)
    : ∃ index ∈ indexes,
        (table.get? index).bind (fun entry => entry.get? .main) = none := by
  induction indexes with
  | nil => simp [findWaitingIndex] at thrown
  | cons index rest ih =>
      cases held : (table.get? index).bind (fun entry => entry.get? .main) with
      | none => exact ⟨index, by simp, held⟩
      | some main =>
          cases filled : (Slot.read main inputIndex).isTruthy with
          | false => simp [findWaitingIndex, held, filled] at thrown
          | true =>
              obtain ⟨other, member, facts⟩ :=
                ih (by simpa [findWaitingIndex, held, filled] using thrown)
              exact ⟨other, List.mem_cons_of_mem index member, facts⟩

/-- Over well-formed tables the loop that looks for an open entry does not throw. -/
theorem WellFormed.readable (formed : WellFormed numberOfInputs tables) {error : JsError}
    : findWaitingIndex inputIndex tables.data tables.data.sortedKeys ≠ .error error := by
  intro thrown
  obtain ⟨index, member, missing⟩ := findWaitingIndex_error thrown
  obtain ⟨entry, found⟩ :=
    Dict.exists_get?_of_mem_keys (Dict.mem_sortedKeys.mp member)
  obtain ⟨main, held, _⟩ := formed index entry found
  simp [found, held] at missing

theorem WellFormed.batches_pos (formed : WellFormed numberOfInputs tables)
    {entry : ITaskDataConnections Item} (found : tables.data.get? runIndex = some entry)
    (source : ITaskDataConnectionsSource)
    : 0 < (entryBatches entry source).length := by
  obtain ⟨main, held, length, inputIndex, inside, filled⟩ := formed runIndex entry found
  obtain ⟨batch, read⟩ := Slot.isTruthy_iff.mp filled
  refine List.length_pos_of_mem
    (show ⟨inputIndex, batch, Slot.read ((source.get? .main).getD []) inputIndex⟩ ∈ _ from ?_)
  simp only [entryBatches, held, Option.getD_some, heldBatches, List.mem_filterMap,
    List.mem_range]
  exact ⟨inputIndex, length ▸ inside, by rw [read]⟩

/-- A delivery pushes at most one item, of its node, and adds its batch to those of the
entry it chose; the tables stay well formed.
-/
theorem Arrival.batches {workflow : Workflow} {delivery : Delivery Item} {after : Tables Item}
    {stack stackAfter : List (IExecuteData Item)} {nodeName : String}
    (delivers : Delivers workflow nodeName delivery)
    (formed : WellFormed (workflow.mainInputs nodeName).length before)
    (arrival : Arrival workflow delivery before stack after stackAfter)
    : WellFormed (workflow.mainInputs nodeName).length after
      ∧ ∃ items runIndex chosen,
          stackAfter = items ++ stack
          ∧ (∀ item ∈ items, item.node = workflow.getNode nodeName)
          ∧ Chosen (workflow.mainInputs nodeName).length delivery.connectionData.index
              before runIndex chosen
          ∧ (pushedBatches items ++ waitingBatches after).Perm
              (delivery.placed :: waitingBatches chosen) := by
  obtain ⟨rfl, input, data⟩ := delivers
  obtain ⟨batchEq, sourceEq⟩ := Delivery.placed_of_data data
  have chosenLength {runIndex chosen entry main}
      (choice
        : Chosen (workflow.mainInputs delivery.connectionData.node).length
            delivery.connectionData.index before runIndex chosen)
      (found : chosen.data.get? runIndex = some entry) (held : entry.get? .main = some main)
      : main.length = (workflow.mainInputs delivery.connectionData.node).length := by
    cases choice with
    | reuse _ =>
        obtain ⟨_, sameHeld, length, _⟩ := formed _ _ found
        rw [held] at sameHeld
        exact Option.some.inj sameHeld ▸ length
    | fresh _ =>
        simp only [Tables.set, Dict.get?_set_self, Option.some.injEq] at found
        subst found
        simp only [Dict.get?_set_self, Option.some.injEq] at held
        simp [← held]
  have chosenFormed {runIndex chosen other entry}
      (choice
        : Chosen (workflow.mainInputs delivery.connectionData.node).length
            delivery.connectionData.index before runIndex chosen)
      (differ : other ≠ runIndex) (found : chosen.data.get? other = some entry)
      : before.data.get? other = some entry := by
    cases choice with
    | reuse _ => exact found
    | fresh _ => simpa [Tables.set, Dict.get?_set, differ] using found
  cases arrival with
  | unreadable thrown => exact absurd thrown formed.readable
  | @complete runIndex chosen entry source main sourceMain choice found located held
      sourceHeld missing all =>
      refine ⟨?_, [_], runIndex, chosen, rfl, by simp [waitingItem], choice, ?_⟩
      · intro other entry present
        simp only [Tables.delete, Dict.get?_delete] at present
        split at present
        · cases present
        · next differ => exact formed other entry (chosenFormed choice differ present)
      · have parts := waitingBatches_split _ found
        simp only [located, Option.getD_some] at parts
        have added := heldBatches_write sourceMain
          (chosenLength choice found held ▸ input) missing delivery.placed.batch
          (.value delivery.sourceData)
        simp only [pushedBatches, waitingItem, List.flatMap_cons, List.flatMap_nil,
          List.append_nil, Option.getD_some, entryBatches, Dict.get?_set_self, batchEq,
          sourceEq]
        simp only [entryBatches, held, sourceHeld, Option.getD_some] at parts
        exact (added.append_right _).trans (.cons _ parts.symm)
  | @incomplete runIndex chosen entry source main sourceMain stored storedSource choice
      found located held sourceHeld missing notAll storedHeld storedSourceHeld =>
      refine ⟨?_, [], runIndex, chosen, rfl, by simp, choice, ?_⟩
      · intro other entry present
        simp only [Tables.set, Dict.get?_set] at present
        split at present
        · cases present
          refine ⟨_, storedHeld, ?_, delivery.connectionData.index, input, ?_⟩
          · rw [Slot.length_write_of_lt _ (chosenLength choice found held ▸ input),
              chosenLength choice found held]
          · rw [Slot.read_write, if_pos rfl]
            exact data
        · next differ => exact formed other entry (chosenFormed choice differ present)
      · have parts := waitingBatches_split _ found
        simp only [located, Option.getD_some] at parts
        have added := heldBatches_write sourceMain
          (chosenLength choice found held ▸ input) missing delivery.placed.batch
          (.value delivery.sourceData)
        have written := waitingBatches_set chosen runIndex stored storedSource
        simp only [entryBatches, storedHeld, storedSourceHeld, Option.getD_some, batchEq,
          sourceEq] at written
        simp only [entryBatches, held, sourceHeld, Option.getD_some] at parts
        simp only [pushedBatches, List.flatMap_nil, List.nil_append]
        exact (written.trans (added.append_right _)).trans (.cons _ parts.symm)

/-- When all entries have data for the input, no entry is reused. -/
theorem Chosen.fresh_of_all {chosen : Tables Item}
    (all
      : ∀ entry ∈ before.data.values,
          (Slot.read ((entry.get? .main).getD []) inputIndex).isTruthy = true)
    (choice : Chosen numberOfInputs inputIndex before runIndex chosen)
    : findWaitingIndex inputIndex before.data before.data.sortedKeys = .ok none := by
  cases choice with
  | fresh found => exact found
  | reuse found =>
      obtain ⟨_, entry, main, located, held, missing⟩ := findWaitingIndex_some found
      have member : entry ∈ before.data.values :=
        List.mem_map.mpr ⟨_, Dict.mem_entries_iff.mpr located, rfl⟩
      have filled := all entry member
      simp [held, missing] at filled

theorem values_filled
    (found : findWaitingIndex inputIndex before.data before.data.sortedKeys = .ok none)
    : ∀ entry ∈ before.data.values,
        (Slot.read ((entry.get? .main).getD []) inputIndex).isTruthy = true := by
  intro entry member
  obtain ⟨⟨runIndex, _⟩, present, rfl⟩ := List.mem_map.mp member
  have key : runIndex ∈ before.data.sortedKeys :=
    Dict.mem_sortedKeys.mpr (List.mem_map.mpr ⟨_, present, rfl⟩)
  obtain ⟨entry, main, batch, located, held, read⟩ := findWaitingIndex_none found _ key
  have same := (Dict.mem_entries_iff.mp present).symm.trans located
  cases same
  simp [held, read, Slot.isTruthy]

/-! ### Runs of deliveries to one node -/

/-- The execution data with the batches delivered so far. -/
structure DeliveryState (Item : Type) where
  execution : ExecutionData Item
  delivered : List (Placed Item)

variable {state next : DeliveryState Item} {call : Call Item}

section DeliveryRuns

variable [Inhabited Item] (workflow : Workflow) (nodeName : String)
variable (initialStack : List (IExecuteData Item))

/-- The waiting area is empty. -/
def DeliveryState.start : DeliveryState Item :=
  ⟨⟨initialStack, .empty, some .empty⟩, []⟩

/-- A call that brings data to a main input of the node. Its effects stay when it throws. -/
def deliver (state : DeliveryState Item) (call : Call Item) : Option (DeliveryState Item) :=
  if Delivers workflow nodeName call.delivery then
    some
      {
        execution :=
          (addNodeToBeExecuted workflow call.runData call.delivery).after state.execution
        delivered := call.delivery.placed :: state.delivered
      }
  else none

/-- Each batch delivered is once in an item pushed for the node or once in the waiting
area, at its input index and with its source record, and no other batch is there.
-/
def BatchesKept (state : DeliveryState Item) : Prop :=
  ∃ pushed,
    state.execution.nodeExecutionStack = pushed ++ initialStack
    ∧ (∀ item ∈ pushed, item.node = workflow.getNode nodeName)
    ∧ (pushedBatches pushed ++ waitingBatches (state.execution.tables nodeName)).Perm
        state.delivered

/-- When all waiting entries of the node have data for the input, no entry uses the number
of entries as its run index.
-/
def CountIsUnused (state : DeliveryState Item) (call : Call Item) : Prop :=
  (∀ entry ∈ (state.execution.table nodeName).values,
    (Slot.read ((entry.get? .main).getD []) call.delivery.connectionData.index).isTruthy
      = true)
  → (state.execution.table nodeName).values.length
    ∉ (state.execution.table nodeName).keys

/-- What holds of the execution data in every reachable state, clash or not. -/
structure Reachable (state : DeliveryState Item) : Prop where
  matched : state.execution.MatchedAt nodeName
  formed
    : WellFormed (workflow.mainInputs nodeName).length (state.execution.tables nodeName)

variable {workflow nodeName initialStack}

omit [Inhabited Item] in
theorem reachable_start
    : Reachable workflow nodeName
        (DeliveryState.start initialStack) where
  matched := ⟨rfl, Tables.matched_empty⟩
  formed := by
    intro runIndex entry found
    simp [DeliveryState.start, tables, table] at found

section

variable (v1 : workflow.settings.executionOrder = some .v1)
  (several : 1 < (workflow.mainInputs nodeName).length)
  (reachable : Reachable workflow nodeName state)

include v1 several reachable

/-- One call of a run, described by the batches before and after it. -/
theorem deliver_batches (taken : deliver workflow nodeName state call = some next)
    : Reachable workflow nodeName next
      ∧ next.delivered = call.delivery.placed :: state.delivered
      ∧ ∃ items runIndex chosen,
          next.execution.nodeExecutionStack = items ++ state.execution.nodeExecutionStack
          ∧ (∀ item ∈ items, item.node = workflow.getNode nodeName)
          ∧ Chosen (workflow.mainInputs nodeName).length call.delivery.connectionData.index
              (state.execution.tables nodeName) runIndex chosen
          ∧ (pushedBatches items ++ waitingBatches (next.execution.tables nodeName)).Perm
              (call.delivery.placed :: waitingBatches chosen) := by
  by_cases delivers : Delivers workflow nodeName call.delivery
  · have same := taken.symm.trans (if_pos delivers)
    cases same
    obtain ⟨rfl, input, data⟩ := delivers
    have arrived := deliverToWaiting_arrived v1 call.runData call.delivery reachable.matched
    have whole : addNodeToBeExecuted workflow call.runData call.delivery
        = deliverToWaiting workflow call.runData call.delivery := if_pos several
    rw [whole]
    obtain ⟨formed, batches⟩ := arrived.arrival.batches ⟨rfl, input, data⟩ reachable.formed
    exact ⟨⟨arrived.matched, formed⟩, rfl, batches⟩
  · simp [deliver, delivers] at taken

/-- A call that opens its new entries at unused run indexes loses no batch. -/
theorem deliver_batchesKept
    (kept : BatchesKept workflow nodeName initialStack state)
    (unused : CountIsUnused nodeName state call)
    (taken : deliver workflow nodeName state call = some next)
    : BatchesKept workflow nodeName initialStack next := by
  obtain ⟨_, delivered, items, runIndex, chosen, stack, nodes, choice, batches⟩ :=
    deliver_batches v1 several reachable taken
  obtain ⟨pushed, stackBefore, nodesBefore, perm⟩ := kept
  refine ⟨items ++ pushed, by rw [stack, stackBefore, List.append_assoc], ?_, ?_⟩
  · intro item member
    exact (List.mem_append.mp member).elim (nodes item) (nodesBefore item)
  · have same
        : (waitingBatches chosen).Perm
            (waitingBatches (state.execution.tables nodeName)) := by
      rcases choice.batches with ⟨_, rfl⟩ | ⟨rfl, found, displaced⟩
      · exact .rfl
      · have absent := Dict.get?_eq_none_iff.mpr (unused (values_filled found))
        exact displaced.trans (.of_eq (waitingBatches_delete_of_none absent))
    have total := batches.trans (same.cons call.delivery.placed)
    have grouped
        : (pushedBatches (items ++ pushed)
            ++ waitingBatches (next.execution.tables nodeName)).Perm
              (pushedBatches pushed
                ++ (pushedBatches items
                  ++ waitingBatches (next.execution.tables nodeName))) := by
      simp only [pushedBatches, List.flatMap_append, List.append_assoc]
      exact List.perm_append_comm_assoc _ _ _
    rw [delivered]
    exact grouped.trans ((total.append_left _).trans
      (List.perm_middle.trans (perm.cons call.delivery.placed)))

/-- A call that takes the run index of a waiting entry loses the batches of that entry. -/
theorem countIsUnused_of_batchesKept
    (kept : BatchesKept workflow nodeName initialStack state)
    (taken : deliver workflow nodeName state call = some next)
    (keptNext : BatchesKept workflow nodeName initialStack next)
    : CountIsUnused nodeName state call := by
  intro all clash
  obtain ⟨_, delivered, items, runIndex, chosen, stack, _, choice, batches⟩ :=
    deliver_batches v1 several reachable taken
  obtain ⟨pushed, stackBefore, _, perm⟩ := kept
  obtain ⟨pushedNext, stackNext, _, permNext⟩ := keptNext
  have grown : pushedNext = items ++ pushed := by
    have whole : pushedNext ++ initialStack = (items ++ pushed) ++ initialStack := by
      rw [← stackNext, stack, stackBefore, List.append_assoc]
    exact List.append_cancel_right whole
  subst grown
  have fresh := choice.fresh_of_all all
  rcases choice.batches with ⟨found, _⟩ | ⟨rfl, _, displaced⟩
  · simp [fresh] at found
  · obtain ⟨entry, found⟩ := Dict.exists_get?_of_mem_keys clash
    have parts := (waitingBatches_split (state.execution.tables nodeName) found).length_eq
    have lost := reachable.formed.batches_pos found
      (((state.execution.tables nodeName).source.get?
        (state.execution.table nodeName).values.length).getD .empty)
    have remaining := displaced.length_eq
    have written := batches.length_eq
    have before := perm.length_eq
    have after := permNext.length_eq
    simp only [delivered, pushedBatches, List.flatMap_append, List.length_append,
      List.length_cons, tables] at *
    omega

end

end DeliveryRuns

/-- A node `Merge` with two inputs, the first from `A` and the second from `B`. -/
def mergeWorkflow : Workflow where
  nodes :=
    ((Dict.empty.set "A" ⟨"1", "A", "set", false⟩).set "B" ⟨"2", "B", "set", false⟩).set
      "Merge" ⟨"3", "Merge", "set", false⟩
  connectionsBySourceNode :=
    (Dict.empty.set "A" (Dict.empty.set .main [some [⟨"Merge", .main, 0⟩]])).set "B"
      (Dict.empty.set .main [some [⟨"Merge", .main, 1⟩]])
  connectionsByDestinationNode :=
    Dict.empty.set "Merge"
      (Dict.empty.set .main [some [⟨"A", .main, 0⟩], some [⟨"B", .main, 0⟩]])
  settings := ⟨some .v1⟩

/-- The batch `[item]` for an input of `Merge`. -/
def mergeCall (parentNodeName : String) (inputIndex runIndex item : Nat) : Call Nat where
  runData := .empty
  delivery :=
    {
      connectionData := ⟨"Merge", .main, inputIndex⟩
      outputIndex := 0
      parentNodeName
      nodeSuccessData := some [.value [item]]
      runIndex
      newRunIndex := none
      metadata := none
    }

/-- Two batches open two entries, a third completes the first entry, and the fourth opens an
entry where the second one still waits.
-/
def displacingCalls : List (Call Nat) :=
  [mergeCall "A" 0 0 1, mergeCall "A" 0 1 2, mergeCall "B" 1 0 3, mergeCall "A" 0 2 4]

end N8n.Engine
