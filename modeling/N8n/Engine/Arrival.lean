import N8n.Engine.AddNodeToBeExecuted

/-! What one delivery does to the waiting area and the stack in execution order v1.
All facts about runs of deliveries are derived from this description.
-/

namespace N8n.Engine

variable {Item : Type}

/-- The waiting tables of one node: its data and the sources of the data. -/
structure Tables (Item : Type) where
  data : Dict Nat (ITaskDataConnections Item)
  source : Dict Nat ITaskDataConnectionsSource

namespace Tables

def set (self : Tables Item) (runIndex : Nat) (entry : ITaskDataConnections Item)
    (source : ITaskDataConnectionsSource)
    : Tables Item :=
  ⟨self.data.set runIndex entry, self.source.set runIndex source⟩

def delete (self : Tables Item) (runIndex : Nat) : Tables Item :=
  ⟨self.data.delete runIndex, self.source.delete runIndex⟩

/-- Every data entry has a source entry, and either both hold a `main` array or none. -/
def Matched (self : Tables Item) : Prop :=
  ∀ runIndex,
    (self.data.get? runIndex).map (fun entry => (entry.get? .main).isSome)
      = (self.source.get? runIndex).map (fun entry => (entry.get? .main).isSome)

theorem matched_empty : (⟨.empty, .empty⟩ : Tables Item).Matched := fun _ => rfl

variable {self : Tables Item}

section

variable (matched : self.Matched)

include matched

theorem Matched.set (runIndex : Nat) (entry : ITaskDataConnections Item)
    (source : ITaskDataConnectionsSource)
    (same : (entry.get? .main).isSome = (source.get? .main).isSome)
    : (self.set runIndex entry source).Matched := by
  intro other
  by_cases equal : other = runIndex <;>
    simp [Tables.set, Dict.get?_set, equal, same, matched other]

theorem Matched.delete (runIndex : Nat)
    : (self.delete runIndex).Matched := by
  intro other
  by_cases equal : other = runIndex <;>
    simp [Tables.delete, Dict.get?_delete, equal, matched other]

/-- A data entry with a `main` array comes with a source entry that has one. -/
theorem Matched.source_of_data {runIndex : Nat} {entry : ITaskDataConnections Item}
    {main : List (Slot (List Item))} (found : self.data.get? runIndex = some entry)
    (held : entry.get? .main = some main)
    : ∃ source sourceMain,
        self.source.get? runIndex = some source ∧ source.get? .main = some sourceMain := by
  have same := matched runIndex
  simp only [found, Option.map_some, held, Option.isSome_some] at same
  obtain ⟨source, located, present⟩ := Option.map_eq_some_iff.mp same.symm
  obtain ⟨sourceMain, held⟩ := Option.isSome_iff_exists.mp present
  exact ⟨source, sourceMain, located, held⟩

theorem Matched.mem_keys_iff {runIndex : Nat}
    : runIndex ∈ self.data.keys ↔ runIndex ∈ self.source.keys := by
  rw [← not_iff_not, ← Dict.get?_eq_none_iff, ← Dict.get?_eq_none_iff]
  have same := matched runIndex
  cases data : self.data.get? runIndex <;> cases source : self.source.get? runIndex <;>
    simp [data, source] at same ⊢

end

end Tables

namespace ExecutionData

@[simp] theorem sources_some (stack : List (IExecuteData Item))
    (waiting : IWaitingForExecution Item) (sources : IWaitingForExecutionSource)
    : ExecutionData.sources ⟨stack, waiting, some sources⟩ = sources := rfl

/-- The tables of a node, empty where it does not wait. -/
def tables (self : ExecutionData Item) (nodeName : String) : Tables Item :=
  ⟨self.table nodeName, (self.sources.get? nodeName).getD .empty⟩

/-- The two waiting tables have the same nodes, run indexes and `main` arrays. -/
structure MatchedAt (state : ExecutionData Item) (nodeName : String) : Prop where
  nodes
    : (state.waitingExecution.get? nodeName).isSome
      = (state.sources.get? nodeName).isSome
  tables : (state.tables nodeName).Matched

/-- The node waits, with the given tables. -/
def Waits (self : ExecutionData Item) (nodeName : String) (tables : Tables Item) : Prop :=
  self.waitingExecution.get? nodeName = some tables.data
  ∧ self.sources.get? nodeName = some tables.source

variable {nodeName : String} {self : ExecutionData Item} {tables : Tables Item}

theorem Waits.tables_eq (waits : self.Waits nodeName tables)
    : self.tables nodeName = tables := by
  simp [ExecutionData.tables, table, waits.1, waits.2]

theorem Waits.table_eq (waits : self.Waits nodeName tables)
    : self.table nodeName = tables.data := by
  simp [table, waits.1]

/-- The waiting area of all other nodes is the same. -/
def SameElsewhere (before after : ExecutionData Item) (nodeName : String) : Prop :=
  ∀ other, other ≠ nodeName →
    after.waitingExecution.get? other = before.waitingExecution.get? other
    ∧ after.sources.get? other = before.sources.get? other

theorem SameElsewhere.refl (self : ExecutionData Item) (nodeName : String)
    : SameElsewhere self self nodeName :=
  fun _ _ => ⟨rfl, rfl⟩

theorem SameElsewhere.trans {first second third : ExecutionData Item}
    (early : SameElsewhere first second nodeName) (late : SameElsewhere second third nodeName)
    : SameElsewhere first third nodeName :=
  fun other differ =>
    ⟨(late other differ).1.trans (early other differ).1,
      (late other differ).2.trans (early other differ).2⟩

end ExecutionData

open ExecutionData

/-! ### The inputs of a node that starts to wait are left alone in order v1 -/

theorem orThrow_unchanged {α : Type} (value : Option α) (self : ExecutionData Item)
    : (orThrow value : EngineM Item α).Ensures self
        (fun _ final => final = self) (fun final => final = self) := by
  cases value <;> rfl

theorem orThrow_ensures {α : Type} {value : Option α} {a : α} {self : ExecutionData Item}
    {good : α → ExecutionData Item → Prop} {bad : ExecutionData Item → Prop}
    (defined : value = some a) (h : good a self)
    : (orThrow value : EngineM Item α).Ensures self good bad := by
  subst defined
  exact .pure h

theorem stackNames_unchanged (self : ExecutionData Item)
    : (stackNames : EngineM Item (List String)).Ensures self
        (fun _ final => final = self) (fun final => final = self) := by
  refine .bind (.get ?_)
  generalize self.nodeExecutionStack = stack
  induction stack with
  | nil => exact .pure rfl
  | cons item rest ih =>
      rw [List.mapM_cons]
      refine .bind ((orThrow_unchanged _ self).mono ?_ (fun _ same => same))
      rintro name _ rfl
      refine .bind (ih.mono ?_ (fun _ same => same))
      rintro names _ rfl
      exact .pure rfl

theorem isEmptyIncoming_unchanged (workflow : Workflow) (runData : IRunData Item)
    (runIndex : Nat) (nodeName : String) (self : ExecutionData Item)
    : (isEmptyIncoming workflow runData runIndex nodeName).Ensures self
        (fun _ final => final = self) (fun final => final = self) := by
  refine .bind (.bind ((orThrow_unchanged _ self).mono ?_
    (fun _ same => same)))
  rintro connections _ rfl
  refine .bind ((orThrow_unchanged _ _).mono ?_ (fun _ same => same))
  rintro main _ rfl
  refine .pure ?_
  split <;> rfl

variable {workflow : Workflow}

section

variable (v1 : workflow.settings.executionOrder = some .v1) (runData : IRunData Item)
  (delivery : Delivery Item)

include v1 runData delivery

theorem addUnprocessedInput_unchanged [Inhabited Item] (checkOutputNodes : List String)
    (inputData : IConnection) (self : ExecutionData Item)
    : (addUnprocessedInput workflow runData delivery checkOutputNodes inputData).Ensures
        self (fun _ final => final = self) (fun final => final = self) := by
  unfold addUnprocessedInput
  split
  · exact .pure rfl
  · refine .bind ((stackNames_unchanged self).mono ?_ (fun _ same => same))
    rintro executionStackNodes _ rfl
    have stops : isLegacyExecutionOrder workflow = false := by
      simp [isLegacyExecutionOrder, v1]
    simp only [stops, Bool.not_false, Bool.or_true, if_true]
    split
    · refine .bind ((isEmptyIncoming_unchanged workflow runData _ _ _).mono ?_
        (fun _ same => same))
      rintro isEmpty _ rfl
      exact .pure rfl
    · exact .pure rfl

theorem addUnprocessedInputs_unchanged [Inhabited Item] (self : ExecutionData Item)
    : (addUnprocessedInputs workflow runData delivery).Ensures
        self (fun _ final => final = self) (fun final => final = self) := by
  refine .bind ((orThrow_unchanged _ self).mono ?_ (fun _ same => same))
  rintro parentConnections _ rfl
  exact .forM (fun inputData _ =>
    addUnprocessedInput_unchanged v1 runData delivery _ inputData _)

end

/-! ### Assignments into the waiting area -/

theorem get?_setEntry {α : Type} (waiting : WaitingFor α) (nodeName other : String)
    (runIndex : Nat) (entry : Dict NodeConnectionType (List (Slot α)))
    : (setEntry waiting nodeName runIndex entry).get? other
      = if other = nodeName then
          some (((waiting.get? nodeName).getD .empty).set runIndex entry)
        else waiting.get? other :=
  Dict.get?_set waiting nodeName other _

variable {nodeName : String}

theorem get?_setMain {α : Type} {waiting : WaitingFor α}
    {runs : Dict Nat (Dict NodeConnectionType (List (Slot α)))} {runIndex : Nat}
    {entry : Dict NodeConnectionType (List (Slot α))} (slots : List (Slot α))
    (found : waiting.get? nodeName = some runs) (located : runs.get? runIndex = some entry)
    (other : String)
    : (setMain waiting nodeName runIndex slots).get? other
      = if other = nodeName then some (runs.set runIndex (entry.set .main slots))
        else waiting.get? other := by
  simp [setMain, found, located, get?_setEntry]

theorem array?_of_get? {α : Type} {waiting : WaitingFor α}
    {runs : Dict Nat (Dict NodeConnectionType (List (Slot α)))} {runIndex : Nat}
    {entry : Dict NodeConnectionType (List (Slot α))} (found : waiting.get? nodeName = some runs)
    (located : runs.get? runIndex = some entry) (inputType : NodeConnectionType)
    : waiting.array? nodeName runIndex inputType = entry.get? inputType := by
  simp [WaitingFor.array?, found, located]

theorem get?_deleteEntry {α : Type} {waiting : WaitingFor α}
    {runs : Dict Nat (Dict NodeConnectionType (List (Slot α)))} (runIndex : Nat) (lastOne : Bool)
    (found : waiting.get? nodeName = some runs) (other : String)
    : (deleteEntry waiting nodeName runIndex lastOne).get? other
      = if other = nodeName then
          if lastOne then none else some (runs.delete runIndex)
        else waiting.get? other := by
  by_cases last : lastOne <;> simp [deleteEntry, last, found, Dict.get?_delete, Dict.get?_set]

/-! ### The steps of a delivery to a waiting node -/

variable {self : ExecutionData Item} {nodeName : String} {tables : Tables Item}

/-- Afterwards the node waits with its tables of before, and nothing else changed. -/
theorem openWaiting_ensures (matched : self.MatchedAt nodeName)
    : (openWaiting nodeName).Ensures self
        (fun nodeWasWaiting opened =>
          opened.Waits nodeName (self.tables nodeName)
          ∧ opened.nodeExecutionStack = self.nodeExecutionStack
          ∧ SameElsewhere self opened nodeName
          ∧ (nodeWasWaiting = false → self.tables nodeName = ⟨.empty, .empty⟩))
        (fun _ => False) := by
  refine .bind (.update ?_)
  refine .bind (.get ?_)
  have nodes := matched.nodes
  cases found : self.waitingExecution.get? nodeName with
  | some data =>
      simp only [found, Option.isSome_some] at nodes ⊢
      obtain ⟨source, located⟩ := Option.isSome_iff_exists.mp nodes.symm
      refine .pure ⟨⟨?_, ?_⟩, rfl, fun _ _ => ⟨rfl, rfl⟩, by simp⟩
      · simp [ExecutionData.tables, table, found]
      · exact located.trans (by simp [ExecutionData.tables, located])
  | none =>
      simp only [found, Option.isSome_none, Bool.false_eq_true, if_false] at nodes ⊢
      have absent : self.sources.get? nodeName = none := by simpa using nodes.symm
      refine .bind (.update (.pure ⟨?_, rfl, ?_, ?_⟩))
      · constructor
        · simp [ExecutionData.tables, table, found]
        · simp only [ExecutionData.tables, absent, Option.getD_none]
          exact Dict.get?_set_self _ nodeName Dict.empty
      · intro other differ
        simp [Dict.get?_set_of_ne _ _ differ, sources]
      · simp [ExecutionData.tables, table, found, absent]

/-- The entry that a delivery to an input goes to, with the tables that hold it. -/
inductive Chosen (numberOfInputs inputIndex : Nat) (tables : Tables Item)
    : Nat → Tables Item → Prop
  | reuse {runIndex}
    (found
      : findWaitingIndex inputIndex tables.data tables.data.sortedKeys = .ok (some runIndex))
    : Chosen numberOfInputs inputIndex tables runIndex tables
  | fresh
    (found : findWaitingIndex inputIndex tables.data tables.data.sortedKeys = .ok none)
    : Chosen numberOfInputs inputIndex tables tables.data.values.length
        (tables.set tables.data.values.length
          (Dict.empty.set .main (List.replicate numberOfInputs .null))
          (Dict.empty.set .main (List.replicate numberOfInputs .null)))

theorem Chosen.matched {numberOfInputs inputIndex runIndex : Nat} {chosen : Tables Item}
    (choice : Chosen numberOfInputs inputIndex tables runIndex chosen)
    (matched : tables.Matched)
    : chosen.Matched := by
  cases choice with
  | reuse _ => exact matched
  | fresh _ => exact matched.set _ _ _ (by simp)

theorem prepareWaiting_waits (waits : self.Waits nodeName tables)
    (numberOfConnections runIndex : Nat)
    : (prepareWaitingToExecution nodeName numberOfConnections runIndex self).Waits nodeName
        (tables.set runIndex
          (Dict.empty.set .main (List.replicate numberOfConnections .null))
          (Dict.empty.set .main (List.replicate numberOfConnections .null))) := by
  constructor
  · simp [prepareWaitingToExecution, get?_setEntry, waits.1, Tables.set]
  · simp only [prepareWaitingToExecution, sources, Option.getD_some, get?_setEntry, if_true]
    simpa [sources, Tables.set] using congrArg (fun found => (found.getD .empty).set runIndex
      (Dict.empty.set .main (List.replicate numberOfConnections .null))) waits.2

/-- The stack item made of a complete waiting entry. -/
def waitingItem (workflow : Workflow) (nodeName : String)
    (entry : ITaskDataConnections Item) (source : ITaskDataConnectionsSource)
    : IExecuteData Item where
  data := entry
  metadata := none
  node := workflow.getNode nodeName
  source := some source
  runIndex := none

theorem prepareWaiting_sameElsewhere (self : ExecutionData Item) (nodeName : String)
    (numberOfConnections runIndex : Nat)
    : SameElsewhere self
        (prepareWaitingToExecution nodeName numberOfConnections runIndex self)
        nodeName := by
  intro other differ
  simp [prepareWaitingToExecution, sources, get?_setEntry, differ]

/-- A new entry is made only when no entry is open; the loop over the entries throws when
it meets one without `main`, before anything is changed.
-/
theorem chooseEntry_ensures (waits : self.Waits nodeName tables)
    (numberOfInputs inputIndex : Nat)
    : (chooseEntry nodeName numberOfInputs inputIndex).Ensures self
        (fun runIndex final =>
          ∃ chosen,
            Chosen numberOfInputs inputIndex tables runIndex chosen
            ∧ final.Waits nodeName chosen
            ∧ final.nodeExecutionStack = self.nodeExecutionStack
            ∧ SameElsewhere self final nodeName)
        (fun final =>
          final = self
          ∧ ∃ error,
              findWaitingIndex inputIndex tables.data tables.data.sortedKeys
                = .error error) := by
  refine .bind (.get ?_)
  dsimp only
  rw [waits.table_eq]
  split
  · next error thrown => exact .throw ⟨rfl, error, thrown⟩
  · next runIndex found =>
      exact .pure ⟨tables, .reuse found, waits, rfl, .refl self nodeName⟩
  · next found =>
      refine .bind (.update (.pure ?_))
      exact ⟨_, .fresh found, prepareWaiting_waits waits _ _, rfl,
        prepareWaiting_sameElsewhere self nodeName _ _⟩

variable {source : ITaskDataConnectionsSource} {sourceMain : List (Slot ISourceData)}

section

variable (waits : self.Waits nodeName tables)

include waits

/-- Data and source are written to the same slot of the entry. -/
theorem addData_ensures {runIndex : Nat} {entry : ITaskDataConnections Item}
    {main : List (Slot (List Item))} (found : tables.data.get? runIndex = some entry)
    (located : tables.source.get? runIndex = some source) (held : entry.get? .main = some main)
    (sourceHeld : source.get? .main = some sourceMain) (inputIndex : Nat) (batch : Slot (List Item))
    (sourceData : Slot ISourceData)
    : (addData nodeName runIndex inputIndex batch sourceData).Ensures self
        (fun written final =>
          written
            = (Slot.write main inputIndex batch, Slot.write sourceMain inputIndex sourceData)
          ∧ final.Waits nodeName
              (tables.set runIndex
                (entry.set .main (Slot.write main inputIndex batch))
                (source.set .main (Slot.write sourceMain inputIndex sourceData)))
          ∧ final.nodeExecutionStack = self.nodeExecutionStack
          ∧ SameElsewhere self final nodeName)
        (fun _ => False) := by
  have mainRead : self.main? nodeName runIndex = some main :=
    (array?_of_get? waits.1 found .main).trans held
  have sourceRead : self.sourceMain? nodeName runIndex = some sourceMain :=
    (array?_of_get? waits.2 located .main).trans sourceHeld
  unfold addData
  refine .bind (.get ?_)
  refine .bind (orThrow_ensures mainRead ?_)
  refine .bind (.update ?_)
  refine .bind (.get ?_)
  refine .bind (orThrow_ensures sourceRead ?_)
  refine .bind (.update ?_)
  have assigned := get?_setMain (Slot.write sourceMain inputIndex sourceData) waits.2 located
  refine .pure ⟨rfl, ⟨?_, ?_⟩, rfl, ?_⟩
  · simp [get?_setMain _ waits.1 found, Tables.set]
  · exact (assigned nodeName).trans (if_pos rfl)
  · intro other differ
    exact ⟨by simp [get?_setMain _ waits.1 found, differ],
      (assigned other).trans (if_neg differ)⟩

theorem ExecutionData.Waits.matchedAt (matched : tables.Matched)
    : self.MatchedAt nodeName where
  nodes := by simp [waits.1, waits.2]
  tables := waits.tables_eq ▸ matched

/-- Deleting an entry in both tables, and the node with its last entry, deletes it in the
tables of the node.
-/
theorem deleteEntries_tables (matched : tables.Matched) (runIndex : Nat)
    (stack : List (IExecuteData Item)) {final : ExecutionData Item}
    (deleted
      : final
        = ⟨
            stack,
            deleteEntry self.waitingExecution nodeName runIndex
              (tables.data.delete runIndex).keys.isEmpty,
            some (deleteEntry self.sources nodeName runIndex
              (tables.data.delete runIndex).keys.isEmpty)
          ⟩)
    : final.tables nodeName = tables.delete runIndex ∧ final.MatchedAt nodeName := by
  have rest := matched.delete runIndex
  have data := get?_deleteEntry runIndex (tables.data.delete runIndex).keys.isEmpty waits.1
    nodeName
  have source := get?_deleteEntry runIndex (tables.data.delete runIndex).keys.isEmpty waits.2
    nodeName
  subst deleted
  cases remaining : (tables.data.delete runIndex).keys with
  | nil =>
      have sourceEmpty : (tables.source.delete runIndex).keys = [] := by
        apply List.eq_nil_iff_forall_not_mem.mpr
        intro other member
        have present := rest.mem_keys_iff.mpr member
        simp [Tables.delete, remaining] at present
      simp only [remaining, List.isEmpty_nil, if_true] at data source
      have same : (⟨.empty, .empty⟩ : Tables Item) = tables.delete runIndex := by
        simp [Tables.delete, Dict.eq_empty_of_keys remaining,
          Dict.eq_empty_of_keys sourceEmpty]
      simp only [List.isEmpty_nil]
      refine ⟨?_, ?_, ?_⟩
      · simp [ExecutionData.tables, table, data, source, same]
      · simp [data, source]
      · simpa [ExecutionData.tables, table, data, source] using Tables.matched_empty
  | cons first others =>
      simp only [remaining, List.isEmpty_cons, if_true] at data source
      have waitsOn : ExecutionData.Waits
          (⟨
            stack,
            deleteEntry self.waitingExecution nodeName runIndex false,
            some (deleteEntry self.sources nodeName runIndex false)
          ⟩ : ExecutionData Item)
          nodeName (tables.delete runIndex) :=
        ⟨data, source⟩
      exact ⟨waitsOn.tables_eq, waitsOn.matchedAt rest⟩

end

/-- The complete entry leaves the waiting area for the top of the stack. -/
theorem pushEntry_ensures (v1 : workflow.settings.executionOrder = some .v1)
    (waits : self.Waits nodeName tables) (matched : tables.Matched) {runIndex : Nat}
    {entry : ITaskDataConnections Item} (found : tables.data.get? runIndex = some entry)
    (located : tables.source.get? runIndex = some source)
    : (pushEntry workflow nodeName runIndex).Ensures self
        (fun _ final =>
          (final.tables nodeName = tables.delete runIndex ∧ final.MatchedAt nodeName)
          ∧ final.nodeExecutionStack
            = waitingItem workflow nodeName entry source :: self.nodeExecutionStack
          ∧ SameElsewhere self final nodeName)
        (fun _ => False) := by
  refine .update ?_
  simp only [waits.table_eq, waits.2, found, located, Option.getD_some, Option.bind_some,
    enqueue, v1, if_true]
  refine ⟨deleteEntries_tables waits matched runIndex _ rfl, rfl, ?_⟩
  intro other differ
  exact ⟨by simp [get?_deleteEntry _ _ waits.1, differ],
    (get?_deleteEntry _ _ waits.2 other).trans (if_neg differ)⟩

/-- The incomplete entry is stored again, its `main` array alone. -/
theorem storeEntry_ensures (waits : self.Waits nodeName tables) {runIndex : Nat}
    (located : tables.source.get? runIndex = some source)
    (sourceHeld : source.get? .main = some sourceMain) (numberOfInputs : Nat)
    (main : List (Slot (List Item)))
    : (storeEntry nodeName numberOfInputs runIndex main).Ensures self
        (fun _ final =>
          final.Waits nodeName
            (tables.set runIndex (Dict.empty.set .main main)
              (Dict.empty.set .main sourceMain))
          ∧ final.nodeExecutionStack = self.nodeExecutionStack
          ∧ SameElsewhere self final nodeName)
        (fun _ => False) := by
  have sourceRead : self.sourceMain? nodeName runIndex = some sourceMain :=
    (array?_of_get? waits.2 located .main).trans sourceHeld
  refine .bind (.get ?_)
  refine .bind (orThrow_ensures sourceRead ?_)
  refine .bind (.update (.update ?_))
  have prepared := prepareWaiting_waits waits numberOfInputs runIndex
  have elsewhere := prepareWaiting_sameElsewhere self nodeName numberOfInputs runIndex
  have assigned := get?_setMain sourceMain prepared.2
    (Dict.get?_set_self tables.source runIndex _)
  refine ⟨⟨?_, ?_⟩, rfl, ?_⟩
  · simp [get?_setEntry, prepared.1, Tables.set, Dict.set_set]
  · exact (assigned nodeName).trans (by simp [Tables.set, Dict.set_set])
  · intro other differ
    exact ⟨(get?_setEntry _ nodeName other runIndex _).trans
        ((if_neg differ).trans (elsewhere other differ).1),
      (assigned other).trans ((if_neg differ).trans (elsewhere other differ).2)⟩

/-! ### The whole delivery -/

variable {inputIndex : Nat} {table : Dict Nat (ITaskDataConnections Item)} {indexes : List Nat}

theorem findWaitingIndex_some {runIndex : Nat}
    (found : findWaitingIndex inputIndex table indexes = .ok (some runIndex))
    : runIndex ∈ indexes
      ∧ ∃ entry main,
          table.get? runIndex = some entry
          ∧ entry.get? .main = some main
          ∧ (Slot.read main inputIndex).isTruthy = false := by
  induction indexes with
  | nil => simp [findWaitingIndex] at found
  | cons index rest ih =>
      cases held : (table.get? index).bind (fun entry => entry.get? .main) with
      | none => simp [findWaitingIndex, held] at found
      | some main =>
          cases filled : (Slot.read main inputIndex).isTruthy with
          | true =>
              obtain ⟨member, facts⟩ := ih (by simpa [findWaitingIndex, held, filled] using found)
              exact ⟨List.mem_cons_of_mem index member, facts⟩
          | false =>
              have same : index = runIndex := by
                simpa [findWaitingIndex, held, filled] using found
              subst same
              obtain ⟨entry, located, mainHeld⟩ := Option.bind_eq_some_iff.mp held
              exact ⟨(.head _), entry, main, located, mainHeld, filled⟩

theorem findWaitingIndex_none (found : findWaitingIndex inputIndex table indexes = .ok none)
    : ∀ index ∈ indexes, ∃ entry main batch,
        table.get? index = some entry
        ∧ entry.get? .main = some main
        ∧ Slot.read main inputIndex = .value batch := by
  induction indexes with
  | nil => simp
  | cons index rest ih =>
      cases held : (table.get? index).bind (fun entry => entry.get? .main) with
      | none => simp [findWaitingIndex, held] at found
      | some main =>
          cases filled : (Slot.read main inputIndex).isTruthy with
          | false => simp [findWaitingIndex, held, filled] at found
          | true =>
              have later := ih (by simpa [findWaitingIndex, held, filled] using found)
              obtain ⟨entry, located, mainHeld⟩ := Option.bind_eq_some_iff.mp held
              obtain ⟨batch, full⟩ := Slot.isTruthy_iff.mp filled
              exact List.forall_mem_cons.mpr
                ⟨⟨entry, main, batch, located, mainHeld, full⟩, later⟩

/-- The chosen entry has arrays, and the one for the data lacks data for the input. -/
theorem Chosen.entry {numberOfInputs inputIndex runIndex : Nat} {chosen : Tables Item}
    (choice : Chosen numberOfInputs inputIndex tables runIndex chosen)
    (matched : tables.Matched)
    : ∃ entry source main sourceMain,
        chosen.data.get? runIndex = some entry
        ∧ chosen.source.get? runIndex = some source
        ∧ entry.get? .main = some main
        ∧ source.get? .main = some sourceMain
        ∧ (Slot.read main inputIndex).isTruthy = false := by
  have chosenMatched := choice.matched matched
  cases choice with
  | reuse found =>
      obtain ⟨_, entry, main, located, held, missing⟩ := findWaitingIndex_some found
      obtain ⟨source, sourceMain, sourceLocated, sourceHeld⟩ :=
        matched.source_of_data located held
      exact ⟨entry, source, main, sourceMain, located, sourceLocated, held, sourceHeld,
        missing⟩
  | fresh _ =>
      refine ⟨_, _, _, _, Dict.get?_set_self _ _ _, Dict.get?_set_self _ _ _,
        Dict.get?_set_self _ _ _, Dict.get?_set_self _ _ _, ?_⟩
      rw [Slot.read_replicate_null]
      split <;> rfl

/-- What one delivery does to the tables of its node and to the stack. The first case is
an entry of a partial execution without a `main` array, over which the delivery throws.
-/
inductive Arrival (workflow : Workflow) (delivery : Delivery Item) (before : Tables Item)
    (stack : List (IExecuteData Item))
    : Tables Item → List (IExecuteData Item) → Prop
  | unreadable {error}
    (thrown
      : findWaitingIndex delivery.connectionData.index before.data before.data.sortedKeys
        = .error error)
    : Arrival workflow delivery before stack before stack
  | complete {runIndex chosen entry source main sourceMain}
    (choice
      : Chosen (workflow.mainInputs delivery.connectionData.node).length
          delivery.connectionData.index before runIndex chosen)
    (found : chosen.data.get? runIndex = some entry)
    (located : chosen.source.get? runIndex = some source)
    (held : entry.get? .main = some main) (sourceHeld : source.get? .main = some sourceMain)
    (missing : (Slot.read main delivery.connectionData.index).isTruthy = false)
    (all
      : allDataFound (Slot.write main delivery.connectionData.index delivery.batch) = true)
    : Arrival workflow delivery before stack
        (chosen.delete runIndex)
        (waitingItem workflow delivery.connectionData.node
            (entry.set .main
              (Slot.write main delivery.connectionData.index delivery.batch))
            (source.set .main
              (Slot.write sourceMain delivery.connectionData.index delivery.source))
          :: stack)
  | incomplete {runIndex chosen entry source main sourceMain stored storedSource}
    (choice
      : Chosen (workflow.mainInputs delivery.connectionData.node).length
          delivery.connectionData.index before runIndex chosen)
    (found : chosen.data.get? runIndex = some entry)
    (located : chosen.source.get? runIndex = some source)
    (held : entry.get? .main = some main) (sourceHeld : source.get? .main = some sourceMain)
    (missing : (Slot.read main delivery.connectionData.index).isTruthy = false)
    (notAll
      : allDataFound (Slot.write main delivery.connectionData.index delivery.batch) = false)
    (storedHeld
      : stored.get? .main
        = some (Slot.write main delivery.connectionData.index delivery.batch))
    (storedSourceHeld
      : storedSource.get? .main
        = some (Slot.write sourceMain delivery.connectionData.index delivery.source))
    : Arrival workflow delivery before stack (chosen.set runIndex stored storedSource) stack

/-- `Arrival` together with what the delivery leaves alone. -/
structure Arrived (workflow : Workflow) (delivery : Delivery Item)
    (before after : ExecutionData Item)
    : Prop where
  arrival
    : Arrival workflow delivery (before.tables delivery.connectionData.node)
        before.nodeExecutionStack (after.tables delivery.connectionData.node)
        after.nodeExecutionStack
  matched : after.MatchedAt delivery.connectionData.node
  elsewhere : SameElsewhere before after delivery.connectionData.node

theorem deliverToWaiting_arrived [Inhabited Item] (v1 : workflow.settings.executionOrder = some .v1)
    (runData : IRunData Item) (delivery : Delivery Item)
    (matched : self.MatchedAt delivery.connectionData.node)
    : Arrived workflow delivery self
        ((deliverToWaiting workflow runData delivery).after self) := by
  apply Exec.Ensures.after (Arrived workflow delivery self)
  refine Exec.Ensures.bind ((openWaiting_ensures matched).mono ?_ (fun _ => False.elim))
  rintro nodeWasWaiting opened ⟨waits, stack, elsewhere, fresh⟩
  refine Exec.Ensures.bind ((chooseEntry_ensures waits _ _).mono ?_ ?_)
  · rintro runIndex ready ⟨chosen, choice, waitsChosen, chosenStack, chosenElsewhere⟩
    obtain ⟨entry, source, main, sourceMain, found, located, held, sourceHeld, missing⟩ :=
      choice.entry matched.tables
    refine Exec.Ensures.bind ((addData_ensures waitsChosen found located held sourceHeld
      _ _ _).mono ?_ (fun _ => False.elim))
    rintro _ filled ⟨rfl, waitsFilled, filledStack, filledElsewhere⟩
    have filledMatched := (choice.matched matched.tables).set runIndex
      (entry.set .main (Slot.write main delivery.connectionData.index delivery.batch))
      (source.set .main
        (Slot.write sourceMain delivery.connectionData.index delivery.source))
      (by simp)
    have sameStack : filled.nodeExecutionStack = self.nodeExecutionStack :=
      filledStack.trans (chosenStack.trans stack)
    have sameElsewhere := (elsewhere.trans chosenElsewhere).trans filledElsewhere
    dsimp only
    split
    · next all =>
        refine (pushEntry_ensures v1 waitsFilled filledMatched (Dict.get?_set_self _ _ _)
          (Dict.get?_set_self _ _ _)).mono ?_ (fun _ => False.elim)
        rintro _ final ⟨⟨tablesFinal, finalMatched⟩, finalStack, finalElsewhere⟩
        refine ⟨?_, finalMatched, sameElsewhere.trans finalElsewhere⟩
        rw [tablesFinal, finalStack, sameStack]
        have removed : Arrival workflow delivery _ self.nodeExecutionStack _ _ :=
          .complete choice found located held sourceHeld missing all
        simpa [Tables.delete, Tables.set, Dict.delete_set] using removed
    · next notAll =>
        have notAll := Bool.eq_false_iff.mpr notAll
        have filledArrived : Arrived workflow delivery self filled := by
          refine ⟨?_, waitsFilled.matchedAt filledMatched, sameElsewhere⟩
          rw [waitsFilled.tables_eq, sameStack]
          exact .incomplete choice found located held sourceHeld missing notAll
            (Dict.get?_set_self _ _ _) (Dict.get?_set_self _ _ _)
        have storing : (storeEntry delivery.connectionData.node
            (workflow.mainInputs delivery.connectionData.node).length runIndex
            (Slot.write (Slot.write main delivery.connectionData.index delivery.batch)
              delivery.connectionData.index delivery.batch)).Ensures filled
              (fun _ => Arrived workflow delivery self) (Arrived workflow delivery self) := by
          refine (storeEntry_ensures waitsFilled (Dict.get?_set_self _ _ _)
            (Dict.get?_set_self _ _ _) _ _).mono ?_ (fun _ => False.elim)
          rintro _ final ⟨waitsFinal, finalStack, finalElsewhere⟩
          rw [Slot.write_write] at waitsFinal
          refine ⟨?_, waitsFinal.matchedAt (filledMatched.set runIndex _ _ (by simp)),
            sameElsewhere.trans finalElsewhere⟩
          rw [waitsFinal.tables_eq, finalStack, sameStack]
          have stored : Arrival workflow delivery _ self.nodeExecutionStack _ _ :=
            .incomplete choice found located held sourceHeld missing notAll
              (Dict.get?_set_self Dict.empty _ _) (Dict.get?_set_self Dict.empty _ _)
          simpa [Tables.set, Dict.set_set] using stored
        split
        · exact storing
        · refine Exec.Ensures.bind ((addUnprocessedInputs_unchanged v1 runData delivery
            filled).mono ?_ (fun _ same => same ▸ filledArrived))
          rintro _ _ rfl
          exact storing
  · rintro _ ⟨rfl, error, thrown⟩
    refine ⟨?_, waits.matchedAt matched.tables, elsewhere⟩
    rw [waits.tables_eq, stack]
    exact .unreadable thrown

end N8n.Engine
