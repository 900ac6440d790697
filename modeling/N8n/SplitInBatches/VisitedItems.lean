import Mathlib.Algebra.GroupWithZero.Nat
import Mathlib.Tactic.Common

/-! The loop over the items of the first run
(`packages/nodes-base/nodes/SplitInBatches/v3/SplitInBatchesV3.node.ts`), which keeps what is left
in the context of the node.
-/

namespace N8n.SplitInBatches

/-- `Source` is the source data of an input. -/
structure IPairedItemData (Source : Type) where
  item : Nat
  input : Option Nat
  sourceOverwrite : Option Source
  deriving DecidableEq, Repr

inductive PairedItem (Source : Type) where
  | number (item : Nat)
  | data (pairedItem : IPairedItemData Source)
  | array (pairedItems : List (IPairedItemData Source))
  deriving DecidableEq, Repr

/-- `Data` is all of an item but its `pairedItem`, with its `json` and its `binary`. -/
structure INodeExecutionData (Data Source : Type) where
  data : Data
  pairedItem : Option (PairedItem Source)
  deriving DecidableEq, Repr

variable {Data Source : Type}

/-- Before the first run there are no items. -/
structure NodeContext (Data Source : Type) where
  items : Option (List (INodeExecutionData Data Source)) := none
  currentRunIndex : Nat := 0
  maxRunIndex : Nat := 0
  sourceData : Option Source := none
  processedItems : List (INodeExecutionData Data Source) := []
  noItemsLeft : Bool := false
  done : Bool := false

/-- The input data, the source of the input, and the parameters of a run. -/
structure NodeRun (Data Source : Type) where
  inputData : List (INodeExecutionData Data Source)
  inputSourceData : Source
  batchSize : Nat
  reset : Bool := false

/-- The outputs `done` and `loop`. -/
structure Outputs (Data Source : Type) where
  done : List (INodeExecutionData Data Source)
  loop : List (INodeExecutionData Data Source)

def addSourceOverwrite (sourceData : Option Source) (pairedItem : IPairedItemData Source)
    : IPairedItemData Source :=
  { pairedItem with sourceOverwrite := sourceData }

def getPairedItemInformation (sourceData : Option Source) (item : INodeExecutionData Data Source)
    : PairedItem Source :=
  match item.pairedItem with
  | none => .data ⟨0, none, sourceData⟩
  | some (.array pairedItems) => .array (pairedItems.map (addSourceOverwrite sourceData))
  | some (.number item) => .data ⟨item, none, sourceData⟩
  | some (.data pairedItem) => .data (addSourceOverwrite sourceData pairedItem)

namespace NodeRun

variable (self : NodeRun Data Source)

/-- The items that came back, each paired with its place in the input. -/
def newItems : List (INodeExecutionData Data Source) :=
  self.inputData.mapIdx (fun index item =>
    { item with pairedItem := some (.data ⟨index, none, some self.inputSourceData⟩) })

/-- The end of `execute`, with the items that it returns. -/
def finish (nodeContext : NodeContext Data Source) (items : List (INodeExecutionData Data Source))
    (returnItems : List (INodeExecutionData Data Source))
    : NodeContext Data Source × Outputs Data Source :=
  let nodeContext := { nodeContext with items := some items, noItemsLeft := items.isEmpty }
  if returnItems.isEmpty then
    ({ nodeContext with done := true }, ⟨nodeContext.processedItems, []⟩)
  else ({ nodeContext with done := false }, ⟨[], returnItems⟩)

def execute (nodeContext : NodeContext Data Source)
    : NodeContext Data Source × Outputs Data Source :=
  match nodeContext.items, self.reset with
  | none, _ | _, true =>
      finish
        {
          nodeContext with
          currentRunIndex := 0
          maxRunIndex := (self.inputData.length + self.batchSize - 1) / self.batchSize
          sourceData := some self.inputSourceData
          processedItems := []
        }
        (self.inputData.drop self.batchSize) (self.inputData.take self.batchSize)
  | some items, false =>
      finish
        {
          nodeContext with
          currentRunIndex := nodeContext.currentRunIndex + 1
          processedItems := nodeContext.processedItems ++ self.newItems
        }
        (items.drop self.batchSize)
        ((items.take self.batchSize).map (fun item =>
          { item with pairedItem := getPairedItemInformation nodeContext.sourceData item }))

end NodeRun

/-- The outputs of runs in one execution. -/
def executeAll (nodeContext : NodeContext Data Source)
    : List (NodeRun Data Source) → List (Outputs Data Source)
  | [] => []
  | run :: rest =>
      let (next, outputs) := run.execute nodeContext
      outputs :: executeAll next rest

/-- The runs before the one at `place` take as many items as their batches hold. -/
def leftAt (items : List (INodeExecutionData Data Source)) (runs : List (NodeRun Data Source))
    (place : Nat)
    : List (INodeExecutionData Data Source) :=
  items.drop ((runs.take place).map NodeRun.batchSize).sum

/-- (Emits left batchSize processed outputs) requires the next batch on the output `loop` as long
as items are left, and all that is processed on `done` when none are.
-/
structure Emits (left : List (INodeExecutionData Data Source)) (batchSize : Nat)
    (processed : List (INodeExecutionData Data Source)) (outputs : Outputs Data Source)
    : Prop where
  loop : outputs.loop.map INodeExecutionData.data
    = (left.take batchSize).map INodeExecutionData.data
  done : outputs.done = if left = [] then processed else []

/-- (Steps left processed next run) says what a run leaves in the context and emits. -/
def Steps (left processed : List (INodeExecutionData Data Source)) (batchSize : Nat)
    (next : NodeContext Data Source × Outputs Data Source)
    : Prop :=
  next.1.items = some (left.drop batchSize) ∧ next.1.processedItems = processed
    ∧ Emits left batchSize processed next.2

variable {nodeContext : NodeContext Data Source} {run : NodeRun Data Source}
  {items left returnItems : List (INodeExecutionData Data Source)} {batchSize place : Nat}

theorem steps_finish (positive : 0 < batchSize)
    (same : returnItems.map INodeExecutionData.data
      = (left.take batchSize).map INodeExecutionData.data)
    : Steps left nodeContext.processedItems batchSize
        (NodeRun.finish nodeContext (left.drop batchSize) returnItems) := by
  have isEmpty_iff : returnItems = [] ↔ left = [] := by
    rw [← List.map_eq_nil_iff (f := INodeExecutionData.data), same, List.map_eq_nil_iff,
      List.take_eq_nil_iff]
    exact or_iff_right (Nat.ne_of_gt positive)
  unfold NodeRun.finish
  cases returnItems with
  | nil => exact ⟨rfl, rfl, same, by simp [isEmpty_iff.mp rfl]⟩
  | cons first rest => exact ⟨rfl, rfl, same, by simp [mt isEmpty_iff.mpr]⟩

theorem steps_later (positive : 0 < run.batchSize) (noReset : run.reset = false)
    (hasItems : nodeContext.items = some items)
    : Steps items (nodeContext.processedItems ++ run.newItems) run.batchSize
        (run.execute nodeContext) := by
  unfold NodeRun.execute
  rw [hasItems, noReset]
  refine steps_finish positive ?_
  rw [List.map_map]
  rfl

/-- A later run, over the invariant that the context has the items that are left and those that
came back.
-/
theorem executeAll_later (runs : List (NodeRun Data Source))
    (positive : ∀ run ∈ runs, 0 < run.batchSize) (noReset : ∀ run ∈ runs, run.reset = false)
    (hasItems : nodeContext.items = some items) (isRun : runs[place]? = some run)
    : ∃ outputs, (executeAll nodeContext runs)[place]? = some outputs
      ∧ Emits (leftAt items runs place) run.batchSize
          (nodeContext.processedItems ++ (runs.take (place + 1)).flatMap NodeRun.newItems)
          outputs := by
  induction runs generalizing nodeContext items place with
  | nil => simp at isRun
  | cons first rest ih =>
      obtain ⟨items_next, processed_next, emits⟩ := steps_later
        (positive first (.head _)) (noReset first (.head _)) hasItems
      cases place with
      | zero =>
          cases isRun
          exact ⟨(run.execute nodeContext).2, rfl, by simpa [leftAt] using emits⟩
      | succ place =>
          obtain ⟨outputs, isOutputs, emits⟩ :=
            ih (fun run member => positive run (.tail _ member))
              (fun run member => noReset run (.tail _ member)) items_next isRun
          refine ⟨outputs, isOutputs, ?_⟩
          simpa [processed_next, leftAt, List.drop_drop] using emits

/-- Batches of one size leave nothing after as many runs as they fill. -/
theorem leftAt_eq_nil_iff {runs : List (NodeRun Data Source)} (positive : 0 < batchSize)
    (constant : ∀ run ∈ runs, run.batchSize = batchSize) (inside : place ≤ runs.length)
    : leftAt items runs place = [] ↔ (items.length + batchSize - 1) / batchSize ≤ place := by
  have sizes : (runs.take place).map NodeRun.batchSize = List.replicate place batchSize := by
    refine List.eq_replicate_iff.mpr ⟨by simp [inside], fun size member => ?_⟩
    obtain ⟨run, isRun, rfl⟩ := List.mem_map.mp member
    exact constant run (List.mem_of_mem_take isRun)
  rw [leftAt, sizes, List.sum_replicate_nat, List.drop_eq_nil_iff, Nat.div_le_iff_le_mul positive]
  omega

variable (first : NodeRun Data Source) (later : List (NodeRun Data Source))

/-- Every run emits the next batch on `loop` as long as items are left; with none left it emits on
`done` what came back in all the runs after the first.
-/
theorem executeAll_visits (positive : ∀ run ∈ first :: later, 0 < run.batchSize)
    (noReset : ∀ run ∈ later, run.reset = false) (place : Nat) (run : NodeRun Data Source)
    (isRun : (first :: later)[place]? = some run)
    : let left := leftAt first.inputData (first :: later) place
      (∃ outputs, (executeAll {} (first :: later))[place]? = some outputs
        ∧ outputs.loop.map INodeExecutionData.data
          = (left.take run.batchSize).map INodeExecutionData.data
        ∧ outputs.done = if left = [] then (later.take place).flatMap NodeRun.newItems else [])
      ∧ ∀ batchSize, (∀ run ∈ first :: later, run.batchSize = batchSize)
        → (left = [] ↔ (first.inputData.length + batchSize - 1) / batchSize ≤ place) := by
  have inside := (List.getElem?_eq_some_iff.mp isRun).1
  refine ⟨?_, fun batchSize constant => leftAt_eq_nil_iff
    (constant first List.mem_cons_self ▸ positive first List.mem_cons_self) constant
    (Nat.le_of_lt inside)⟩
  obtain ⟨items_next, processed_next, emits⟩
      : Steps first.inputData [] first.batchSize (first.execute {}) :=
    steps_finish (positive first List.mem_cons_self) rfl
  cases place with
  | zero =>
      cases isRun
      exact ⟨(first.execute {}).2, rfl, emits.loop, by simpa [leftAt] using emits.done⟩
  | succ place =>
      obtain ⟨outputs, isOutputs, emits⟩ := executeAll_later later
        (fun run member => positive run (List.mem_cons_of_mem _ member)) noReset items_next isRun
      rw [processed_next, leftAt, List.drop_drop] at emits
      exact ⟨outputs, isOutputs, emits.loop, emits.done⟩

theorem executeAll_visits_two
    : ∃ outputs,
        (@executeAll String Unit {} [⟨[⟨"a", none⟩], (), 1, false⟩, ⟨[], (), 1, false⟩])[1]?
          = some outputs
        ∧ outputs.loop.map INodeExecutionData.data = [] :=
  (executeAll_visits ⟨[⟨"a", none⟩], (), 1, false⟩ [⟨[], (), 1, false⟩] (by decide) (by decide) 1
    ⟨[], (), 1, false⟩ rfl).1.imp (fun _ holds => ⟨holds.1, holds.2.1⟩)

end N8n.SplitInBatches
