import N8n.PartialExecution.RecreateNodeExecutionStack

/-! What is read from the run data of a node (`get-incoming-data.ts`). -/

namespace N8n.PartialExecution

variable {Item : Type}

/-- The run has items at the output. -/
def HasItems (run : ITaskData Item) (type : NodeConnectionType) (outputIndex : Nat) : Prop :=
  ∃ data outputs items,
    run.data = some data ∧ data.get? type = some outputs
    ∧ Slot.read outputs outputIndex = .value items ∧ items ≠ []

/-- The run has data, but no outputs of the type. -/
def LacksType (run : ITaskData Item) (type : NodeConnectionType) : Prop :=
  ∃ data, run.data = some data ∧ data.get? type = none

/-- The runs of a node. -/
def runsOf (runData : IRunData Item) (nodeName : String) : List (ITaskData Item) :=
  (runData.get? nodeName).getD []

variable {runData : IRunData Item} {nodeName : String}
  {type : NodeConnectionType} {outputIndex runIndex : Nat}

theorem getIncomingData_eq
    : getIncomingData runData nodeName runIndex type outputIndex
      = match (runsOf runData nodeName)[runIndex]?.bind (fun run => run.data) with
        | none => .ok none
        | some data =>
            match data.get? type with
            | none => .error .typeError
            | some outputs =>
                match Slot.read outputs outputIndex with
                | .value items => .ok (some items)
                | _ => .ok none := by
  unfold getIncomingData runsOf
  cases runData.get? nodeName <;> rfl

/-- Reading throws only where a run lacks the outputs of the type. -/
theorem lacksType_of_getIncomingData {error : JsError}
    (thrown : getIncomingData runData nodeName runIndex type outputIndex = .error error)
    : error = .typeError ∧ ∃ run ∈ runsOf runData nodeName, LacksType run type := by
  rw [getIncomingData_eq] at thrown
  cases found : (runsOf runData nodeName)[runIndex]? with
  | none => simp [found] at thrown
  | some run =>
      cases data : run.data with
      | none => simp [found, data] at thrown
      | some data' =>
          cases outputs : data'.get? type with
          | none =>
              simp [found, data, outputs] at thrown
              exact ⟨thrown.symm, run, List.mem_of_getElem? found, data', data, outputs⟩
          | some slots =>
              simp only [found, data, outputs, Option.bind_some] at thrown
              split at thrown <;> contradiction

theorem hasItems_iff_of_getIncomingData {result : Option (List Item)}
    (read : getIncomingData runData nodeName runIndex type outputIndex = .ok result)
    : (∃ items, result = some items ∧ items ≠ [])
      ↔ ∃ run, (runsOf runData nodeName)[runIndex]? = some run
          ∧ HasItems run type outputIndex := by
  rw [getIncomingData_eq] at read
  cases found : (runsOf runData nodeName)[runIndex]? with
  | none =>
      simp [found] at read
      simp [← read]
  | some run =>
      cases data : run.data with
      | none =>
          simp [found, data] at read
          simp [← read, HasItems, data]
      | some data' =>
          cases outputs : data'.get? type with
          | none => simp [found, data, outputs] at read
          | some slots =>
              simp only [found, data, outputs, Option.bind_some] at read
              cases slot : Slot.read slots outputIndex with
              | _ =>
                  simp [slot] at read
                  simp [← read, HasItems, data, outputs, slot]

theorem lacksType_of_findIncomingData {error : JsError} {indexes : List Nat}
    (thrown : findIncomingData runData nodeName type outputIndex indexes = .error error)
    : error = .typeError ∧ ∃ run ∈ runsOf runData nodeName, LacksType run type := by
  induction indexes with
  | nil => contradiction
  | cons index rest ih =>
      unfold findIncomingData at thrown
      cases read : getIncomingData runData nodeName index type outputIndex with
      | error error' =>
          rw [read] at thrown
          obtain rfl := Except.error.inj thrown
          exact lacksType_of_getIncomingData read
      | ok result =>
          rw [read] at thrown
          match result with
          | none => exact ih thrown
          | some [] => exact ih thrown
          | some (item :: items) => contradiction

/-- A run is found exactly if one of the runs looked at has items. -/
theorem hasItems_iff_of_findIncomingData {result : Option (IncomingData Item)}
    {indexes : List Nat}
    (found : findIncomingData runData nodeName type outputIndex indexes = .ok result)
    : (∃ incoming, result = some incoming ∧ incoming.data ≠ [])
      ↔ ∃ index ∈ indexes, ∃ run, (runsOf runData nodeName)[index]? = some run
          ∧ HasItems run type outputIndex := by
  induction indexes with
  | nil =>
      cases found
      simp
  | cons index rest ih =>
      unfold findIncomingData at found
      cases read : getIncomingData runData nodeName index type outputIndex with
      | error error =>
          rw [read] at found
          contradiction
      | ok incoming =>
          have here := hasItems_iff_of_getIncomingData read
          rw [read] at found
          simp only [List.mem_cons, exists_eq_or_imp, ← here]
          match incoming with
          | none => simp [ih found]
          | some [] => simp [ih found]
          | some (item :: items) =>
              cases found
              simp

end N8n.PartialExecution
