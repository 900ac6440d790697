import N8n.Workflow.Interfaces

/-! A chunk of the input items of a node on its way to a task runner: the requester's side cuts
it out (`packages/cli/src/task-runners/task-managers/data-request-response-stripper.ts`), and
the runner rebuilds the array of all items around it
(`packages/@n8n/task-runner/src/data-request/data-request-response-reconstruct.ts`).
-/

namespace N8n.TaskRunners.ChunkedInput

structure InputDataChunkDefinition where
  startIndex : Nat
  count : Nat
  deriving DecidableEq, Repr

structure InputDataRequestParams where
  «include» : Bool
  chunk : Option InputDataChunkDefinition

variable {Item : Type}

/-- `inputData.main?.[0]`, where both `undefined` and `null` mean that there are no items. -/
def mainItems (inputData : ITaskDataConnections Item) : Option (List Item) :=
  (inputData.get? .main).bind (fun slots =>
    match Slot.read slots 0 with
    | .value items => some items
    | .undefined | .null => none)

def stripChunkedInputData (chunk : InputDataChunkDefinition)
    (inputData : ITaskDataConnections Item)
    : ITaskDataConnections Item :=
  match mainItems inputData with
  | none => inputData
  | some inputItems =>
      let chunkInputItems :=
        inputItems.extract chunk.startIndex (chunk.startIndex + chunk.count)
      inputData.set .main [.value chunkInputItems]

def stripInputData (input : InputDataRequestParams) (inputData : ITaskDataConnections Item)
    : ITaskDataConnections Item :=
  if !input.«include» then Dict.empty
  else
    match input.chunk with
    | some chunk => stripChunkedInputData chunk inputData
    | none => inputData

/-- `Array.from({ length })`, which takes a negative length for zero. -/
def arrayFrom (length : Int) : List (Option Item) := List.replicate length.toNat none

def reconstructConnectionInputItems (inputData : ITaskDataConnections Item)
    (chunk : Option InputDataChunkDefinition)
    : List (Option Item) :=
  let inputItems := ((mainItems inputData).getD []).map some
  match chunk with
  | none => inputItems
  | some chunk =>
      arrayFrom chunk.startIndex ++ inputItems
        ++ arrayFrom (inputItems.length - chunk.startIndex - chunk.count)

/-- The array of all items in which those outside the chunk are missing. -/
def withHoles (items : List Item) (chunk : InputDataChunkDefinition) : List (Option Item) :=
  items.mapIdx (fun index item =>
    if chunk.startIndex ≤ index ∧ index < chunk.startIndex + chunk.count then some item
    else none)

variable {chunk : InputDataChunkDefinition} {items : List Item}
  {inputData : ITaskDataConnections Item}

/-- Around a chunk that lies within the items there are holes on both sides. -/
theorem withHoles_eq (within : chunk.startIndex + chunk.count ≤ items.length)
    : withHoles items chunk
      = List.replicate chunk.startIndex none
        ++ ((items.drop chunk.startIndex).take chunk.count).map some
        ++ List.replicate (items.length - chunk.startIndex - chunk.count) none := by
  have chunkLength
      : (((items.drop chunk.startIndex).take chunk.count).map some).length = chunk.count := by
    rw [List.length_map, List.length_take, List.length_drop]
    omega
  apply List.ext_getElem?
  intro index
  simp only [withHoles, List.getElem?_mapIdx, List.getElem?_append, List.getElem?_replicate,
    List.length_append, List.length_replicate, chunkLength, List.getElem?_map,
    List.getElem?_take, List.getElem?_drop]
  by_cases inside : index < items.length
  · rw [List.getElem?_eq_getElem inside, Option.map_some]
    by_cases before : index < chunk.startIndex
    · rw [if_neg (by omega), if_pos (by omega), if_pos before, if_pos before]
    · by_cases after : index < chunk.startIndex + chunk.count
      · rw [if_pos (by omega), if_pos after, if_neg before, if_pos (by omega),
          Nat.add_sub_cancel' (by omega), List.getElem?_eq_getElem inside, Option.map_some]
      · rw [if_neg (by omega), if_neg after, if_pos (by omega)]
  · rw [List.getElem?_eq_none (by omega), if_neg (by omega), if_neg (by omega)]
    rfl

theorem mainItems_strip (given : mainItems inputData = some items)
    : mainItems (stripChunkedInputData chunk inputData)
      = some ((items.drop chunk.startIndex).take chunk.count) := by
  simp only [stripChunkedInputData, given]
  simp [mainItems, Slot.read]

/-- What follows the chunk is never filled in: the length it is computed from is the chunk's. -/
theorem reconstruct_strip (given : mainItems inputData = some items)
    : reconstructConnectionInputItems (stripChunkedInputData chunk inputData) (some chunk)
      = List.replicate chunk.startIndex none
        ++ ((items.drop chunk.startIndex).take chunk.count).map some := by
  have short := List.length_take_le chunk.count (items.drop chunk.startIndex)
  have none : (((items.drop chunk.startIndex).take chunk.count).length
      - chunk.startIndex - chunk.count : Int).toNat = 0 := by
    omega
  simp only [reconstructConnectionInputItems, mainItems_strip given, Option.getD_some,
    List.length_map, arrayFrom, none, List.replicate_zero, List.append_nil, Int.toNat_natCast]

/-- The runner gets the array of all items with holes around a chunk exactly when the chunk is
the last one.
-/
theorem reconstruct_withHoles_iff (given : mainItems inputData = some items)
    (within : chunk.startIndex + chunk.count ≤ items.length)
    : reconstructConnectionInputItems (stripChunkedInputData chunk inputData) (some chunk)
        = withHoles items chunk
      ↔ chunk.startIndex + chunk.count = items.length := by
  rw [reconstruct_strip given, withHoles_eq within, List.self_eq_append_right,
    List.replicate_eq_nil_iff]
  omega

def twoItems : ITaskDataConnections Nat := Dict.empty.set .main [.value [7, 8]]

theorem reconstruct_withHoles_iff_last
    : reconstructConnectionInputItems (stripChunkedInputData ⟨1, 1⟩ twoItems) (some ⟨1, 1⟩)
        = withHoles [7, 8] ⟨1, 1⟩
      ↔ 1 + 1 = [7, 8].length :=
  reconstruct_withHoles_iff (show mainItems twoItems = some [7, 8] from rfl) (by decide)

/-- After the first of two chunks the array ends. -/
theorem not_withHoles_firstChunk
    : mainItems twoItems = some [7, 8]
      ∧ withHoles [7, 8] ⟨0, 1⟩ = [some 7, none]
      ∧ reconstructConnectionInputItems (stripChunkedInputData ⟨0, 1⟩ twoItems) (some ⟨0, 1⟩)
        = [some 7] := by
  decide

end N8n.TaskRunners.ChunkedInput
