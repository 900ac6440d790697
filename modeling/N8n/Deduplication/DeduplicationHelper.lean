import Mathlib.Data.List.Sort
import N8n.Library.Exec

/-! The check of items against those that earlier executions have processed
(`packages/cli/src/deduplication/deduplication-helper.ts`).
-/

namespace N8n.Deduplication

inductive DeduplicationMode where
  | entries
  | latestIncrementalKey
  | latestDate
  deriving DecidableEq, Repr

/-- What is read off an item: its hash, its number unless that is `NaN`, and its date unless
it is none.
-/
structure ItemReader (Item Hash Key : Type) where
  createValueHash : Item → Hash
  number : Item → Option Key
  tryToParseDateTime : Item → Option Key

/-- The hashes of the entries, or the latest item, which is missing when none was there. -/
inductive ProcessedItems (Item Hash : Type) where
  | entries (data : List Hash)
  | latest (data : Option Item)
  deriving DecidableEq

structure ProcessedData (Item Hash : Type) where
  mode : DeduplicationMode
  items : ProcessedItems Item Hash
  deriving DecidableEq

structure ICheckProcessedOptions where
  mode : DeduplicationMode
  maxEntries : Option Nat
  deriving DecidableEq

structure IDeduplicationOutput (Item : Type) where
  new : List Item
  processed : List Item
  deriving DecidableEq

/-- What a check stores and answers, and the hashes that the maximum pushes out. -/
structure Outcome (Item Hash : Type) where
  stored : ProcessedData Item Hash
  output : IDeduplicationOutput Item
  pushedOut : List Hash
  deriving DecidableEq

def deduplicationError (message : String) : JsError := .error "DeduplicationError" message none

section

variable {Item Hash Key : Type} [LinearOrder Key] [DecidableEq Hash]
variable (reader : ItemReader Item Hash Key)

/-- What the values of a mode are compared by. -/
def keyOf : DeduplicationMode → Item → Option Key
  | .entries, _ => none
  | .latestIncrementalKey, item => reader.number item
  | .latestDate, item => reader.tryToParseDateTime item

def invalidValue : DeduplicationMode → JsError
  | .entries =>
      deduplicationError
        "Invalid mode. Only 'latestIncrementalKey' and 'latestDate' are supported."
  | .latestIncrementalKey =>
      deduplicationError
        "Invalid value. Only numbers are supported in mode \"latestIncrementalKey\""
  | .latestDate =>
      deduplicationError "Invalid value. Only valid dates are supported in mode \"latestDate\""

/-- Two dates that are parsed are never the same object, so equal ones compare as -1. -/
def compareValues (mode : DeduplicationMode) (value1 value2 : Option Item)
    : Except JsError Int :=
  match value1.bind (keyOf reader mode), value2.bind (keyOf reader mode) with
  | some key1, some key2 =>
      .ok (if key1 = key2 ∧ mode = .latestIncrementalKey then 0 else if key1 > key2 then 1 else -1)
  | _, _ => .error (invalidValue mode)

/-- Every item of a list of several is compared with another one. -/
def sortEntries (mode : DeduplicationMode) (items : List Item) : Except JsError (List Item) :=
  if items.length ≤ 1 then .ok items
  else
    match items.mapM (fun item => (keyOf reader mode item).map (fun key => (item, key))) with
    | none => .error (invalidValue mode)
    | some keyed => .ok ((keyed.mergeSort (fun a b => a.2 ≤ b.2)).map Prod.fst)

/-- One item of `handleLatestModes`: the answer so far and the largest value. -/
def checkLatest (mode : DeduplicationMode) (stored : Option Item)
    (sofar : IDeduplicationOutput Item × Option Item) (item : Item)
    : Except JsError (IDeduplicationOutput Item × Option Item) := do
  let (returnData, largestValue) := sofar
  if (← compareValues reader mode (some item) stored) = 1 then
    if (← compareValues reader mode (some item) largestValue) = 1 then
      pure ({ returnData with new := returnData.new ++ [item] }, some item)
    else pure ({ returnData with new := returnData.new ++ [item] }, largestValue)
  else pure ({ returnData with processed := returnData.processed ++ [item] }, largestValue)

/-- `none` where nothing is stored. -/
def handleLatestModes (items : List Item) (options : ICheckProcessedOptions)
    (processedData : Option (ProcessedData Item Hash))
    : Except JsError (Option (Outcome Item Hash)) := do
  let incomingItems ← sortEntries reader options.mode items
  match processedData with
  | none => pure (some ⟨⟨options.mode, .latest incomingItems.getLast?⟩, ⟨items, []⟩, []⟩)
  | some ⟨mode, .latest stored⟩ =>
      let (returnData, largestValue) ←
        incomingItems.foldlM (checkLatest reader options.mode stored) (⟨[], []⟩, stored)
      pure (some ⟨⟨mode, .latest largestValue⟩, returnData, []⟩)
  | some ⟨_, .entries _⟩ => pure none

/-- The hashes that are spliced off the front; a maximum of 0 is none. -/
def overflow (maxEntries : Option Nat) (data : List Hash) : Nat :=
  match maxEntries with
  | none => 0
  | some 0 => 0
  | some (maximum + 1) => data.length - (maximum + 1)

def handleHashedItems (items : List Item) (options : ICheckProcessedOptions)
    (processedData : Option (ProcessedData Item Hash)) : Option (Outcome Item Hash) :=
  match processedData with
  | none =>
      let data := items.map reader.createValueHash
      let spliced := overflow options.maxEntries data
      some ⟨⟨options.mode, .entries (data.drop spliced)⟩, ⟨items, []⟩, data.take spliced⟩
  | some ⟨mode, .entries processed⟩ =>
      let isProcessed (item : Item) := processed.contains (reader.createValueHash item)
      let new := items.filter (fun item => !isProcessed item)
      let data := processed ++ new.map reader.createValueHash
      let spliced := overflow options.maxEntries data
      some ⟨⟨mode, .entries (data.drop spliced)⟩, ⟨new, items.filter isProcessed⟩,
        data.take spliced⟩
  | some ⟨_, .latest _⟩ => none

/-- From the stored data that was found to what is to be stored. -/
def checkProcessed (items : List Item) (options : ICheckProcessedOptions)
    (processedData : Option (ProcessedData Item Hash))
    : Except JsError (Option (Outcome Item Hash)) :=
  if processedData.any (fun found => found.mode ≠ options.mode) then
    .error (deduplicationError
      "Deduplication data was originally saved with an incompatible setting of the ‘Keep Items Where’ parameter. Try ’Clean Database’ operation to reset.")
  else
    match options.mode with
    | .latestIncrementalKey => handleLatestModes reader items options processedData
    | .latestDate => handleLatestModes reader items options processedData
    | .entries => .ok (handleHashedItems reader items options processedData)

/-- `removeProcessed` from the data that was found; `none` where nothing is stored. -/
def removeItems (items : List Item) (options : ICheckProcessedOptions)
    (processedData : Option (ProcessedData Item Hash))
    : Option (ProcessedData Item Hash) :=
  if options.mode ≠ .entries then none
  else
    match processedData with
    | some ⟨mode, .entries data⟩ =>
        some ⟨mode, .entries
            (items.foldl (fun data item => data.erase (reader.createValueHash item)) data)⟩
    | _ => none

end

end N8n.Deduplication
