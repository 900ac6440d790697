import N8n.Library.JavaScript

/-! The Code node once for each item: the sandbox cuts the input into chunks
(`packages/nodes-base/nodes/Code/JsTaskRunnerSandbox.ts`), the task requester strips the data of
each chunk, and the task runner rebuilds the array of the items and runs the code on those of the
chunk (`packages/@n8n/task-runner/src/js-task-runner/js-task-runner.ts`). The code is a function
of the item that it sees, if any, and its index.
-/

namespace N8n.CodeNode

inductive Value where
  | undefined
  | null
  | boolean (value : Bool)
  | number (value : Int)
  | string (value : String)
  | date (time : Int)
  | array (elements : List Value)
  | object (fields : List (String × Value))

namespace Value

def isTruthy : Value → Bool
  | .undefined | .null => false
  | .boolean value => value
  | .number value => value != 0
  | .string value => !value.isEmpty
  | .date _ | .array _ | .object _ => true

def isObject : Value → Bool
  | .object _ => true
  | _ => false

def typeOf : Value → String
  | .undefined => "undefined"
  | .boolean _ => "boolean"
  | .number _ => "number"
  | .string _ => "string"
  | .null | .date _ | .array _ | .object _ => "object"

/-- `value[key]`, of keys that only objects have. -/
def get (key : String) : Value → Value
  | .object fields => ((fields.find? (fun field => field.1 = key)).map Prod.snd).getD .undefined
  | _ => .undefined

/-- `key in value`. -/
def has (key : String) : Value → Bool
  | .object fields => fields.any (fun field => field.1 = key)
  | _ => false

/-- The text of a value that is no object. -/
def text : Value → String
  | .undefined => "undefined"
  | .boolean value => toString value
  | .number value => toString value
  | .string value => value
  | .null => "null"
  | .date _ | .array _ | .object _ => "object"

end Value

structure InputDataChunkDefinition where
  startIndex : Nat
  count : Nat
  deriving DecidableEq, Repr

/-- The input of a node; an input may have no items. -/
structure ITaskDataConnections (Item : Type) where
  main : List (Option (List Item))

structure StripParams where
  includeInput : Bool
  chunk : Option InputDataChunkDefinition

/-- How the code ends, with the message of what it throws. -/
inductive Outcome where
  | returned (result : Value)
  | thrown (message : String)

structure JSExecSettings where
  continueOnFail : Bool
  chunk : Option InputDataChunkDefinition

variable {Item : Type}

def stripChunkedInputData (chunk : InputDataChunkDefinition)
    (inputData : ITaskDataConnections Item)
    : ITaskDataConnections Item :=
  match inputData.main[0]? with
  | some (some inputItems) =>
      ⟨[some ((inputItems.drop chunk.startIndex).take chunk.count)]⟩
  | _ => inputData

def stripInputData (stripParams : StripParams) (inputData : ITaskDataConnections Item)
    : ITaskDataConnections Item :=
  if !stripParams.includeInput then ⟨[]⟩
  else
    match stripParams.chunk with
    | some chunk => stripChunkedInputData chunk inputData
    | none => inputData

/-- The items of the chunk between places without an item. A negative length makes no places. -/
def reconstructConnectionInputItems (inputData : ITaskDataConnections Item)
    (chunk : Option InputDataChunkDefinition)
    : List (Option Item) :=
  let inputItems := (inputData.main[0]?.join).getD []
  match chunk with
  | none => inputItems.map some
  | some chunk =>
      let rest : Int := inputItems.length - chunk.startIndex - chunk.count
      List.replicate chunk.startIndex none ++ inputItems.map some
        ++ List.replicate rest.toNat none

def extractJsonData (result : Value) : Value :=
  if !result.isObject then result
  else if result.has "json" then result.get "json"
  else if result.has "binary" then
    match result.get "json" with
    | .undefined | .null => .object []
    | json => json
  else result

def pairedItem (index : Nat) : String × Value :=
  ("pairedItem", .object [("item", .number index)])

/-- The item for what the code has returned; `null` and falsy values have none. -/
def toItem (index : Nat) (result : Value) : Option Value :=
  if result.isTruthy then
    let jsonData := extractJsonData result
    if (result.get "binary").isTruthy then
      some (.object [("json", jsonData), pairedItem index, ("binary", result.get "binary")])
    else some (.object [("json", jsonData), pairedItem index])
  else none

def errorItem (index : Nat) (message : String) : Value :=
  .object [("json", .object [("error", .string message)]), pairedItem index]

/-- The loop from an index on, for a number of further items. -/
def runItems (code : Option Item → Nat → Outcome) (continueOnFail : Bool)
    (inputItems : List (Option Item))
    : Nat → Nat → List Value → Except JsError (List Value)
  | _, 0, returnData => .ok returnData
  | index, remaining + 1, returnData =>
      match code (inputItems[index]?.join) index with
      | .returned result =>
          runItems code continueOnFail inputItems (index + 1) remaining
            (returnData ++ (toItem index result).toList)
      | .thrown message =>
          if continueOnFail then
            runItems code continueOnFail inputItems (index + 1) remaining
              (returnData ++ [errorItem index message])
          else .error (.error "ExecutionError" message none)

def runForEachItem (settings : JSExecSettings) (inputItems : List (Option Item))
    (code : Option Item → Nat → Outcome)
    : Except JsError (List Value) :=
  match settings.chunk with
  | some chunk => runItems code settings.continueOnFail inputItems chunk.startIndex chunk.count []
  | none => runItems code settings.continueOnFail inputItems 0 inputItems.length []

def REQUIRED_N8N_ITEM_KEYS : List String := ["json", "binary", "pairedItem", "error", "index"]

def validationError (message description : String) (itemIndex : Nat) : JsError :=
  .error "ValidationError" s!"{message} [item {itemIndex}]" (some description)

def validateItem (item : Value) (itemIndex : Nat) : Except JsError Unit :=
  if !(item.get "json").isObject then
    .error (validationError "A 'json' property isn't an object"
      "In the returned data, every key named 'json' must point to an object." itemIndex)
  else
    match item.get "binary" with
    | .undefined => .ok ()
    | binary =>
        if binary.isObject then .ok ()
        else
          .error (validationError "A 'binary' property isn't an object"
            "In the returned data, every key named 'binary' must point to an object." itemIndex)

def validateTopLevelKeys (item : Value) (itemIndex : Nat) : Except JsError Unit :=
  match item with
  | .object fields =>
      let keys := fields.map Prod.fst
      match keys.find? (fun key => key ∉ REQUIRED_N8N_ITEM_KEYS),
          keys.find? (fun key => key ∈ REQUIRED_N8N_ITEM_KEYS) with
      | none, _ => .ok ()
      | some _, some foundReservedKey =>
          .error (validationError "Invalid output format"
            ("An output item contains the reserved key <code>" ++ foundReservedKey
              ++ "</code>. To get around this, please wrap each item in an object, under a key "
              ++ "called <code>json</code>. <a href=\"https://docs.n8n.io/data/data-structure/"
              ++ "#data-structure\" target=\"_blank\">Example</a>") itemIndex)
      | some unknownKey, none =>
          .error (validationError ("Unknown top-level item key: " ++ unknownKey)
            "Access the properties of an item under `.json`, e.g. `item.json`" itemIndex)
  | _ => .ok ()

/-- `normalizeItems([item])` of a value that is no array; `in` throws for `null`. -/
def normalizeItem (item : Value) : Except JsError Value :=
  match item with
  | .null => .error .typeError
  | .object fields =>
      if item.has "json" then .ok item
      else if item.has "binary" then
        .ok (.object
          [("json", .object (fields.filter (fun field => field.1 ≠ "binary"))),
            ("binary", item.get "binary")])
      else .ok (.object [("json", item)])
  | item => .ok (.object [("json", item)])

def validateRunCodeEachItem (executionResult : Value) (itemIndex : Nat) : Except JsError Value :=
  if executionResult.typeOf ≠ "object" then
    .error (validationError "Code doesn't return an object"
      ("Please return an object representing the output item. ('" ++ executionResult.text
        ++ "' was returned instead.)") itemIndex)
  else
    match executionResult with
    | .array elements =>
        let firstSentence :=
          match elements with
          | first :: _ => "An array of " ++ first.typeOf ++ "s was returned."
          | [] => "An empty array was returned."
        .error (validationError "Code doesn't return a single object"
          (firstSentence ++ " If you need to output multiple items, please use the 'Run Once for "
            ++ "All Items' mode instead.") itemIndex)
    | executionResult => do
        let returnData ← normalizeItem executionResult
        validateItem returnData itemIndex
        validateTopLevelKeys returnData itemIndex
        return returnData

/-- What a task is about: the code, the input of the node, whether the code needs the input, and
what a result becomes on its way from the runner.
-/
structure Job (Item : Type) where
  code : Option Item → Nat → Outcome
  inputItems : List Item
  includeInput : Bool
  continueOnFail : Bool
  received : Value → Value

namespace Job

variable (job : Job Item)

/-- The task of a chunk, or of all items. -/
def startJob (chunk : Option InputDataChunkDefinition) : Except JsError (List Value) :=
  let inputData := stripInputData ⟨job.includeInput, chunk⟩ ⟨[some job.inputItems]⟩
  let connectionInputData := reconstructConnectionInputItems inputData chunk
  (runForEachItem ⟨job.continueOnFail, chunk⟩ connectionInputData job.code).map
    (fun results => results.map job.received)

/-- `Math.ceil(numInputItems / chunkSize)` chunks, the last one with what is left. -/
def chunkInputItems (chunkSize numInputItems : Nat) : List InputDataChunkDefinition :=
  let numChunks := (numInputItems + chunkSize - 1) / chunkSize
  (List.range numChunks).map (fun i =>
    let startIdx := i * chunkSize
    ⟨startIdx, if i = numChunks - 1 then numInputItems - startIdx else chunkSize⟩)

/-- The results of a chunk are numbered from its start on. -/
def validateResults (startIdx : Nat) (results : List Value) : Except JsError (List Value) :=
  results.zipIdx.mapM (fun result => validateRunCodeEachItem result.1 (startIdx + result.2))

def runCodeForEachItem (chunkSize : Nat) : Except JsError (List Value) :=
  (chunkInputItems chunkSize job.inputItems.length).foldlM
    (fun executionResults chunk => do
      let results ← job.startJob (some chunk)
      let validated ← validateResults chunk.startIndex results
      return executionResults ++ validated)
    []

end Job

end N8n.CodeNode
