import N8n.Library.Objects

/-! Objects that are changed without a change to the data behind them
(`packages/workflow/src/augment-object.ts`). A heap has the plain objects and, apart from
them, the proxies with what each of them keeps.
-/

namespace N8n.AugmentObject

open N8n.Objects

inductive Handle where
  | plain (address : Nat)
  | proxy (id : Nat)
  deriving DecidableEq, Repr

/-- A value that a proxy keeps; the holes of a spread array become `undefined`. -/
inductive NewValue (P : Type) where
  | undefined
  | primitive (p : P)
  | handle (h : Handle)
  deriving DecidableEq

/-- What a proxy keeps, with the address of its data. -/
inductive Augmented (P : Type) where
  | object (data : Nat) (newData : Table (NewValue P)) (deletedProperties : List Key)
  | array (data : Nat) (newData : Option (Table (NewValue P)))
  deriving DecidableEq

structure Heap (P : Type) where
  cells : Cells P
  proxies : List (Augmented P)

variable {P : Type} [DecidableEq P]

def ofValue : Value P → NewValue P
  | .primitive p => .primitive p
  | .ref address => .handle (.plain address)

def resultOf : NewValue P → Result P Handle
  | .undefined => .undefined
  | .primitive p => .primitive p
  | .handle h => .handle h

/-- What the proxy of an array or of an object keeps at first. -/
def proxyOf (address : Nat) (data : Table (Value P)) : Augmented P :=
  if data.isArray then .array address none else .object address Table.empty []

namespace Heap

def setProxy (heap : Heap P) (id : Nat) (augmented : Augmented P) : Heap P :=
  { heap with proxies := heap.proxies.set id augmented }

/-- A proxy is left as it is. -/
def augment (heap : Heap P) (value : NewValue P) : NewValue P × Heap P :=
  match value with
  | .handle (.plain address) =>
      match heap.cells[address]? with
      | none => (value, heap)
      | some data =>
          (.handle (.proxy heap.proxies.length),
            { heap with proxies := heap.proxies ++ [proxyOf address data] })
  | _ => (value, heap)

def objectGet (heap : Heap P) (id data : Nat) (newData : Table (NewValue P))
    (deletedProperties : List Key) (key : Key)
    : Result P Handle × Heap P :=
  if key = .name "constructor" then (.builtin (.object "constructor"), heap)
  else if key ∈ deletedProperties then (.undefined, heap)
  else
    match newData.get? key with
    | some value => (resultOf value, heap)
    | none =>
        match heap.cells[data]? with
        | none => (.undefined, heap)
        | some target =>
            match target.own? key with
            | none => (inheritedResult target.isArray key, heap)
            | some (.length n) => (.length n, heap)
            | some (.value value) =>
                let (newValue, augmented) := heap.augment (ofValue value)
                if newValue ≠ ofValue value then
                  let newData := { newData with properties := newData.properties.set key newValue }
                  (resultOf newValue,
                    augmented.setProxy id (.object data newData deletedProperties))
                else (resultOf newValue, augmented)

def objectDelete (heap : Heap P) (id data : Nat) (newData : Table (NewValue P))
    (deletedProperties : List Key) (key : Key)
    : Result P Handle × Heap P :=
  let isOwn : Bool :=
    match heap.cells[data]? with
    | none => false
    | some target => (target.own? key).isSome
  let newData := { newData with properties := newData.properties.delete key }
  let deletedProperties :=
    if isOwn ∧ key ∉ deletedProperties then deletedProperties ++ [key] else deletedProperties
  (.boolean true, heap.setProxy id (.object data newData deletedProperties))

/-- JSON values are never `undefined`. -/
def objectSet (heap : Heap P) (id data : Nat) (newData : Table (NewValue P))
    (deletedProperties : List Key) (key : Key) (newValue : Json P)
    : Result P Handle × Heap P :=
  let (value, cells) := build heap.cells.length newValue
  let newData := { newData with properties := newData.properties.set key (ofValue value) }
  let deletedProperties := deletedProperties.filter (fun other => other ≠ key)
  let heap := { heap with cells := heap.cells ++ cells }
  (.boolean true, heap.setProxy id (.object data newData deletedProperties))

def objectHas (heap : Heap P) (data : Nat) (newData : Table (NewValue P))
    (deletedProperties : List Key) (key : Key)
    : Bool :=
  if key ∈ deletedProperties then false
  else if (newData.get? key).isSome then newData.hasProperty key
  else
    match heap.cells[data]? with
    | none => false
    | some target => target.hasProperty key

def objectOwnKeys (heap : Heap P) (data : Nat) (newData : Table (NewValue P))
    (deletedProperties : List Key)
    : List Key :=
  let originalKeys :=
    match heap.cells[data]? with
    | none => []
    | some target => target.ownKeys
  (originalKeys ++ newData.ownKeys.filter (fun key => key ∉ originalKeys)).filter (fun key =>
    key ∉ deletedProperties)

def operateObject (heap : Heap P) (id data : Nat) (newData : Table (NewValue P))
    (deletedProperties : List Key)
    : Operation P → Result P Handle × Heap P
  | .get key => heap.objectGet id data newData deletedProperties key
  | .set key newValue => heap.objectSet id data newData deletedProperties key newValue
  | .delete key => heap.objectDelete id data newData deletedProperties key
  | .has key => (.boolean (heap.objectHas data newData deletedProperties key), heap)
  | .ownKeys => (.keys false (heap.objectOwnKeys data newData deletedProperties), heap)

/-- `newData ?? target`, to be read. -/
def current (heap : Heap P) (data : Nat) (newData : Option (Table (NewValue P)))
    : Table (NewValue P) :=
  match newData with
  | some newData => newData
  | none =>
      match heap.cells[data]? with
      | none => Table.empty
      | some target => target.map ofValue

/-- `[...data]`. -/
def spread (target : Table (Value P)) : Table (NewValue P) :=
  arrayOf ((List.range (target.length.getD 0)).map (fun place =>
    match target.get? (.index place) with
    | none => .undefined
    | some value => ofValue value))

def getData (heap : Heap P) (data : Nat) (newData : Option (Table (NewValue P)))
    : Table (NewValue P) :=
  match newData with
  | some newData => newData
  | none =>
      match heap.cells[data]? with
      | none => Table.empty
      | some target => spread target

def arrayGet (heap : Heap P) (id data : Nat) (newData : Option (Table (NewValue P))) (key : Key)
    : Result P Handle × Heap P :=
  if key = .name "constructor" then (.builtin (.array "constructor"), heap)
  else
    match (heap.current data newData).own? key with
    | none => (inheritedResult true key, heap)
    | some (.length n) => (.length n, heap)
    | some (.value value) =>
        let (newValue, augmented) := heap.augment value
        if newValue ≠ value then
          let newData := (heap.getData data newData).write key newValue none
          (resultOf newValue, augmented.setProxy id (.array data newData))
        else (resultOf newValue, augmented)

def arraySet (toLength : Json P → Option Nat) (heap : Heap P) (id data : Nat)
    (newData : Option (Table (NewValue P))) (key : Key) (newValue : Json P)
    : Result P Handle × Heap P :=
  let newData := heap.getData data newData
  let (value, cells) := build heap.cells.length newValue
  let (value, heap) := { heap with cells := heap.cells ++ cells }.augment (ofValue value)
  match newData.write key value (toLength newValue) with
  | some changed => (.boolean true, heap.setProxy id (.array data (some changed)))
  | none => (.rangeError, heap.setProxy id (.array data (some newData)))

def arrayDelete (heap : Heap P) (id data : Nat) (newData : Option (Table (NewValue P)))
    (key : Key)
    : Result P Handle × Heap P :=
  let (deleted, changed) := (heap.getData data newData).remove key
  (.boolean deleted, heap.setProxy id (.array data (some changed)))

def operateArray (toLength : Json P → Option Nat) (heap : Heap P) (id data : Nat)
    (newData : Option (Table (NewValue P)))
    : Operation P → Result P Handle × Heap P
  | .get key => heap.arrayGet id data newData key
  | .set key newValue => heap.arraySet toLength id data newData key newValue
  | .delete key => heap.arrayDelete id data newData key
  | .has key => (.boolean ((heap.current data newData).hasProperty key), heap)
  | .ownKeys => (.keys true (heap.current data newData).ownKeys, heap)

def operate (toLength : Json P → Option Nat) (heap : Heap P) (handle : Handle)
    (operation : Operation P)
    : Result P Handle × Heap P :=
  match handle with
  | .plain address =>
      let (result, cells) := Objects.operate toLength heap.cells address operation
      (result.map .plain, { heap with cells })
  | .proxy id =>
      match heap.proxies[id]? with
      | none => (.undefined, heap)
      | some (.object data newData deletedProperties) =>
          heap.operateObject id data newData deletedProperties operation
      | some (.array data newData) => heap.operateArray toLength id data newData operation

end Heap

/-- A program that works on `augmentObject(o)`. -/
def augmentObject (o : List (Key × Json P)) : Session (Heap P) P Handle :=
  let (_, cells) := build 0 (.object o)
  ⟨⟨cells, [.object (cells.length - 1) Table.empty []]⟩, [.proxy 0], []⟩

/-- The same program on a deep copy of `o`. -/
def deepCopy (o : List (Key × Json P)) : Session (Cells P) P Nat :=
  let (_, cells) := build 0 (.object o)
  ⟨cells, [cells.length - 1], []⟩

end N8n.AugmentObject
