import N8n.Library.Dict

/-! Plain objects and arrays of the source, on a heap: their own properties, what they
inherit, and the JSON values they are built from. The accessor `__proto__` is not a key here,
and JSON values have no functions and no dates.
-/

namespace N8n.Objects

/-- A property key: an array index, or another string. -/
inductive Key where
  | index (n : Nat)
  | name (s : String)
  deriving DecidableEq, Repr

inductive Json (P : Type) where
  | primitive (p : P)
  | array (elements : List (Json P))
  | object (properties : List (Key × Json P))

inductive Value (P : Type) where
  | primitive (p : P)
  | ref (address : Nat)
  deriving DecidableEq, Repr

/-- The own properties of an object; an array has its length besides them. -/
structure Table (α : Type) where
  length : Option Nat
  properties : Dict Key α
  deriving DecidableEq

inductive Property (α : Type) where
  | length (n : Nat)
  | value (a : α)
  deriving DecidableEq, Repr

/-- A function that an object inherits, from `Object.prototype` or `Array.prototype`. -/
inductive Builtin where
  | object (name : String)
  | array (name : String)
  deriving DecidableEq, Repr

def objectPrototype : List String :=
  ["constructor", "hasOwnProperty", "isPrototypeOf", "propertyIsEnumerable", "toLocaleString",
    "toString", "valueOf", "__defineGetter__", "__defineSetter__", "__lookupGetter__",
    "__lookupSetter__"]

def arrayPrototype : List String :=
  ["at", "concat", "constructor", "copyWithin", "entries", "every", "fill", "filter", "find",
    "findIndex", "findLast", "findLastIndex", "flat", "flatMap", "forEach", "includes",
    "indexOf", "join", "keys", "lastIndexOf", "map", "pop", "push", "reduce", "reduceRight",
    "reverse", "shift", "slice", "some", "sort", "splice", "toLocaleString", "toReversed",
    "toSorted", "toSpliced", "toString", "unshift", "values", "with"]

def inherited? (isArray : Bool) : Key → Option Builtin
  | .index _ => none
  | .name s =>
      if isArray ∧ s ∈ arrayPrototype then some (.array s)
      else if s ∈ objectPrototype then some (.object s)
      else none

namespace Table

variable {α β : Type}

def empty : Table α := ⟨none, Dict.empty⟩

def isArray (table : Table α) : Bool := table.length.isSome

/-- The one own property of an array that is no entry of its dictionary. -/
def IsLength (table : Table α) (key : Key) : Prop :=
  table.isArray = true ∧ key = .name "length"

instance (table : Table α) (key : Key) : Decidable (table.IsLength key) :=
  inferInstanceAs (Decidable (_ ∧ _))

def get? (table : Table α) (key : Key) : Option α := table.properties.get? key

def own? (table : Table α) (key : Key) : Option (Property α) :=
  if table.IsLength key then table.length.map .length else (table.get? key).map .value

/-- An index that is not below the length of an array makes it longer. -/
def lengthAfter (length : Nat) : Key → Nat
  | .index n => max length (n + 1)
  | .name _ => length

/-- The properties that an array of the length can have. -/
def within (length : Nat) : Key → Bool
  | .index n => n < length
  | .name _ => true

def truncate (table : Table α) (length : Nat) : Table α where
  length := some length
  properties :=
    {
      entries := table.properties.entries.filter (fun entry => within length entry.1)
      nodup := (List.filter_sublist.map Prod.fst).nodup table.properties.nodup
    }

/-- `table[key] = a`; `newLength` is what `a` amounts to as the length of an array, and
without it such an assignment is a `RangeError`.
-/
def write (table : Table α) (key : Key) (a : α) (newLength : Option Nat) : Option (Table α) :=
  if table.IsLength key then newLength.map table.truncate
  else
    some
      {
        length := table.length.map (fun length => lengthAfter length key)
        properties := table.properties.set key a
      }

/-- `delete table[key]`, which fails for the length of an array. -/
def remove (table : Table α) (key : Key) : Bool × Table α :=
  if table.IsLength key then (false, table)
  else (true, { table with properties := table.properties.delete key })

def hasProperty (table : Table α) (key : Key) : Bool :=
  (table.own? key).isSome || (inherited? table.isArray key).isSome

def indexOf? : Key → Option Nat
  | .index n => some n
  | .name _ => none

/-- The indexes in ascending order, then the other keys in the order of their creation. -/
def ownKeys (table : Table α) : List Key :=
  ((table.properties.keys.filterMap indexOf?).insertionSort (· ≤ ·)).map .index
  ++ (if table.isArray then [.name "length"] else [])
  ++ table.properties.keys.filter (fun key => (indexOf? key).isNone)

def map (table : Table α) (change : α → β) : Table β where
  length := table.length
  properties := table.properties.mapValues change

end Table

def arrayOf {α : Type} (values : List α) : Table α where
  length := some values.length
  properties :=
    {
      entries := values.zipIdx.map (fun place => (.index place.2, place.1))
      nodup := by
        have distinct : (values.zipIdx.map Prod.snd).Nodup := by
          rw [List.zipIdx_map_snd]
          exact List.nodup_range'
        have mapped := distinct.map (fun _ _ same => Key.index.inj same)
        rw [List.map_map] at mapped ⊢
        exact mapped
    }

def objectOf {α : Type} (properties : List (Key × α)) : Table α where
  length := none
  properties :=
    properties.foldl (fun before property => before.set property.1 property.2) Dict.empty

abbrev Cells (P : Type) := List (Table (Value P))

section

variable {P : Type}

mutual
/-- A JSON value on a heap, from the next free address on. -/
def build (next : Nat) : Json P → Value P × Cells P
  | .primitive p => (.primitive p, [])
  | .array elements =>
      let (values, cells) := buildElements next elements
      (.ref (next + cells.length), cells ++ [arrayOf values])
  | .object properties =>
      let (entries, cells) := buildProperties next properties
      (.ref (next + cells.length), cells ++ [objectOf entries])

def buildElements (next : Nat) : List (Json P) → List (Value P) × Cells P
  | [] => ([], [])
  | json :: rest =>
      let (value, cells) := build next json
      let (values, others) := buildElements (next + cells.length) rest
      (value :: values, cells ++ others)

def buildProperties (next : Nat) : List (Key × Json P) → List (Key × Value P) × Cells P
  | [] => ([], [])
  | (key, json) :: rest =>
      let (value, cells) := build next json
      let (entries, others) := buildProperties (next + cells.length) rest
      ((key, value) :: entries, cells ++ others)
end

inductive Operation (P : Type) where
  | get (key : Key)
  | set (key : Key) (newValue : Json P)
  | delete (key : Key)
  | has (key : Key)
  | ownKeys

/-- What an operation gives back; `Handle` is what refers to objects. -/
inductive Result (P Handle : Type) where
  | undefined
  | primitive (p : P)
  | length (n : Nat)
  | builtin (function : Builtin)
  | handle (h : Handle)
  | boolean (b : Bool)
  | keys (isArray : Bool) (names : List Key)
  | rangeError
  deriving DecidableEq

def Result.map {Handle Other : Type} (change : Handle → Other) : Result P Handle → Result P Other
  | .undefined => .undefined
  | .primitive p => .primitive p
  | .length n => .length n
  | .builtin function => .builtin function
  | .handle h => .handle (change h)
  | .boolean b => .boolean b
  | .keys isArray names => .keys isArray names
  | .rangeError => .rangeError

def Result.handle? {Handle : Type} : Result P Handle → Option Handle
  | .handle h => some h
  | _ => none

/-- What is read of a property that an object does not have itself. -/
def inheritedResult {Handle : Type} (isArray : Bool) (key : Key) : Result P Handle :=
  match inherited? isArray key with
  | some function => .builtin function
  | none => .undefined

/-- An operation on the plain object at an address; `toLength` is what a value amounts to as
the length of an array.
-/
def operate (toLength : Json P → Option Nat) (heap : Cells P) (address : Nat)
    (operation : Operation P)
    : Result P Nat × Cells P :=
  match heap[address]? with
  | none => (.undefined, heap)
  | some table =>
      match operation with
      | .get key =>
          match table.own? key with
          | some (.length n) => (.length n, heap)
          | some (.value (.primitive p)) => (.primitive p, heap)
          | some (.value (.ref child)) => (.handle child, heap)
          | none => (inheritedResult table.isArray key, heap)
      | .set key newValue =>
          let (value, cells) := build heap.length newValue
          match table.write key value (toLength newValue) with
          | some changed => (.boolean true, (heap ++ cells).set address changed)
          | none => (.rangeError, heap ++ cells)
      | .delete key =>
          let (deleted, changed) := table.remove key
          (.boolean deleted, heap.set address changed)
      | .has key => (.boolean (table.hasProperty key), heap)
      | .ownKeys => (.keys table.isArray table.ownKeys, heap)

/-- A program at work: the handles it has obtained so far, and the results it has seen. -/
structure Session (State P Handle : Type) where
  state : State
  handles : List Handle
  results : List (Result P Handle)

/-- An operation on one of the handles; on a handle that was never obtained there is none. -/
def Session.step {State Handle : Type}
    (operate : State → Handle → Operation P → Result P Handle × State)
    (session : Session State P Handle) (action : Nat × Operation P)
    : Session State P Handle :=
  match session.handles[action.1]? with
  | none => session
  | some handle =>
      let (result, state) := operate session.state handle action.2
      ⟨state, session.handles ++ result.handle?.toList, session.results ++ [result]⟩

end

end N8n.Objects
