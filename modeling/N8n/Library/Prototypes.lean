import N8n.Library.Objects
import N8n.Library.JavaScript

/-! Objects and functions with prototypes, on a heap of several regions. Properties have names
or indexes and hold data; the only accessor is `__proto__`.
-/

namespace N8n.Prototypes

open N8n.Objects (Key Table)

structure Address where
  region : Nat
  index : Nat
  deriving DecidableEq, Repr

/-- A value that is no object; `N` has the numbers and what else is opaque. -/
inductive Scalar (N : Type) where
  | undefined
  | null
  | boolean (b : Bool)
  | string (s : String)
  | atom (a : N)
  deriving DecidableEq, Repr

inductive Value (N : Type) where
  | scalar (s : Scalar N)
  | object (address : Address)
  | function (address : Address)
  deriving DecidableEq, Repr

inductive Property (N : Type) where
  | data (value : Value N) (writable enumerable : Bool)
  | prototype
  deriving DecidableEq, Repr

structure Record (N : Type) where
  proto : Value N
  extensible : Bool
  table : Table (Property N)

/-- The objects of each region, in the order in which they were made. -/
abbrev Heap (N : Type) := Nat → List (Record N)

namespace Value

variable {N : Type}

def undefined : Value N := .scalar .undefined

def string (s : String) : Value N := .scalar (.string s)

def address? : Value N → Option Address
  | .scalar _ => none
  | .object address => some address
  | .function address => some address

end Value

namespace Heap

variable {N : Type}

def record? (heap : Heap N) (address : Address) : Option (Record N) :=
  (heap address.region)[address.index]?

def update (heap : Heap N) (address : Address) (record : Record N) : Heap N :=
  Function.update heap address.region ((heap address.region).set address.index record)

/-- A new object in a region, with the address that it gets. -/
def allocate (heap : Heap N) (region : Nat) (record : Record N) : Address × Heap N :=
  (⟨region, (heap region).length⟩,
    Function.update heap region (heap region ++ [record]))

/-- The property that an object has or inherits, and its own one first. A prototype chain is
followed for `depth` objects.
-/
def find? (heap : Heap N) (key : Key) : (depth : Nat) → Address → Option (Objects.Property (Property N))
  | 0, _ => none
  | depth + 1, address =>
      match heap.record? address with
      | none => none
      | some record =>
          match record.table.own? key with
          | some property => some property
          | none =>
              match record.proto.address? with
              | none => none
              | some parent => heap.find? key depth parent

/-- The prototype chain of the first object leads to the second. -/
def reaches (heap : Heap N) (target : Address) : (depth : Nat) → Address → Bool
  | 0, _ => false
  | depth + 1, address =>
      address = target
      || match heap.record? address with
        | none => false
        | some record =>
            match record.proto.address? with
            | none => false
            | some parent => heap.reaches target depth parent

/-- What an object becomes when its prototype is set; a value that could be no prototype is
passed over.
-/
def withPrototype (heap : Heap N) (depth : Nat) (address : Address) (record : Record N)
    (value : Value N)
    : Except JsError (Record N) :=
  match value with
  | .scalar .null =>
      if record.extensible then .ok { record with proto := value } else .error .typeError
  | .scalar _ => .ok record
  | .object parent | .function parent =>
      if record.extensible ∧ heap.reaches address depth parent = false then
        .ok { record with proto := value }
      else .error .typeError

/-- What an object becomes when it gets a value as a property of its own; `newLength` is what
the value amounts to as the length of an array.
-/
def written (record : Record N) (key : Key) (value : Value N) (newLength : Option Nat)
    (enumerable : Bool)
    : Except JsError (Record N) :=
  match record.table.write key (.data value true enumerable) newLength with
  | none => .error .rangeError
  | some table => .ok { record with table }

/-- What an object becomes when one of its properties is assigned to. -/
def assigned (heap : Heap N) (depth : Nat) (address : Address) (record : Record N) (key : Key)
    (value : Value N) (newLength : Option Nat)
    : Except JsError (Record N) :=
  match record.table.own? key with
  | some (.length _) =>
      if record.extensible then written record key value newLength true
      else .error .typeError
  | some (.value (.data _ writable enumerable)) =>
      if writable then written record key value newLength enumerable else .error .typeError
  | some (.value .prototype) => heap.withPrototype depth address record value
  | none =>
      match record.proto.address?.bind (heap.find? key depth) with
      | some (.value (.data _ false _)) => .error .typeError
      | some (.value .prototype) => heap.withPrototype depth address record value
      | _ =>
          if record.extensible then written record key value newLength true
          else .error .typeError

def put (heap : Heap N) (depth : Nat) (address : Address) (key : Key) (value : Value N)
    (newLength : Option Nat)
    : Except JsError (Heap N) :=
  match heap.record? address with
  | none => .ok heap
  | some record =>
      (heap.assigned depth address record key value newLength).map (heap.update address)

end Heap

end N8n.Prototypes
