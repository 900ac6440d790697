import N8n.Library.Dict
import N8n.Library.Explorations
import N8n.Library.Numbers
import N8n.Library.OrderedSets

/-! `removeCircularRefs` of the workflow utilities on a heap of objects and arrays, and its run
as a depth-first exploration.
-/

namespace N8n.CircularRefs

open N8n.Library

inductive Primitive where
  | undefined
  | null
  | boolean (value : Bool)
  | number (value : JsNumber)
  | string (text : String)
  deriving DecidableEq

/-- The last is an object `{ circularReference: true }` that no other place has. -/
inductive Value where
  | primitive (value : Primitive)
  | reference (place : Nat)
  | circularReference
  deriving DecidableEq

inductive Cell where
  | object (properties : Dict String Value)
  | array (elements : List Value)
  deriving DecidableEq

abbrev Heap := List Cell

inductive Key where
  | property (name : String)
  | element (index : Nat)
  deriving DecidableEq

/-- A property of an object or an element of an array. -/
structure Slot where
  holder : Nat
  key : Key
  deriving DecidableEq

def Cell.isArray : Cell → Bool
  | .object _ => false
  | .array _ => true

def Cell.keys : Cell → List Key
  | .object properties => properties.keys.map .property
  | .array elements => (List.range elements.length).map .element

def Cell.value? : Cell → Key → Option Value
  | .object properties, .property name => properties.get? name
  | .array elements, .element index => elements[index]?
  | _, _ => none

def Cell.assign (cell : Cell) (key : Key) (value : Value) : Cell :=
  match cell, key with
  | .object properties, .property name => .object (properties.set name value)
  | .array elements, .element index => .array (elements.set index value)
  | _, _ => cell

def Heap.value? (heap : Heap) (slot : Slot) : Option Value :=
  heap[slot.holder]?.bind (·.value? slot.key)

def Heap.assign (heap : Heap) (slot : Slot) (value : Value) : Heap :=
  heap.modify slot.holder (·.assign slot.key value)

/-- `Object.entries(obj)` -/
def Heap.entries (heap : Heap) (obj : Nat) : List (String × Value) :=
  match heap[obj]? with
  | some (.object properties) => properties.entries
  | _ => []

def isTraversableObject (heap : Heap) : Value → Bool
  | .primitive _ => false
  | .reference place =>
      match heap[place]? with
      | some (.object properties) => !properties.keys.isEmpty
      | _ => false
  | .circularReference => true

structure State where
  heap : Heap
  seen : OrderedSet Nat

def State.assign (state : State) (slot : Slot) : State :=
  { state with heap := state.heap.assign slot .circularReference }

/-- One turn of the loop over an array, where the elements are read as they are by then. A
`{ circularReference: true }` in it has nothing to change, and another such object may take
its place.
-/
def visitElement (recurse : State → Nat → Option State) (array : Nat) (state : State)
    (index : Nat)
    : Option State :=
  match state.heap.value? ⟨array, .element index⟩ with
  | some (.reference place) =>
      if place ∈ state.seen then some (state.assign ⟨array, .element index⟩)
      else if isTraversableObject state.heap (.reference place) then recurse state place
      else some state
  | _ => some state

/-- One turn of the loop over the entries of an object. -/
def visitEntry (recurse : State → Nat → Option State) (obj : Nat) (state : State)
    (entry : String × Value)
    : Option State :=
  match entry.2 with
  | .reference place =>
      if isTraversableObject state.heap (.reference place) then
        if place ∈ state.seen then some (state.assign ⟨obj, .property entry.1⟩)
        else recurse state place
      else
        match state.heap[place]? with
        | some (.array elements) =>
            (List.range elements.length).foldlM (visitElement recurse place) state
        | _ => some state
  | _ => some state

/-- With at most `calls` calls within each other. -/
def removeCircularRefs : (calls : Nat) → State → (obj : Nat) → Option State
  | 0, _, _ => none
  | calls + 1, state, obj =>
      (state.heap.entries obj).foldlM (visitEntry (removeCircularRefs calls) obj)
        { state with seen := state.seen.insert obj }

/-- A reference that the traversal meets at an entry of `obj`: the entry itself, or an element of
the array that is the entry's value.
-/
structure Encounter where
  obj : Nat
  entry : String
  slot : Slot
  target : Nat
  deriving DecidableEq

def elementEncounter? (heap : Heap) (obj : Nat) (entry : String) (array index : Nat)
    : Option Encounter :=
  match heap.value? ⟨array, .element index⟩ with
  | some (.reference target) =>
      if isTraversableObject heap (.reference target) then
        some ⟨obj, entry, ⟨array, .element index⟩, target⟩
      else none
  | _ => none

def entryEncounters (heap : Heap) (obj : Nat) (entry : String × Value) : List Encounter :=
  match entry.2 with
  | .reference place =>
      if isTraversableObject heap (.reference place) then
        [⟨obj, entry.1, ⟨obj, .property entry.1⟩, place⟩]
      else
        match heap[place]? with
        | some (.array elements) =>
            (List.range elements.length).flatMap
              (fun index => (elementEncounter? heap obj entry.1 place index).toList)
        | _ => []
  | _ => []

def encounters (heap : Heap) (obj : Nat) : List Encounter :=
  (heap.entries obj).flatMap (entryEncounters heap obj)

section Slots

variable {heap next : Heap} {slot other : Slot} {old new : Value}

/-- Whether it is an array, and its keys. -/
def Cell.shape (cell : Cell) : Bool × List Key := (cell.isArray, cell.keys)

variable {cell : Cell} {key : Key}

theorem Cell.shape_assign (found : cell.value? key = some old)
    : (cell.assign key new).shape = cell.shape := by
  cases cell with
  | object properties =>
      cases key with
      | property name =>
          have same : (properties.set name new).keys = properties.keys :=
            Dict.assign_of_mem new (Dict.mem_keys_of_get? found)
          simp [assign, shape, isArray, keys, same]
      | element index => rfl
  | array elements => cases key <;> simp [assign, shape, isArray, keys]

theorem Cell.value?_assign (found : cell.value? key = some old) (searched : Key)
    : (cell.assign key new).value? searched
      = if searched = key then some new else cell.value? searched := by
  cases cell with
  | object properties =>
      cases key with
      | property name =>
          cases searched with
          | property other => simp [assign, value?, Dict.get?_set]
          | element index => simp [assign, value?]
      | element index => contradiction
  | array elements =>
      cases key with
      | property name => contradiction
      | element index =>
          cases searched with
          | property name => simp [assign, value?]
          | element other =>
              have inside : index < elements.length :=
                (List.getElem?_eq_some_iff.mp found).choose
              simp only [assign, value?, List.getElem?_set, Key.element.injEq, inside, if_true]
              exact if_congr eq_comm rfl rfl

variable {place : Nat}

theorem Heap.getElem?_assign_of_ne (apart : slot.holder ≠ place)
    : (heap.assign slot new)[place]? = heap[place]? :=
  List.getElem?_modify_ne _ _ apart

theorem Heap.shape_assign (found : heap.value? slot = some old)
    : (heap.assign slot new).map Cell.shape = heap.map Cell.shape := by
  obtain ⟨cell, present, value⟩ := Option.bind_eq_some_iff.mp found
  apply List.ext_getElem?
  intro place
  rw [List.getElem?_map, List.getElem?_map]
  by_cases here : slot.holder = place
  · subst here
    rw [assign, List.getElem?_modify_eq, present]
    exact congrArg some (Cell.shape_assign value)
  · rw [getElem?_assign_of_ne here]

theorem Heap.value?_assign (found : heap.value? slot = some old) (other : Slot)
    : (heap.assign slot new).value? other
      = if other = slot then some new else heap.value? other := by
  obtain ⟨cell, present, value⟩ := Option.bind_eq_some_iff.mp found
  obtain ⟨holder, key⟩ := slot
  obtain ⟨place, searched⟩ := other
  by_cases here : holder = place
  · subst here
    rw [Heap.value?, assign, List.getElem?_modify_eq, present]
    simp only [Option.map_eq_map, Option.map_some, Option.bind_some, Cell.value?_assign value,
      Slot.mk.injEq, true_and, Heap.value?, present]
  · have apart : (Slot.mk place searched) ≠ ⟨holder, key⟩ :=
      fun same => here (congrArg Slot.holder same).symm
    have same : (Heap.assign heap ⟨holder, key⟩ new)[place]? = heap[place]? :=
      getElem?_assign_of_ne here
    rw [if_neg apart]
    exact congrArg (·.bind (·.value? searched)) same

theorem shape_eq (same : next.map Cell.shape = heap.map Cell.shape) (place : Nat)
    : next[place]?.map Cell.shape = heap[place]?.map Cell.shape := by
  rw [← List.getElem?_map, ← List.getElem?_map, same]

theorem isTraversableObject_reference (heap : Heap) (place : Nat)
    : isTraversableObject heap (.reference place)
      = (heap[place]?.map Cell.shape).any (fun shape => !shape.1 && !shape.2.isEmpty) := by
  cases present : heap[place]? with
  | none => simp [isTraversableObject, present]
  | some cell =>
      cases cell <;>
        simp [isTraversableObject, present, Cell.shape, Cell.isArray, Cell.keys]

theorem isTraversableObject_congr (same : next.map Cell.shape = heap.map Cell.shape)
    (place : Nat)
    : isTraversableObject next (.reference place)
      = isTraversableObject heap (.reference place) := by
  rw [isTraversableObject_reference, isTraversableObject_reference, shape_eq same]

theorem isTraversableObject_iff
    : isTraversableObject heap (.reference place) = true
      ↔ ∃ properties, heap[place]? = some (.object properties) ∧ properties.keys ≠ [] := by
  cases present : heap[place]? with
  | none => simp [isTraversableObject, present]
  | some cell => cases cell <;> simp [isTraversableObject, present]

variable {elements : List Value}

theorem exists_array (same : next.map Cell.shape = heap.map Cell.shape)
    (found : heap[place]? = some (.array elements))
    : ∃ others, next[place]? = some (.array others) ∧ others.length = elements.length := by
  have equal := shape_eq same place
  rw [found] at equal
  cases present : next[place]? with
  | none => simp [present] at equal
  | some cell =>
      rw [present, Option.map_some, Option.map_some] at equal
      have parts := Prod.mk.inj (Option.some.inj equal)
      cases cell with
      | object properties => exact absurd parts.1 (by simp [Cell.isArray])
      | array others =>
          refine ⟨others, rfl, ?_⟩
          have lengths := congrArg List.length parts.2
          simpa [Cell.keys] using lengths

theorem array_of_array (same : next.map Cell.shape = heap.map Cell.shape)
    (found : next[place]? = some (.array elements))
    : ∃ others, heap[place]? = some (.array others) :=
  (exists_array same.symm found).imp (fun _ => And.left)

end Slots

section Encounters

variable {heap : Heap} {obj place target : Nat} {name : String} {e : Encounter}

variable {value : Value}

theorem mem_entries
    : (name, value) ∈ heap.entries obj ↔ heap.value? ⟨obj, .property name⟩ = some value := by
  cases present : heap[obj]? with
  | none => simp [Heap.entries, Heap.value?, present]
  | some cell =>
      cases cell with
      | object properties =>
          simp [Heap.entries, Heap.value?, present, Cell.value?, Dict.mem_entries_iff]
      | array elements => simp [Heap.entries, Heap.value?, present, Cell.value?]

theorem elementEncounter?_eq_some_iff {array index : Nat}
    : elementEncounter? heap obj name array index = some e
      ↔ ∃ target,
          heap.value? ⟨array, .element index⟩ = some (.reference target)
          ∧ isTraversableObject heap (.reference target) = true
          ∧ ⟨obj, name, ⟨array, .element index⟩, target⟩ = e := by
  cases found : heap.value? ⟨array, .element index⟩ with
  | none => simp [elementEncounter?, found]
  | some value => cases value <;> simp [elementEncounter?, found]

theorem mem_entryEncounters_iff
    : e ∈ entryEncounters heap obj (name, value)
      ↔ ∃ place,
          value = .reference place
          ∧ (isTraversableObject heap (.reference place) = true
              ∧ e = ⟨obj, name, ⟨obj, .property name⟩, place⟩
            ∨ ∃ elements index,
                heap[place]? = some (.array elements)
                ∧ elementEncounter? heap obj name place index = some e) := by
  cases value with
  | reference place =>
      simp only [Value.reference.injEq, exists_eq_left']
      by_cases traversable : isTraversableObject heap (.reference place) = true
      · obtain ⟨properties, present, -⟩ := isTraversableObject_iff.mp traversable
        simp [entryEncounters, traversable, present]
      · cases present : heap[place]? with
        | none => simp [entryEncounters, traversable, present]
        | some cell =>
            cases cell with
            | object properties => simp [entryEncounters, traversable, present]
            | array elements =>
                have inside (index : Nat)
                    (met : elementEncounter? heap obj name place index = some e)
                    : index < elements.length := by
                  obtain ⟨target, found, -⟩ := elementEncounter?_eq_some_iff.mp met
                  rw [Heap.value?, present] at found
                  exact (List.getElem?_eq_some_iff.mp found).choose
                simp only [entryEncounters, traversable, present, List.mem_flatMap,
                  List.mem_range, Option.mem_toList, Bool.false_eq_true, if_false, false_and,
                  false_or, Option.some.injEq, Cell.array.injEq]
                constructor
                · rintro ⟨index, _, met⟩
                  exact ⟨elements, index, rfl, met⟩
                · rintro ⟨_, index, _, met⟩
                  exact ⟨index, inside index met, met⟩
  | _ => simp [entryEncounters]

/-- Where a reference is met: at the entry itself, or in the array that is its value. -/
theorem mem_encounters_iff
    : e ∈ encounters heap obj
      ↔ e.obj = obj
        ∧ heap.value? e.slot = some (.reference e.target)
        ∧ isTraversableObject heap (.reference e.target) = true
        ∧ (e.slot = ⟨obj, .property e.entry⟩
          ∨ ∃ array index elements,
              heap.value? ⟨obj, .property e.entry⟩ = some (.reference array)
              ∧ heap[array]? = some (.array elements)
              ∧ e.slot = ⟨array, .element index⟩) := by
  simp only [encounters, List.mem_flatMap, Prod.exists, mem_entries, mem_entryEncounters_iff]
  constructor
  · rintro ⟨name, _, found, place, rfl, ⟨traversable, rfl⟩ | ⟨elements, index, present, met⟩⟩
    · exact ⟨rfl, found, traversable, .inl rfl⟩
    · obtain ⟨target, element, traversable, rfl⟩ := elementEncounter?_eq_some_iff.mp met
      exact ⟨rfl, element, traversable, .inr ⟨place, index, elements, found, present, rfl⟩⟩
  · obtain ⟨from_, name, slot, target⟩ := e
    rintro ⟨same, found, traversable, way⟩
    simp only at same found traversable way
    subst same
    rcases way with rfl | ⟨array, index, elements, held, present, rfl⟩
    · exact ⟨name, _, found, target, rfl, .inl ⟨traversable, rfl⟩⟩
    · exact ⟨name, _, held, array, rfl, .inr ⟨elements, index, present,
        elementEncounter?_eq_some_iff.mpr ⟨target, found, traversable, rfl⟩⟩⟩

theorem entryEncounters_nodup (heap : Heap) (obj : Nat) (entry : String × Value)
    : (entryEncounters heap obj entry).Nodup := by
  unfold entryEncounters
  split
  · split
    · exact List.nodup_singleton _
    · split
      · refine List.nodup_flatMap.mpr ⟨fun index _ => ?_, List.nodup_range.imp ?_⟩
        · cases elementEncounter? heap obj entry.1 _ index <;> simp
        · intro index other differ e first second
          obtain ⟨_, _, _, rfl⟩ := elementEncounter?_eq_some_iff.mp (Option.mem_toList.mp first)
          obtain ⟨_, _, _, same⟩ := elementEncounter?_eq_some_iff.mp (Option.mem_toList.mp second)
          have keys := congrArg (fun e => e.slot.key) same
          exact differ (Key.element.inj keys).symm
      · exact List.nodup_nil
  · exact List.nodup_nil

theorem entries_nodup (heap : Heap) (obj : Nat) : ((heap.entries obj).map Prod.fst).Nodup := by
  unfold Heap.entries
  split
  case h_1 properties _ => exact properties.nodup
  case h_2 => exact List.nodup_nil

theorem entry_eq {entry : String × Value} (met : e ∈ entryEncounters heap obj entry)
    : e.entry = entry.1 := by
  obtain ⟨place, -, ⟨-, rfl⟩ | ⟨elements, index, -, met⟩⟩ := mem_entryEncounters_iff.mp met
  · rfl
  · obtain ⟨_, _, _, rfl⟩ := elementEncounter?_eq_some_iff.mp met
    rfl

theorem encounters_nodup (heap : Heap) (obj : Nat) : (encounters heap obj).Nodup := by
  refine List.nodup_flatMap.mpr ⟨fun entry _ => entryEncounters_nodup heap obj entry, ?_⟩
  refine (List.pairwise_map.mp (entries_nodup heap obj)).imp ?_
  intro entry other differ e first second
  exact differ ((entry_eq first).symm.trans (entry_eq second))

/-- The encounters as the edges between the objects. -/
def encounterGraph (heap : Heap) : EdgeGraph Nat Encounter where
  source := Encounter.obj
  target := Encounter.target
  leaving := encounters heap
  source_leaving _ _ member := (mem_encounters_iff.mp member).1
  nodup_leaving := encounters_nodup heap

end Encounters

end N8n.CircularRefs
