import Mathlib.Data.List.Nodup

/-! Sets that keep their elements in the order of insertion, as `Set` values of the source
do.
-/

namespace N8n.Library

structure OrderedSet (α : Type*) where
  elements : List α
  nodup : elements.Nodup

namespace OrderedSet

variable {α : Type*}

instance : Membership α (OrderedSet α) := ⟨fun set element => element ∈ set.elements⟩

variable {element : α} {set : OrderedSet α}

theorem mem_def : element ∈ set ↔ element ∈ set.elements :=
  Iff.rfl

def empty : OrderedSet α := ⟨[], List.nodup_nil⟩

def size (set : OrderedSet α) : Nat := set.elements.length

/-- `set.values().next().value` -/
def first? (set : OrderedSet α) : Option α := set.elements.head?

theorem not_mem_empty (element : α) : element ∉ (empty : OrderedSet α) := List.not_mem_nil

theorem mem_of_first? (found : set.first? = some element)
    : element ∈ set :=
  List.mem_of_mem_head? found

/-- A set of at most one element yields the element that it has. -/
theorem first?_of_mem (atMostOne : set.size ≤ 1) (member : element ∈ set)
    : set.first? = some element := by
  obtain ⟨elements, distinct⟩ := set
  rcases elements with _ | ⟨first, _ | ⟨second, rest⟩⟩
  · exact absurd member List.not_mem_nil
  · exact congrArg some (List.mem_singleton.mp member).symm
  · simp [size] at atMostOne

theorem first?_eq_some_iff (atMostOne : set.size ≤ 1)
    : set.first? = some element ↔ element ∈ set :=
  ⟨mem_of_first?, first?_of_mem atMostOne⟩

variable [DecidableEq α]

instance (element : α) (set : OrderedSet α) : Decidable (element ∈ set) :=
  inferInstanceAs (Decidable (element ∈ set.elements))

instance : DecidableEq (OrderedSet α) := fun left right =>
  decidable_of_iff (left.elements = right.elements)
    ⟨fun same => by cases left; cases right; cases same; rfl, fun same => same ▸ rfl⟩

def insert (set : OrderedSet α) (element : α) : OrderedSet α :=
  if absent : element ∈ set then set
  else
    ⟨set.elements ++ [element],
      List.nodup_append.mpr ⟨set.nodup, List.nodup_singleton element,
        fun _ member _ single same =>
          absent (List.mem_singleton.mp single ▸ same ▸ member)⟩⟩

@[simp]
theorem mem_insert {other : α}
    : other ∈ set.insert element ↔ other ∈ set ∨ other = element := by
  unfold insert
  split
  case isTrue present =>
    constructor
    · exact .inl
    · rintro (member | rfl)
      · exact member
      · exact present
  case isFalse => simp [mem_def]

def insertAll (set : OrderedSet α) (items : List α) : OrderedSet α :=
  items.foldl insert set

variable {items : List α}

@[simp]
theorem mem_insertAll
    : element ∈ set.insertAll items ↔ element ∈ set ∨ element ∈ items := by
  induction items generalizing set with
  | nil => simp [insertAll]
  | cons first rest ih =>
      rw [insertAll, List.foldl_cons]
      exact ih.trans (by rw [mem_insert, List.mem_cons, or_assoc])

/-- `new Set(items)` -/
def ofList (items : List α) : OrderedSet α := empty.insertAll items

@[simp]
theorem mem_ofList : element ∈ ofList items ↔ element ∈ items := by
  simp [ofList, not_mem_empty]

def delete (set : OrderedSet α) (element : α) : OrderedSet α :=
  ⟨set.elements.erase element, set.nodup.erase element⟩

theorem mem_delete {other : α}
    : other ∈ set.delete element ↔ other ≠ element ∧ other ∈ set :=
  set.nodup.mem_erase_iff

def deleteAll (set : OrderedSet α) (items : List α) : OrderedSet α :=
  items.foldl delete set

@[simp]
theorem mem_deleteAll
    : element ∈ set.deleteAll items ↔ element ∈ set ∧ element ∉ items := by
  induction items generalizing set with
  | nil => simp [deleteAll]
  | cons first rest ih =>
      rw [deleteAll, List.foldl_cons]
      refine ih.trans ?_
      rw [mem_delete, List.mem_cons, not_or]
      constructor
      · rintro ⟨⟨differs, member⟩, others⟩
        exact ⟨member, differs, others⟩
      · rintro ⟨member, differs, others⟩
        exact ⟨⟨differs, member⟩, others⟩

end OrderedSet

end N8n.Library
