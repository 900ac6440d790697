import Mathlib.Data.List.Basic

/-! What the models need of the source language: arrays with missing places, and the
errors its operators and assertions raise.
-/

namespace N8n

/-- An assertion without a message of its own has `none`; a `rangeError` is a call stack
that has grown too large. An `error` is of one of the program's own classes.
-/
inductive JsError where
  | typeError
  | rangeError
  | assertion (message : Option String)
  | error (className message : String) (description : Option String)
  deriving DecidableEq, Repr

/-- A place of an array whose elements may be missing: a hole or `undefined`, `null`, or
a value.
-/
inductive Slot (α : Type*) where
  | undefined
  | null
  | value (a : α)
  deriving DecidableEq, Repr

namespace Slot

variable {α : Type*}

/-- Every value kept in such arrays is an object, so only missing places are falsy. -/
def isTruthy : Slot α → Bool
  | .value _ => true
  | _ => false

def isDefined : Slot α → Bool
  | .undefined => false
  | _ => true

theorem isTruthy_iff {slot : Slot α} : slot.isTruthy = true ↔ ∃ a, slot = .value a := by
  cases slot <;> simp [isTruthy]

/-- `slots[index]`. -/
def read (slots : List (Slot α)) (index : Nat) : Slot α := slots.getD index .undefined

/-- `slots[index] = slot`, which fills an array that is too short with holes. -/
def write (slots : List (Slot α)) (index : Nat) (slot : Slot α) : List (Slot α) :=
  if index < slots.length then slots.set index slot
  else slots ++ List.replicate (index - slots.length) .undefined ++ [slot]

theorem read_write (slots : List (Slot α)) (index other : Nat) (slot : Slot α)
    : read (write slots index slot) other = if other = index then slot else read slots other := by
  unfold read write
  by_cases inside : index < slots.length
  · simp only [inside, if_true, List.getD_eq_getElem?_getD, List.getElem?_set]
    by_cases same : other = index
    · subst same
      simp
    · simp [same, Ne.symm same]
  · simp only [inside, if_false, List.getD_eq_getElem?_getD]
    by_cases same : other = index
    · subst same
      rw [List.getElem?_append_right (by simp; omega)]
      simp [show slots.length + (other - slots.length) = other by omega]
    · simp only [same, if_false]
      by_cases before : other < slots.length
      · rw [List.append_assoc, List.getElem?_append_left before]
      · rw [List.append_assoc, List.getElem?_append_right (by omega),
          List.getElem?_eq_none (show slots.length ≤ other by omega)]
        by_cases padded : other - slots.length < index - slots.length
        · simp [List.getElem?_append_left, padded]
        · rw [List.getElem?_eq_none (by simp; omega)]

variable {slots : List (Slot α)} {index : Nat}

theorem length_write_of_lt (slot : Slot α) (inside : index < slots.length)
    : (write slots index slot).length = slots.length := by
  simp [write, inside]

theorem write_write (slots : List (Slot α)) (index : Nat) (slot : Slot α)
    : write (write slots index slot) index slot = write slots index slot := by
  by_cases inside : index < slots.length
  · simp [write, inside]
  · have front
        : (slots ++ List.replicate (index - slots.length) Slot.undefined).length = index := by
      simp
      omega
    have longer
        : index
          < (slots ++ List.replicate (index - slots.length) Slot.undefined ++ [slot]).length := by
      rw [List.length_append, front]
      simp
    simp only [write, inside, if_false, longer, if_true]
    rw [List.set_append_right _ _ (by omega), front]
    simp

/-- An array that is written to has its old slots, holes and the new one. -/
theorem mem_write {slot other : Slot α} (member : other ∈ write slots index slot)
    : other ∈ slots ∨ other = .undefined ∨ other = slot := by
  unfold write at member
  split at member
  · rcases List.mem_or_eq_of_mem_set member with old | new
    · exact .inl old
    · exact .inr (.inr new)
  · simp only [List.mem_append, List.mem_replicate, List.mem_singleton] at member
    rcases member with (old | hole) | new
    · exact .inl old
    · exact .inr (.inl hole.2)
    · exact .inr (.inr new)

theorem read_replicate_null (length index : Nat)
    : read (List.replicate length (.null : Slot α)) index
      = if index < length then .null else .undefined := by
  by_cases inside : index < length <;> simp [read, List.getD_eq_getElem?_getD, inside]

theorem read_mem (inside : index < slots.length)
    : read slots index ∈ slots := by
  simp [read, List.getD_eq_getElem?_getD, inside]

end Slot

end N8n
