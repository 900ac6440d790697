import N8n.Library.Dict

/-! Dictionaries as caches: entries move to the end when they are used, and the first one goes when
there is no more room.
-/

namespace N8n.Dict

variable {κ α : Type*} [DecidableEq κ] {d : Dict κ α} {key other : κ} {value : α} {limit : Nat}
variable {P : κ → α → Prop}

/-- `move_to_end`, for a key that is present. -/
def moveToEnd (d : Dict κ α) (key : κ) : Dict κ α :=
  match d.get? key with
  | none => d
  | some value => (d.delete key).set key value

/-- `popitem(last=False)`. -/
def popFirst (d : Dict κ α) : Dict κ α where
  entries := d.entries.tail
  nodup := ((List.tail_sublist _).map Prod.fst).nodup d.nodup

/-- A new entry at the end, for which the first one goes when the cache is full. -/
def store (limit : Nat) (d : Dict κ α) (key : κ) (value : α) : Dict κ α :=
  ((if limit ≤ d.keys.length then d.popFirst else d).set key value).moveToEnd key

/-- All entries are as they should be. -/
def Holds (P : κ → α → Prop) (d : Dict κ α) : Prop :=
  ∀ key value, d.get? key = some value → P key value

@[simp] theorem get?_moveToEnd : (d.moveToEnd key).get? other = d.get? other := by
  unfold moveToEnd
  cases found : d.get? key with
  | none => rfl
  | some value =>
      simp only [get?_set, get?_delete]
      by_cases same : other = key
      · rw [if_pos same, same, found]
      · rw [if_neg same, if_neg same]

theorem get?_of_popFirst (found : d.popFirst.get? key = some value) : d.get? key = some value :=
  mem_entries_iff.mp (List.mem_of_mem_tail (mem_entries_iff.mpr found))

theorem Holds.moveToEnd (holds : Holds P d) : Holds P (d.moveToEnd key) := by
  intro other value found
  rw [get?_moveToEnd] at found
  exact holds other value found

/-- A stored entry joins those that are there. -/
theorem Holds.store (holds : Holds P d) (isEntry : P key value)
    : Holds P (store limit d key value) := by
  apply Holds.moveToEnd
  intro other kept found
  rw [get?_set] at found
  split at found
  · next same =>
      cases found
      exact same ▸ isEntry
  · split at found
    · exact holds other kept (get?_of_popFirst found)
    · exact holds other kept found

theorem length_keys_moveToEnd_le : (d.moveToEnd key).keys.length ≤ d.keys.length := by
  unfold moveToEnd
  cases found : d.get? key with
  | none => exact Nat.le_refl _
  | some value =>
      have absent : (d.delete key).get? key = none := by simp [get?_delete]
      have deleted := length_keys_delete_of_get? found
      rw [keys, set_entries_of_not_mem value absent]
      simp only [keys, List.length_map, List.length_append, List.length_singleton] at deleted ⊢
      omega

theorem length_keys_store_le (room : 0 < limit) (within : d.keys.length ≤ limit)
    : (store limit d key value).keys.length ≤ limit := by
  refine Nat.le_trans length_keys_moveToEnd_le ?_
  by_cases full : limit ≤ d.keys.length
  · rw [if_pos full]
    have added := length_keys_set_le d.popFirst key value
    have popped : d.popFirst.keys.length = d.keys.length - 1 := by
      simp [keys, popFirst]
    omega
  · rw [if_neg full]
    have added := length_keys_set_le d key value
    omega

end N8n.Dict
