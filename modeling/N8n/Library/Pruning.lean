import Mathlib.Data.List.Basic

/-! Pruning a history from its end: an entry is dropped when it may be merged into the first
entry behind it that is kept.
-/

namespace N8n.Pruning

variable {α : Type*}

/-- The entries of a marked history that are kept, in their order. -/
def keptOf (marked : List (α × Bool)) : List α :=
  (marked.filter (fun entry => entry.2)).map Prod.fst

/-- The entries of a marked history that are dropped, in their order. -/
def droppedOf (marked : List (α × Bool)) : List α :=
  (marked.filter (fun entry => !entry.2)).map Prod.fst

/-- `kept` and `dropped` split the history. A dropped entry may be merged into the first kept
entry behind it, and a kept entry may not be merged into the next one that is kept.
-/
def IsPruning (merges : α → α → Prop) (history kept dropped : List α) : Prop :=
  kept.getLast? = history.getLast?
  ∧ kept.IsChain (fun entry next => ¬merges entry next)
  ∧ ∃ marked : List (α × Bool),
      marked.map Prod.fst = history
      ∧ keptOf marked = kept
      ∧ droppedOf marked = dropped
      ∧ ∀ front entry back, marked = front ++ (entry, false) :: back
          → ∃ next, (keptOf back).head? = some next ∧ merges entry next

/-- Marks each entry against the first kept one behind it. -/
def mark (merges : α → α → Bool) : List α → List (α × Bool)
  | [] => []
  | entry :: rest =>
      match (keptOf (mark merges rest)).head? with
      | none => (entry, true) :: mark merges rest
      | some next => (entry, !merges entry next) :: mark merges rest

variable {merges : α → α → Bool} {entry next : α} {history kept : List α}

@[simp] theorem keptOf_nil : keptOf ([] : List (α × Bool)) = [] := rfl

@[simp] theorem droppedOf_nil : droppedOf ([] : List (α × Bool)) = [] := rfl

@[simp] theorem keptOf_cons_true (marked : List (α × Bool))
    : keptOf ((entry, true) :: marked) = entry :: keptOf marked := rfl

@[simp] theorem keptOf_cons_false (marked : List (α × Bool))
    : keptOf ((entry, false) :: marked) = keptOf marked := rfl

@[simp] theorem droppedOf_cons_true (marked : List (α × Bool))
    : droppedOf ((entry, true) :: marked) = droppedOf marked := rfl

@[simp] theorem droppedOf_cons_false (marked : List (α × Bool))
    : droppedOf ((entry, false) :: marked) = entry :: droppedOf marked := rfl

theorem mark_single (merges : α → α → Bool) (entry : α) : mark merges [entry] = [(entry, true)] :=
  rfl

/-- The mark of an entry in front of a kept one. -/
theorem mark_cons (entry : α) (behind : keptOf (mark merges history) = next :: kept)
    : mark merges (entry :: history) = (entry, !merges entry next) :: mark merges history := by
  simp [mark, behind]

/-- A history that is not empty keeps its last entry, by induction from the end. -/
theorem exists_kept (merges : α → α → Bool) (entry : α) (rest : List α)
    : ∃ next kept, keptOf (mark merges (entry :: rest)) = next :: kept
        ∧ (next :: kept).getLast? = (entry :: rest).getLast? := by
  induction rest generalizing entry with
  | nil => exact ⟨entry, [], rfl, rfl⟩
  | cons second rest ih =>
      obtain ⟨next, kept, behind, last⟩ := ih second
      rw [mark_cons _ behind]
      cases merges entry next with
      | true => exact ⟨next, kept, by simpa using behind, by simpa using last⟩
      | false => exact ⟨entry, next :: kept, by simp [behind], by simpa using last⟩

theorem map_fst_mark (merges : α → α → Bool) (history : List α)
    : (mark merges history).map Prod.fst = history := by
  induction history with
  | nil => rfl
  | cons entry rest ih =>
      unfold mark
      split <;> simp [ih]

/-- No kept entry may be merged into its neighbour, by induction from the end. -/
theorem keptOf_mark_isChain (merges : α → α → Bool) (history : List α)
    : (keptOf (mark merges history)).IsChain
        (fun entry next => ¬merges entry next = true) := by
  induction history with
  | nil => exact .nil
  | cons entry rest ih =>
      cases rest with
      | nil => exact .singleton entry
      | cons second rest =>
          obtain ⟨next, kept, behind, _⟩ := exists_kept merges second rest
          rw [mark_cons _ behind]
          cases merging : merges entry next with
          | true => simpa using ih
          | false =>
              simp only [Bool.not_false, keptOf_cons_true]
              rw [behind] at ih ⊢
              exact .cons_cons (by simp [merging]) ih

/-- A dropped entry may be merged into the first kept one behind it. -/
theorem mark_justified {front back : List (α × Bool)}
    (dropped : mark merges history = front ++ (entry, false) :: back)
    : ∃ next, (keptOf back).head? = some next ∧ merges entry next = true := by
  induction history generalizing front with
  | nil => simp [mark] at dropped
  | cons first rest ih =>
      cases rest with
      | nil =>
          rw [mark_single] at dropped
          cases front <;> simp at dropped
      | cons second rest =>
          obtain ⟨next, kept, behind, _⟩ := exists_kept merges second rest
          rw [mark_cons _ behind] at dropped
          cases front with
          | nil =>
              obtain ⟨here, later⟩ := List.cons.inj dropped
              obtain ⟨rfl, merging⟩ := Prod.mk.inj here
              exact ⟨next, by rw [← later, behind]; rfl, by simpa using merging⟩
          | cons other front => exact ih (List.cons.inj dropped).2

theorem mark_isPruning (merges : α → α → Bool) (history : List α)
    : IsPruning (fun entry next => merges entry next = true) history
        (keptOf (mark merges history)) (droppedOf (mark merges history)) := by
  refine ⟨?_, keptOf_mark_isChain merges history,
    mark merges history, map_fst_mark merges history, rfl, rfl, ?_⟩
  · cases history with
    | nil => rfl
    | cons entry rest =>
        obtain ⟨next, kept, behind, last⟩ := exists_kept merges entry rest
        rw [behind, last]
  · exact fun front entry back => mark_justified

end N8n.Pruning
