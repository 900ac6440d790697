import Mathlib.Data.List.Nodup

/-! A list of open ids beside the list of ids that have been closed. What the two promise
together: an id is open at most once, and a closed id is not open any more.
-/

namespace N8n

structure Ledger (Id : Type*) where
  pending : List Id
  ended : List Id

namespace Ledger

variable {Id : Type*}

structure WellKept (l : Ledger Id) : Prop where
  once : l.pending.Nodup
  gone : ∀ id ∈ l.ended, id ∉ l.pending

theorem WellKept.empty : WellKept (⟨[], []⟩ : Ledger Id) := ⟨.nil, by simp⟩

/-- Opening an id keeps a ledger well exactly if the id is neither open nor closed. -/
theorem WellKept.opened_iff {l : Ledger Id} (kept : l.WellKept) {id : Id}
    : WellKept ⟨l.pending ++ [id], l.ended⟩ ↔ id ∉ l.pending ∧ id ∉ l.ended := by
  constructor
  · intro after
    refine ⟨fun pending => ?_, fun ended => ?_⟩
    · have distinct := (List.nodup_append.mp after.once).2.2
      exact distinct id pending id (List.mem_singleton_self id) rfl
    · exact after.gone id ended (List.mem_append_right _ (List.mem_singleton_self id))
  · intro ⟨notPending, notEnded⟩
    refine ⟨?_, fun other ended member => ?_⟩
    · apply List.nodup_append.mpr
      refine ⟨kept.once, List.nodup_singleton id, ?_⟩
      intro other member new isNew same
      rw [same, List.mem_singleton.mp isNew] at member
      exact notPending member
    · rcases List.mem_append.mp member with old | new
      · exact kept.gone other ended old
      · exact notEnded (List.mem_singleton.mp new ▸ ended)

theorem WellKept.ended_iff {l : Ledger Id} (kept : l.WellKept) {id : Id}
    : WellKept ⟨l.pending, l.ended ++ [id]⟩ ↔ id ∉ l.pending := by
  constructor
  · exact fun after => after.gone id (List.mem_append_right _ (List.mem_singleton_self id))
  · intro notPending
    refine ⟨kept.once, fun other ended => ?_⟩
    rcases List.mem_append.mp ended with old | new
    · exact kept.gone other old
    · exact List.mem_singleton.mp new ▸ notPending

variable [DecidableEq Id]

/-- Nothing changes, or an id is taken from the open ones, and is closed or not. -/
inductive Move (l : Ledger Id) : Ledger Id → Prop
  | keep : Move l l
  | dropped (id : Id) : Move l ⟨l.pending.erase id, l.ended⟩
  | closed (id : Id) : Move l ⟨l.pending.erase id, l.ended ++ [id]⟩

theorem WellKept.move {l next : Ledger Id} (kept : l.WellKept) (move : Move l next)
    : next.WellKept := by
  have dropped (id : Id) : WellKept ⟨l.pending.erase id, l.ended⟩ :=
    ⟨kept.once.erase id, fun other ended member =>
      kept.gone other ended (List.mem_of_mem_erase member)⟩
  cases move with
  | keep => exact kept
  | dropped id => exact dropped id
  | closed id => exact (dropped id).ended_iff.mpr kept.once.not_mem_erase

/-- Removing the first item with an id removes the first occurrence of the id. -/
theorem map_eraseP_eq {Item : Type*} (key : Item → Id) (items : List Item) (id : Id)
    : (items.eraseP (fun item => key item = id)).map key = (items.map key).erase id := by
  induction items with
  | nil => rfl
  | cons item rest ih =>
      by_cases same : key item = id
      · simp [same]
      · simp [same, ih]

end Ledger

end N8n
