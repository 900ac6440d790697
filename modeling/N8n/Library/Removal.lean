import N8n.Library.Dict
import N8n.Library.Exec

/-! Dictionaries from which entries have been removed and whose other entries are as before. -/

namespace N8n.Dict

variable {κ α ι : Type} [DecidableEq κ]

/-- `after` has the entries of `before` whose keys are not gone, and no others. -/
def Without (gone : κ → Prop) (before after : Dict κ α) : Prop :=
  ∀ key value, after.get? key = some value ↔ before.get? key = some value ∧ ¬ gone key

variable {gone gone' : κ → Prop} {before between after : Dict κ α}

theorem Without.refl (none : ∀ key, ¬ gone key) : Without gone before before := by
  intro key value
  simp [none key]

theorem Without.trans (first : Without gone before between)
    (second : Without gone' between after)
    : Without (fun key => gone key ∨ gone' key) before after := by
  intro key value
  rw [second key value, first key value, not_or, and_assoc]

theorem Without.congr (without : Without gone before after)
    (same : ∀ key ∈ before.keys, gone key ↔ gone' key)
    : Without gone' before after := by
  intro key value
  rw [without key value]
  exact and_congr_right fun here => not_congr (same key (mem_keys_of_get? here))

theorem Without.delete (d : Dict κ α) (gone : κ) : Without (· = gone) d (d.delete gone) := by
  intro key value
  rw [get?_delete]
  by_cases same : key = gone <;> simp [same]

/-- What each turn of a loop removes is gone after the loop, by induction on the items. -/
theorem Without.foldlM {Error : Type} {step : Dict κ α → ι → Except Error (Dict κ α)}
    {removed : ι → κ → Prop} {items : List ι}
    (steps : ∀ item ∈ items, ∀ d, ∃ next, step d item = .ok next ∧ Without (removed item) d next)
    (d : Dict κ α)
    : ∃ final, items.foldlM step d = .ok final
        ∧ Without (fun key => ∃ item ∈ items, removed item key) d final := by
  induction items generalizing d with
  | nil => exact ⟨d, rfl, .refl (by simp)⟩
  | cons item rest ih =>
      obtain ⟨next, taken, here⟩ := steps item (.head _) d
      obtain ⟨final, ran, later⟩ :=
        ih (fun other member => steps other (.tail _ member)) next
      refine ⟨final, ?_, (here.trans later).congr (by simp)⟩
      rw [List.foldlM_cons, taken]
      exact ran

theorem Without.foldl {step : Dict κ α → ι → Dict κ α} {removed : ι → κ → Prop}
    (items : List ι) (steps : ∀ item d, Without (removed item) d (step d item)) (d : Dict κ α)
    : Without (fun key => ∃ item ∈ items, removed item key) d (items.foldl step d) := by
  induction items generalizing d with
  | nil => exact .refl (by simp)
  | cons item rest ih => exact ((steps item d).trans (ih (step d item))).congr (by simp)

end N8n.Dict
