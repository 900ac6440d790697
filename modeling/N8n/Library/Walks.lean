import Mathlib.Data.List.Nodup
import Mathlib.Data.List.Induction

/-! Walks along a relation, as lists of the places behind the first. -/

namespace N8n.Library

variable {α : Type _} {edge : α → α → Prop} {first middle last : α}

/-- The list has the places that the walk enters, in order. -/
inductive Walk (edge : α → α → Prop) : α → List α → α → Prop where
  | nil (place : α) : Walk edge place [] place
  | cons {first middle last : α} {rest : List α}
    : edge first middle → Walk edge middle rest last → Walk edge first (middle :: rest) last

variable {places : List α}

namespace Walk

theorem append {front back : List α} (walk : Walk edge first front middle)
    (further : Walk edge middle back last)
    : Walk edge first (front ++ back) last := by
  induction walk with
  | nil _ => exact further
  | cons step _ ih => exact .cons step (ih further)

theorem single (step : edge first last) : Walk edge first [last] last :=
  .cons step (.nil last)

/-- A walk against the relation, by induction over the walk. -/
theorem reverse (walk : Walk edge first places last)
    : ∃ back, Walk (fun source target => edge target source) last back first
        ∧ back.length = places.length := by
  induction walk with
  | nil place => exact ⟨[], .nil place, rfl⟩
  | cons step _ ih =>
      obtain ⟨back, backward, same⟩ := ih
      refine ⟨back ++ [_], backward.append (.single step), ?_⟩
      rw [List.length_append, same]
      rfl

theorem mono {other : α → α → Prop}
    (smaller : ∀ source target, edge source target
    → other source target) (walk : Walk edge first places last)
    : Walk other first places last := by
  induction walk with
  | nil place => exact .nil place
  | cons step _ ih => exact .cons (smaller _ _ step) ih

section

variable (walk : Walk edge first places last)

include walk

theorem exists_suffix (member : middle ∈ first :: places)
    : ∃ rest, Walk edge middle rest last ∧ middle :: rest <:+ first :: places := by
  induction walk with
  | nil place =>
      obtain rfl := List.mem_singleton.mp member
      exact ⟨[], .nil _, List.suffix_refl _⟩
  | cons step walk ih =>
      rcases List.mem_cons.mp member with rfl | later
      · exact ⟨_, .cons step walk, List.suffix_refl _⟩
      · obtain ⟨rest, further, suffix⟩ := ih later
        exact ⟨rest, further, suffix.trans (List.suffix_cons _ _)⟩

/-- Without its loops a walk enters no place twice, by induction over the walk. -/
theorem exists_nodup
    : ∃ rest,
        Walk edge first rest last ∧ (first :: rest).Nodup
        ∧ (first :: rest).Sublist (first :: places) := by
  induction walk with
  | nil place => exact ⟨[], .nil place, by simp, .refl _⟩
  | @cons first middle last places step walk ih =>
      obtain ⟨rest, further, distinct, shorter⟩ := ih
      by_cases again : first ∈ middle :: rest
      · obtain ⟨tail, ending, suffix⟩ := further.exists_suffix again
        exact ⟨tail, ending, distinct.sublist suffix.sublist,
          (suffix.sublist.trans shorter).cons first⟩
      · exact ⟨middle :: rest, .cons step further, List.nodup_cons.mpr ⟨again, distinct⟩,
          shorter.cons_cons first⟩

/-- Each place but the last is left on the walk. -/
theorem leaves {place : α} (member : place ∈ (first :: places).dropLast)
    : ∃ next, edge place next := by
  induction walk with
  | nil _ => contradiction
  | @cons first middle last places step walk ih =>
      rw [List.dropLast_cons_of_ne_nil (by simp)] at member
      rcases List.mem_cons.mp member with rfl | later
      · exact ⟨middle, step⟩
      · exact ih later

theorem exists_prefix (member : middle ∈ first :: places)
    : ∃ front, Walk edge first front middle := by
  induction walk with
  | nil place =>
      obtain rfl := List.mem_singleton.mp member
      exact ⟨[], .nil _⟩
  | cons step walk ih =>
      rcases List.mem_cons.mp member with rfl | later
      · exact ⟨[], .nil _⟩
      · obtain ⟨front, reached⟩ := ih later
        exact ⟨_, .cons step reached⟩

theorem exists_last_step (moves : places ≠ [])
    : ∃ before front,
        Walk edge first front before ∧ edge before last
        ∧ front.length + 1 = places.length := by
  induction walk with
  | nil _ => contradiction
  | @cons first middle last places step walk ih =>
      cases places with
      | nil =>
          cases walk
          exact ⟨first, [], .nil first, step, rfl⟩
      | cons next rest =>
          obtain ⟨before, front, further, lastStep, shorter⟩ := ih (by simp)
          exact ⟨before, _, .cons step further, lastStep, congrArg Nat.succ shorter⟩

theorem last_mem (moves : places ≠ [])
    : last ∈ places := by
  induction walk with
  | nil _ => contradiction
  | @cons first middle last places step walk ih =>
      cases places with
      | nil =>
          cases walk
          exact List.mem_singleton_self _
      | cons next rest => exact List.mem_cons_of_mem _ (ih (by simp))

end

end Walk

end N8n.Library
