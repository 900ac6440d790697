import Mathlib.Data.List.FinRange
import N8n.Library.Walks

/-! The lengths of shortest walks from a source. -/

namespace N8n.Library

variable {α : Type _} {edge : α → α → Prop} {source place next : α} {n m : Nat}

/-- A shortest walk from the source to the place has `n` steps. -/
structure IsDistance (edge : α → α → Prop) (source : α) (n : Nat) (place : α) : Prop where
  reached : ∃ places, Walk edge source places place ∧ places.length = n
  shortest : ∀ places, Walk edge source places place → n ≤ places.length

namespace IsDistance

theorem unique (first : IsDistance edge source n place) (second : IsDistance edge source m place)
    : n = m := by
  obtain ⟨places, walk, rfl⟩ := first.reached
  obtain ⟨others, other, rfl⟩ := second.reached
  exact Nat.le_antisymm (first.shortest others other) (second.shortest places walk)

theorem zero_iff : IsDistance edge source 0 place ↔ place = source := by
  constructor
  · intro here
    obtain ⟨places, walk, none⟩ := here.reached
    obtain rfl := List.length_eq_zero_iff.mp none
    cases walk
    rfl
  · rintro rfl
    exact ⟨⟨[], .nil _, rfl⟩, fun _ _ => Nat.zero_le _⟩

theorem exists_of_walk {places : List α} (walk : Walk edge source places place)
    : ∃ n, IsDistance edge source n place ∧ n ≤ places.length := by
  classical
  have reached : ∃ n, ∃ places, Walk edge source places place ∧ places.length = n :=
    ⟨_, places, walk, rfl⟩
  refine ⟨Nat.find reached, ⟨Nat.find_spec reached, ?_⟩, Nat.find_min' reached ⟨_, walk, rfl⟩⟩
  intro others other
  exact Nat.find_min' reached ⟨others, other, rfl⟩

theorem previous (here : IsDistance edge source (n + 1) place)
    : ∃ before, IsDistance edge source n before ∧ edge before place := by
  obtain ⟨places, walk, long⟩ := here.reached
  obtain ⟨before, front, further, step, shorter⟩ :=
    walk.exists_last_step (by rintro rfl; contradiction)
  refine ⟨before, ⟨⟨front, further, by omega⟩, fun others other => ?_⟩, step⟩
  have longer := here.shortest _ (other.append (.single step))
  rw [List.length_append] at longer
  exact Nat.le_of_succ_le_succ longer

theorem after (here : IsDistance edge source n place) (step : edge place next)
    : ∃ m, IsDistance edge source m next ∧ m ≤ n + 1 := by
  obtain ⟨places, walk, rfl⟩ := here.reached
  obtain ⟨m, reached, least⟩ := exists_of_walk (walk.append (.single step))
  rw [List.length_append] at least
  exact ⟨m, reached, least⟩

/-- There are places at each smaller distance, by induction on the difference. -/
theorem exists_lower (here : IsDistance edge source n place) (less : m ≤ n)
    : ∃ lower, IsDistance edge source m lower := by
  induction n, less using Nat.le_induction generalizing place with
  | base => exact ⟨place, here⟩
  | succ n _ ih =>
      obtain ⟨before, there, -⟩ := here.previous
      exact ih there

/-- Places at each of the first distances are that many places. -/
theorem length_le {places : List α}
    (listed : ∀ m, m < n → ∃ place ∈ places, IsDistance edge source m place)
    : n ≤ places.length := by
  choose placeAt inside there using listed
  let chosen := (List.finRange n).map (fun m : Fin n => placeAt m m.isLt)
  have distinct : chosen.Nodup := by
    refine (List.nodup_finRange n).map fun first second same => ?_
    have first_there := there first first.isLt
    rw [same] at first_there
    exact Fin.ext (first_there.unique (there second second.isLt))
  have contained : chosen ⊆ places := by
    intro place member
    obtain ⟨m, -, rfl⟩ := List.mem_map.mp member
    exact inside m m.isLt
  simpa [chosen] using distinct.length_le_of_subset contained

end IsDistance

end N8n.Library
