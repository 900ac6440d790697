import Mathlib.Data.List.Nodup
import Mathlib.Data.Set.Basic

/-! Ids that live, those of them whose removal is under way, and the list of ids whose end has
been told. An end is told once as long as it is not told during a removal that is under way
already.
-/

namespace N8n

structure Departures (Id : Type*) where
  live : Set Id
  leaving : Set Id
  told : List Id

namespace Departures

variable {Id : Type*} {before middle after : Departures Id}

/-- Each end is told once, and an id whose end has been told lives only until its removal. -/
structure WellKept (departures : Departures Id) : Prop where
  once : departures.told.Nodup
  removed : ∀ id ∈ departures.told, id ∈ departures.live → id ∈ departures.leaving

/-- No id comes to life, and no removal is given up. -/
structure Shrinks (before after : Departures Id) : Prop where
  live : ∀ id ∈ after.live, id ∈ before.live
  leaving : ∀ id ∈ before.leaving, id ∈ after.live → id ∈ after.leaving

/-- Nothing is told, or the end of an id that lives and whose removal is not under way; then
the id is removed, or its removal is under way.
-/
inductive Move (before after : Departures Id) : Prop
  | quiet (shrinks : Shrinks before after) (told : after.told = before.told)
  | tells (shrinks : Shrinks before after) (id : Id) (alive : id ∈ before.live)
    (free : id ∉ before.leaving) (told : after.told = before.told ++ [id])
    (removed : id ∈ after.live → id ∈ after.leaving)

abbrev Moves : Departures Id → Departures Id → Prop := Relation.ReflTransGen Move

theorem Move.shrinks (move : Move before after) : Shrinks before after := by
  cases move with
  | quiet shrinks _ => exact shrinks
  | tells shrinks _ _ _ _ _ => exact shrinks

/-- An id whose removal is not under way has not been told, if it lives. -/
theorem WellKept.not_told (kept : before.WellKept) {id : Id} (alive : id ∈ before.live)
    (free : id ∉ before.leaving)
    : id ∉ before.told :=
  fun told => free (kept.removed id told alive)

theorem WellKept.move (kept : before.WellKept) (move : Move before after) : after.WellKept := by
  cases move with
  | quiet shrinks told =>
      refine ⟨told ▸ kept.once, fun id isTold alive => ?_⟩
      rw [told] at isTold
      exact shrinks.leaving id (kept.removed id isTold (shrinks.live id alive)) alive
  | tells shrinks id alive free told removed =>
      constructor
      · rw [told]
        apply List.nodup_append.mpr
        refine ⟨kept.once, List.nodup_singleton id, ?_⟩
        intro other isTold new isNew same
        rw [same, List.mem_singleton.mp isNew] at isTold
        exact kept.not_told alive free isTold
      · intro other isTold alive'
        rw [told] at isTold
        rcases List.mem_append.mp isTold with earlier | now
        · exact shrinks.leaving other (kept.removed other earlier (shrinks.live other alive'))
            alive'
        · obtain rfl := List.mem_singleton.mp now
          exact removed alive'

theorem WellKept.moves (kept : before.WellKept) (moves : Moves before after)
    : after.WellKept := by
  induction moves with
  | refl => exact kept
  | tail _ move ih => exact ih.move move

theorem Moves.live (moves : Moves before after) : ∀ id ∈ after.live, id ∈ before.live := by
  induction moves with
  | refl => exact fun _ alive => alive
  | tail _ move ih => exact fun id alive => ih id (move.shrinks.live id alive)

theorem Moves.told (moves : Moves before after)
    : ∀ id ∈ after.told, id ∈ before.told ∨ id ∈ before.live := by
  induction moves with
  | refl => exact fun _ told => .inl told
  | tail earlier move ih =>
      intro id told
      cases move with
      | quiet _ same => exact ih id (same ▸ told)
      | tells _ new alive _ same _ =>
          rw [same] at told
          rcases List.mem_append.mp told with old | now
          · exact ih id old
          · obtain rfl := List.mem_singleton.mp now
            exact .inr (Moves.live earlier _ alive)

/-- An id that was not told and did not live may come to life. -/
theorem WellKept.grow (kept : before.WellKept) {id : Id} (unknown : id ∉ before.told)
    (live : ∀ other ∈ after.live, other = id ∨ other ∈ before.live)
    (leaving : ∀ other ∈ before.leaving, other ∈ after.leaving)
    (told : after.told = before.told)
    : after.WellKept := by
  refine ⟨told ▸ kept.once, fun other isTold alive => ?_⟩
  rw [told] at isTold
  rcases live other alive with rfl | old
  · exact absurd isTold unknown
  · exact leaving other (kept.removed other isTold old)

end Departures

end N8n
