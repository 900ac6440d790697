import N8n.Workflow.LostChanges

/-! The superset test of values (`parametersAreSuperset` in `packages/workflow/src/workflow-diff.ts`)
takes an array with the properties of an object for that object.
-/

namespace N8n.Workflow

open N8n.NodeParameters (Value INodeParameters)

mutual

/-- The next value is the one before, with characters put into its strings, but for arrays that
stand where objects were and have their properties.
-/
def ReadsAs : Value → Value → Prop
  | .string prev, .string next =>
      (Unicode.utf16 prev.toList).Sublist (Unicode.utf16 next.toList)
  | .array prev, .array next => ItemsReadAs prev next
  | .object prev, .object next => EntriesReadAs prev next
  | .object prev, .array next => prev.length = next.length ∧ PlacesReadAs prev next
  | prev, next => prev = next
termination_by structural prev => prev

def ItemsReadAs : List Value → List Value → Prop
  | [], [] => True
  | prev :: rest, next :: others => ReadsAs prev next ∧ ItemsReadAs rest others
  | _, _ => False

def EntriesReadAs : INodeParameters → INodeParameters → Prop
  | [], [] => True
  | (key, prev) :: rest, (other, next) :: others =>
      key = other ∧ ReadsAs prev next ∧ EntriesReadAs rest others
  | _, _ => False

def PlacesReadAs : INodeParameters → List Value → Prop
  | [], _ => True
  | (key, prev) :: rest, items =>
      (∃ next, ownProperty items key = some next ∧ ReadsAs prev next) ∧ PlacesReadAs rest items

end

mutual

/-- By induction over the value before. -/
theorem readsAs_iff (prev next : Value)
    : ReadsAs prev next ↔ parametersAreSuperset prev next = true := by
  cases prev with
  | object entries =>
      cases next <;>
        simp [ReadsAs, parametersAreSuperset, entriesReadAs_iff, placesReadAs_iff]
  | array items => cases next <;> simp [ReadsAs, parametersAreSuperset, itemsReadAs_iff]
  | string text => cases next <;> simp [ReadsAs, parametersAreSuperset, stringContainsParts_iff]
  | _ => cases next <;> simp [ReadsAs, parametersAreSuperset]
termination_by structural prev

theorem itemsReadAs_iff (prev next : List Value)
    : ItemsReadAs prev next ↔ itemsAreSuperset prev next = true := by
  match prev, next with
  | [], [] | [], _ :: _ | _ :: _, [] => simp [ItemsReadAs, itemsAreSuperset]
  | prev :: rest, next :: others =>
      simp only [ItemsReadAs, itemsAreSuperset, readsAs_iff prev next, itemsReadAs_iff rest others,
        Bool.and_eq_true]

theorem entriesReadAs_iff (prev next : INodeParameters)
    : EntriesReadAs prev next ↔ entriesAreSuperset prev next = true := by
  match prev, next with
  | [], [] | [], _ :: _ | _ :: _, [] => simp [EntriesReadAs, entriesAreSuperset]
  | (key, prev) :: rest, (other, next) :: others =>
      simp only [EntriesReadAs, entriesAreSuperset, readsAs_iff prev next,
        entriesReadAs_iff rest others, Bool.and_eq_true, decide_eq_true_eq, and_assoc]

theorem placesReadAs_iff (prev : INodeParameters) (items : List Value)
    : PlacesReadAs prev items ↔ placesAreSuperset prev items = true := by
  match prev with
  | [] => simp [PlacesReadAs, placesAreSuperset]
  | (key, prev) :: rest =>
      simp only [PlacesReadAs, placesAreSuperset, placesReadAs_iff rest items, Bool.and_eq_true]
      cases ownProperty items key with
      | none => simp
      | some next => simp [readsAs_iff prev next]

end

/-- The scan finds exactly the subsequences, and the test accepts exactly what is kept, unless it
is only arrays in the place of objects that keep the rest.
-/
theorem parametersAreSuperset_exact_iff (s substr : String) (prev next : Value)
    : (stringContainsParts (Unicode.utf16 s.toList) (Unicode.utf16 substr.toList) = true
        ↔ (Unicode.utf16 substr.toList).Sublist (Unicode.utf16 s.toList))
      ∧ ((parametersAreSuperset prev next = true ↔ Kept prev next)
        ↔ (ReadsAs prev next → ¬ BecomesArray prev next)) := by
  refine ⟨stringContainsParts_iff _ _, ?_⟩
  rw [kept_iff, readsAs_iff]
  tauto

theorem not_kept_array
    : ¬ (parametersAreSuperset (.object []) (.array []) = true ↔ Kept (.object []) (.array [])) :=
  fun exact => absurd (exact.mp (by decide)) (by simp [Kept])

end N8n.Workflow
