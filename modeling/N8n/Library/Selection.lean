import Mathlib.Data.List.Basic

/-! Choosing elements of a list: the first of the best ones, the first that passes a test, and
the values that can be read.
-/

namespace N8n.Library

variable {α : Type _}

/-- The element stands in the list, scores more than all before it and at least as much as
all behind it.
-/
def IsFirstBest (score : α → Nat) (elements : List α) (best : α) : Prop :=
  ∃ before behind,
    elements = before ++ best :: behind
    ∧ (∀ element ∈ before, score element < score best)
    ∧ ∀ element ∈ behind, score element ≤ score best

variable {elements : List α} {score : α → Nat} {best : α}

namespace IsFirstBest

theorem mem (first : IsFirstBest score elements best)
    : best ∈ elements := by
  obtain ⟨before, behind, rfl, _, _⟩ := first
  simp

theorem score_le (first : IsFirstBest score elements best) {element : α}
    (member : element ∈ elements)
    : score element ≤ score best := by
  obtain ⟨before, behind, rfl, less, most⟩ := first
  rcases List.mem_append.mp member with early | late
  · exact Nat.le_of_lt (less element early)
  · rcases List.mem_cons.mp late with same | later
    · exact Nat.le_of_eq (congrArg score same)
    · exact most element later

/-- There is one first best element: of two, the later one would have to score more. -/
theorem unique {first second : α} (isFirst : IsFirstBest score elements first)
    (isSecond : IsFirstBest score elements second)
    : first = second := by
  obtain ⟨before, behind, rfl, less, most⟩ := isFirst
  obtain ⟨before', behind', split, less', most'⟩ := isSecond
  rcases List.append_eq_append_iff.mp split with
    ⟨between, same, rest⟩ | ⟨between, same, rest⟩
  · cases between with
    | nil => exact (List.cons.inj rest).1
    | cons head tail =>
        obtain ⟨rfl, _⟩ := List.cons.inj rest
        have more := less' first (by simp [same])
        have least := most second (by simp [(List.cons.inj rest).2])
        omega
  · cases between with
    | nil => exact (List.cons.inj rest).1.symm
    | cons head tail =>
        obtain ⟨rfl, _⟩ := List.cons.inj rest
        have more := less second (by simp [same])
        have least := most' first (by simp [(List.cons.inj rest).2])
        omega

/-- A new element that scores more than the best one takes its place. -/
theorem append_better {next : α} (first : IsFirstBest score elements best)
    (more : score best < score next)
    : IsFirstBest score (elements ++ [next]) next :=
  ⟨elements, [], rfl,
    fun _ member => Nat.lt_of_le_of_lt (first.score_le member) more, by simp⟩

theorem append_other {next : α} (first : IsFirstBest score elements best)
    (least : score next ≤ score best)
    : IsFirstBest score (elements ++ [next]) best := by
  obtain ⟨before, behind, rfl, less, most⟩ := first
  refine ⟨before, behind ++ [next], by simp, less, ?_⟩
  intro element member
  rcases List.mem_append.mp member with early | late
  · exact most element early
  · obtain rfl := List.mem_singleton.mp late
    exact least

theorem single (score : α → Nat) (element : α) : IsFirstBest score [element] element :=
  ⟨[], [], rfl, by simp, by simp⟩

end IsFirstBest

/-- The first best of the accepted elements, by the places of the others in the whole list. -/
theorem isFirstBest_filter_iff {accepts : α → Bool}
    : IsFirstBest score (elements.filter accepts) best
      ↔ ∃ before behind,
          elements = before ++ best :: behind
          ∧ accepts best = true
          ∧ (∀ element ∈ before, accepts element = true → score element < score best)
          ∧ ∀ element ∈ behind, accepts element = true → score element ≤ score best := by
  constructor
  · intro ⟨before, behind, split, less, most⟩
    obtain ⟨front, back, rfl, rfl, kept⟩ := List.filter_eq_append_iff.mp split
    obtain ⟨skipped, rest, rfl, none, accepted, rfl⟩ := List.filter_eq_cons_iff.mp kept
    refine ⟨front ++ skipped, rest, by simp, accepted, ?_, ?_⟩
    · intro element member accepts
      rcases List.mem_append.mp member with early | late
      · exact less element (List.mem_filter.mpr ⟨early, accepts⟩)
      · exact absurd accepts (none element late)
    · exact fun element member accepts =>
        most element (List.mem_filter.mpr ⟨member, accepts⟩)
  · intro ⟨before, behind, split, accepted, less, most⟩
    refine ⟨before.filter accepts, behind.filter accepts, ?_, ?_, ?_⟩
    · rw [split, List.filter_append, List.filter_cons_of_pos accepted]
    · intro element member
      obtain ⟨inside, accepts⟩ := List.mem_filter.mp member
      exact less element inside accepts
    · intro element member
      obtain ⟨inside, accepts⟩ := List.mem_filter.mp member
      exact most element inside accepts

/-- The first element that passes the test, and the others. -/
theorem perm_cons_eraseP {test : α → Bool} {element : α}
    (found : elements.find? test = some element)
    : (element :: elements.eraseP test).Perm elements := by
  obtain ⟨passes, early, late, rfl, fails⟩ := List.find?_eq_some_iff_append.mp found
  have others : ∀ other ∈ early, ¬test other = true := by simpa using fails
  rw [List.eraseP_append_right _ others, List.eraseP_cons_of_pos passes]
  exact List.perm_middle.symm

theorem filterMap_cons_toList {β : Type _} (read : α → Option β) (element : α)
    (elements : List α)
    : (element :: elements).filterMap read
      = (read element).toList ++ elements.filterMap read := by
  cases value : read element with
  | none | some => simp [value]

end N8n.Library
