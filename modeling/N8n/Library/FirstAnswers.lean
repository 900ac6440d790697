import Mathlib.Data.List.Perm.Basic

/-! Loops that stop at the first element with an answer, or with an error. The order of the
elements does not matter exactly if all elements that stop the loop stop it with the same.
-/

namespace N8n.Library

variable {ε α β : Type*}

/-- The first answer that is not `none`. -/
def firstAnswer (answer : α → Except ε (Option β)) : List α → Except ε (Option β)
  | [] => .ok none
  | element :: rest =>
      match answer element with
      | .ok none => firstAnswer answer rest
      | decisive => decisive

variable {answer : α → Except ε (Option β)} {elements : List α}

variable {element : α}

theorem firstAnswer_cons_none {rest : List α} (goesOn : answer element = .ok none)
    : firstAnswer answer (element :: rest) = firstAnswer answer rest := by
  rw [firstAnswer, goesOn]

theorem firstAnswer_cons_of_ne {rest : List α} (stops : answer element ≠ .ok none)
    : firstAnswer answer (element :: rest) = answer element := by
  rw [firstAnswer]
  split
  · contradiction
  · rfl

theorem firstAnswer_none (goOn : ∀ element ∈ elements, answer element = .ok none)
    : firstAnswer answer elements = .ok none := by
  induction elements with
  | nil => rfl
  | cons element rest ih =>
      obtain ⟨here, later⟩ := List.forall_mem_cons.mp goOn
      rw [firstAnswer_cons_none here, ih later]

/-- When all elements that stop the loop agree, the first of them gives their answer. -/
theorem firstAnswer_of_agree {decisive : Except ε (Option β)} (member : element ∈ elements)
    (stops : answer element = decisive)
    (agree : ∀ other ∈ elements, answer other = .ok none ∨ answer other = decisive)
    : firstAnswer answer elements = decisive := by
  induction elements with
  | nil => contradiction
  | cons first rest ih =>
      obtain ⟨here, later⟩ := List.forall_mem_cons.mp agree
      by_cases goesOn : answer first = .ok none
      · rw [firstAnswer_cons_none goesOn]
        rcases List.mem_cons.mp member with rfl | inRest
        · rw [← stops, goesOn]
          refine firstAnswer_none fun other inRest => ?_
          rcases later other inRest with none | same
          · exact none
          · rw [same, ← stops, goesOn]
        · exact ih inRest later
      · rw [firstAnswer_cons_of_ne goesOn]
        exact here.resolve_left goesOn

theorem exists_perm_cons (member : element ∈ elements)
    : ∃ rest, (element :: rest).Perm elements := by
  obtain ⟨before, behind, rfl⟩ := List.append_of_mem member
  exact ⟨before ++ behind, List.perm_middle.symm⟩

/-- An element that stops the loop does so for some order of the elements. -/
theorem exists_perm_firstAnswer {decisive : Except ε (Option β)} (member : element ∈ elements)
    (stops : answer element = decisive) (isDecisive : decisive ≠ .ok none)
    : ∃ reordered, reordered.Perm elements ∧ firstAnswer answer reordered = decisive := by
  obtain ⟨rest, perm⟩ := exists_perm_cons member
  rw [← stops] at isDecisive
  exact ⟨element :: rest, perm, (firstAnswer_cons_of_ne isDecisive).trans stops⟩

end N8n.Library
