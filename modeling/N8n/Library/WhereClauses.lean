import Mathlib.Tactic.Common

/-! Conditions of database queries: truth values with an unknown one, and conditions joined by AND
and OR without parentheses, where AND binds tighter.
-/

namespace N8n.WhereClauses

variable {α : Type*} {truth : α → Option Bool}

def conj : Option Bool → Option Bool → Option Bool
  | some false, _ => some false
  | _, some false => some false
  | some true, some true => some true
  | _, _ => none

def disj : Option Bool → Option Bool → Option Bool
  | some true, _ => some true
  | _, some true => some true
  | some false, some false => some false
  | _, _ => none

@[simp] theorem conj_eq_true {left right : Option Bool}
    : conj left right = some true ↔ left = some true ∧ right = some true := by
  rcases left with _ | _ | _ <;> rcases right with _ | _ | _ <;> simp [conj]

@[simp] theorem disj_eq_true {left right : Option Bool}
    : disj left right = some true ↔ left = some true ∨ right = some true := by
  rcases left with _ | _ | _ <;> rcases right with _ | _ | _ <;> simp [disj]

def all (truths : List (Option Bool)) : Option Bool := truths.foldr conj (some true)

def any (truths : List (Option Bool)) : Option Bool := truths.foldr disj (some false)

theorem all_eq_true {truths : List (Option Bool)}
    : all truths = some true ↔ ∀ truth ∈ truths, truth = some true := by
  induction truths with
  | nil => simp [all]
  | cons first rest ih =>
      change conj first (all rest) = some true ↔ _
      rw [conj_eq_true, ih, List.forall_mem_cons]

theorem any_eq_true {truths : List (Option Bool)}
    : any truths = some true ↔ some true ∈ truths := by
  induction truths with
  | nil => simp [any]
  | cons first rest ih =>
      change disj first (any rest) = some true ↔ _
      rw [disj_eq_true, ih, List.mem_cons, eq_comm]

/-- How a condition is joined to the one before it. -/
inductive Joiner where
  | and
  | or
deriving DecidableEq

/-- The groups that are bound by AND. -/
def groups : List (Joiner × α) → List (List α)
  | [] => []
  | [(_, last)] => [[last]]
  | (_, first) :: (.or, next) :: rest => [first] :: groups ((.or, next) :: rest)
  | (_, first) :: (.and, next) :: rest =>
      (groups ((.and, next) :: rest)).modifyHead (List.cons first)

/-- No condition at all is true. -/
def meaning (truth : α → Option Bool) (joined : List (Joiner × α)) : Option Bool :=
  match joined with
  | [] => some true
  | _ => any ((groups joined).map (fun group => all (group.map truth)))

theorem meaning_nil : meaning truth [] = some true := rfl

theorem meaning_eq_true {first : Joiner × α} {rest : List (Joiner × α)}
    : meaning truth (first :: rest) = some true
      ↔ ∃ group ∈ groups (first :: rest), ∀ condition ∈ group, truth condition = some true := by
  simp [meaning, any_eq_true, all_eq_true]

variable {joiner : Joiner}

theorem meaning_singleton {last : α}
    : meaning truth [(joiner, last)] = some true ↔ truth last = some true := by
  simp [meaning_eq_true, groups]

theorem meaning_cons_or {first next : α} {rest : List (Joiner × α)}
    : meaning truth ((joiner, first) :: (.or, next) :: rest) = some true
      ↔ truth first = some true ∨ meaning truth ((.or, next) :: rest) = some true := by
  rw [meaning_eq_true, meaning_eq_true, groups]
  simp

theorem groups_and {first : α} {rest : List α}
    : groups ((joiner, first) :: rest.map (Prod.mk .and)) = [first :: rest] := by
  induction rest generalizing joiner first with
  | nil => rfl
  | cons next rest ih =>
      rw [List.map_cons, groups, ih]
      rfl

variable {conditions : List α}

/-- Conditions joined by AND. -/
theorem meaning_and
    : meaning truth (conditions.map (Prod.mk .and)) = some true
      ↔ ∀ condition ∈ conditions, truth condition = some true := by
  cases conditions with
  | nil => simp [meaning_nil]
  | cons first rest => rw [List.map_cons, meaning_eq_true, groups_and]; simp

theorem meaning_or (nonempty : conditions ≠ [])
    : meaning truth (conditions.map (Prod.mk .or)) = some true
      ↔ ∃ condition ∈ conditions, truth condition = some true := by
  induction conditions with
  | nil => exact absurd rfl nonempty
  | cons first rest ih =>
      cases rest with
      | nil => simp [meaning_singleton]
      | cons next rest =>
          rw [List.map_cons, List.map_cons, meaning_cons_or, ← List.map_cons, ih (by simp)]
          simp

/-- A condition that is joined by AND to conditions joined by OR narrows the last of these only. -/
theorem meaning_or_and {last added : α}
    : meaning truth ((conditions ++ [last]).map (Prod.mk .or) ++ [(.and, added)]) = some true
      ↔ (∃ condition ∈ conditions, truth condition = some true)
        ∨ truth last = some true ∧ truth added = some true := by
  induction conditions with
  | nil =>
      change meaning truth ((.or, last) :: [added].map (Prod.mk .and)) = some true ↔ _
      rw [meaning_eq_true, groups_and]
      simp
  | cons first rest ih =>
      obtain ⟨next, behind, split⟩ : ∃ next behind, rest ++ [last] = next :: behind :=
        List.exists_cons_of_ne_nil (by simp)
      rw [split, List.map_cons, List.cons_append] at ih
      rw [List.cons_append, split, List.map_cons, List.map_cons, List.cons_append,
        List.cons_append, meaning_cons_or, ih, ← or_assoc]
      simp

end N8n.WhereClauses
