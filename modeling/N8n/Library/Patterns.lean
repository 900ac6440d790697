import Mathlib.Data.List.Infix

/-! Patterns of single characters and arbitrary texts, and the texts that can be cut into the
literal parts of a pattern with one wildcard.
-/

namespace N8n.Patterns

variable {α : Type*}

inductive Element (α : Type*) where
  | single (accepts : α → Bool)
  | sequence

def matchesText : List (Element α) → List α → Bool
  | [], text => text.isEmpty
  | .single accepts :: rest, text =>
      match text with
      | [] => false
      | first :: behind => accepts first && matchesText rest behind
  | .sequence :: rest, text => text.tails.any (matchesText rest)

variable {text : List α} {rest : List (Element α)}

theorem matchesText_sequence
    : matchesText (.sequence :: rest) text = true
      ↔ ∃ filler behind, text = filler ++ behind ∧ matchesText rest behind = true := by
  simp only [matchesText, List.any_eq_true, List.mem_tails]
  constructor
  · rintro ⟨behind, ⟨filler, rfl⟩, found⟩
    exact ⟨filler, behind, rfl, found⟩
  · rintro ⟨filler, behind, rfl, found⟩
    exact ⟨behind, List.suffix_append _ _, found⟩

theorem matchesText_single {accepts : α → Bool}
    : matchesText (.single accepts :: rest) text = true
      ↔ ∃ first behind,
          text = first :: behind ∧ accepts first = true ∧ matchesText rest behind = true := by
  cases text with
  | nil | cons => simp [matchesText]

/-- The text consists of the parts in their order, with arbitrary texts between them. -/
def IsCut : List (List α) → List α → Prop
  | [], text => text = []
  | [part], text => text = part
  | part :: next :: rest, text =>
      ∃ filler behind, text = part ++ (filler ++ behind) ∧ IsCut (next :: rest) behind

variable {parts : List (List α)}

theorem isCut_nil_cons (nonempty : parts ≠ [])
    : IsCut ([] :: parts) text ↔ ∃ filler behind, text = filler ++ behind ∧ IsCut parts behind := by
  cases parts with
  | nil => exact absurd rfl nonempty
  | cons part rest => simp [IsCut]

theorem isCut_modifyHead {char : α} (nonempty : parts ≠ [])
    : IsCut (parts.modifyHead (List.cons char)) text
      ↔ ∃ behind, text = char :: behind ∧ IsCut parts behind := by
  cases parts with
  | nil => exact absurd rfl nonempty
  | cons part rest =>
      cases rest with
      | nil => simp [IsCut]
      | cons next rest =>
          simp only [List.modifyHead_cons, IsCut, List.cons_append]
          constructor
          · rintro ⟨filler, behind, rfl, cut⟩
            exact ⟨_, rfl, filler, behind, rfl, cut⟩
          · rintro ⟨_, rfl, filler, behind, rfl, cut⟩
            exact ⟨filler, behind, rfl, cut⟩

variable {part : List α}

theorem isCut_around : IsCut [[], part, []] text ↔ part <:+: text := by
  constructor
  · rintro ⟨front, _, rfl, back, _, rfl, rfl⟩
    exact ⟨front, back, by simp⟩
  · rintro ⟨front, back, rfl⟩
    exact ⟨front, part ++ back, by simp, back, [], by simp, rfl⟩

variable [DecidableEq α]

/-- The pattern in which one character stands for arbitrary texts and every other one for the
characters that are folded to the same.
-/
def withWildcard (wildcard : α) (fold : α → α) (pattern : List α) : List (Element α) :=
  pattern.map (fun char =>
    if char = wildcard then .sequence else .single (fun other => fold other = fold char))

/-- A pattern with a wildcard matches the texts that can be cut into its literal parts, folded
characters for folded ones.
-/
theorem matchesText_withWildcard (wildcard : α) (fold : α → α) (pattern text : List α)
    (apart : ∀ char, fold char = wildcard ↔ char = wildcard)
    : matchesText (withWildcard wildcard fold pattern) text = true
      ↔ IsCut ((pattern.map fold).splitOn wildcard) (text.map fold) := by
  induction pattern generalizing text with
  | nil => simp [withWildcard, matchesText, IsCut]
  | cons char rest ih =>
      have nonempty : (rest.map fold).splitOn wildcard ≠ [] := List.splitOnP_ne_nil _ _
      rw [List.map_cons, List.splitOn, List.splitOnP_cons_eq_if_modifyHead, ← List.splitOn]
      simp only [beq_iff_eq, apart]
      by_cases isWildcard : char = wildcard
      · have pattern
            : withWildcard wildcard fold (char :: rest)
              = .sequence :: withWildcard wildcard fold rest := by
          simp [withWildcard, isWildcard]
        rw [pattern, matchesText_sequence, if_pos isWildcard, isCut_nil_cons nonempty]
        constructor
        · rintro ⟨filler, behind, rfl, found⟩
          exact ⟨filler.map fold, behind.map fold, List.map_append, (ih behind).mp found⟩
        · rintro ⟨filler, behind, cut, found⟩
          obtain ⟨front, back, rfl, -, rfl⟩ := List.map_eq_append_iff.mp cut
          exact ⟨front, back, rfl, (ih back).mpr found⟩
      · have pattern
            : withWildcard wildcard fold (char :: rest)
              = .single (fun other => fold other = fold char)
                :: withWildcard wildcard fold rest := by
          simp [withWildcard, isWildcard]
        rw [pattern, matchesText_single, if_neg isWildcard, isCut_modifyHead nonempty]
        constructor
        · rintro ⟨first, behind, rfl, same, found⟩
          refine ⟨behind.map fold, ?_, (ih behind).mp found⟩
          rw [List.map_cons, of_decide_eq_true same]
        · rintro ⟨behind, cut, found⟩
          obtain ⟨first, back, rfl, same, rfl⟩ := List.map_eq_cons_iff.mp cut
          exact ⟨first, back, rfl, decide_eq_true same, (ih back).mpr found⟩

theorem isCut_between {wildcard : α} (literal : wildcard ∉ part)
    : IsCut ((wildcard :: (part ++ [wildcard])).splitOn wildcard) text ↔ part <:+: text := by
  have parts : (wildcard :: (part ++ [wildcard])).splitOn wildcard = [[], part, []] := by
    change ([] ++ wildcard :: (part ++ wildcard :: [])).splitOn wildcard = _
    rw [List.splitOn_append_cons_self_of_not_mem List.not_mem_nil,
      List.splitOn_append_cons_self_of_not_mem literal, List.splitOn_nil]
  rw [parts, isCut_around]

end N8n.Patterns
