import Mathlib.Data.List.Basic

/-! Histories that grow at their end. -/

namespace N8n.Histories

variable {α : Type*} {history before after : List α} {event new : α}

/-- An occurrence in a history that has grown is the new event, or it was there before. -/
theorem split_snoc (split : history ++ [new] = before ++ event :: after)
    : after = [] ∧ before = history ∧ event = new
      ∨ ∃ shorter, after = shorter ++ [new] ∧ history = before ++ event :: shorter := by
  rcases List.eq_nil_or_concat after with rfl | ⟨shorter, last, rfl⟩
  · obtain ⟨sameHistory, sameEvent⟩ := List.append_inj' split rfl
    exact .inl ⟨rfl, sameHistory.symm, (List.singleton_inj.mp sameEvent).symm⟩
  · have longer : history ++ [new] = (before ++ event :: shorter) ++ [last] := by
      simpa using split
    obtain ⟨sameHistory, sameEvent⟩ := List.append_inj' longer rfl
    obtain rfl := List.singleton_inj.mp sameEvent
    exact .inr ⟨shorter, by simp, sameHistory⟩

variable {tells forgets : α → Prop}

/-- An event that tells has happened, and none since that forgets. -/
def Since (tells forgets : α → Prop) (history : List α) : Prop :=
  ∃ before event after, history = before ++ event :: after ∧ tells event
    ∧ ∀ later ∈ after, ¬ forgets later

theorem not_since_nil : ¬ Since tells forgets [] := by
  rintro ⟨before, event, after, split, -⟩
  simp at split

/-- The newest event decides, unless it neither tells nor forgets. -/
theorem since_snoc
    : Since tells forgets (history ++ [new])
      ↔ tells new ∨ (Since tells forgets history ∧ ¬ forgets new) := by
  constructor
  · rintro ⟨before, event, after, split, told, kept⟩
    rcases split_snoc split with ⟨rfl, rfl, rfl⟩ | ⟨shorter, rfl, rfl⟩
    · exact .inl told
    · refine .inr ⟨⟨before, event, shorter, rfl, told, ?_⟩, kept new (by simp)⟩
      exact fun later member => kept later (List.mem_append_left _ member)
  · rintro (told | ⟨⟨before, event, after, rfl, told, kept⟩, keeps⟩)
    · exact ⟨history, new, [], rfl, told, by simp⟩
    · refine ⟨before, event, after ++ [new], by simp, told, ?_⟩
      intro later member
      rcases List.mem_append.mp member with old | isNew
      · exact kept later old
      · exact List.mem_singleton.mp isNew ▸ keeps

end N8n.Histories
