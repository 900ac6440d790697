import N8n.Library.Exec

/-! Two programs that run in related states: they end in the same way, with related results, in
related states.
-/

namespace N8n.Exec

variable {State α β : Type} {related : State → State → Prop} {same : α → α → Prop}
  {other : β → β → Prop}

def Alike (related : State → State → Prop) (same : α → α → Prop)
    (first second : Exec State α)
    : Prop :=
  ∀ before before', related before before' →
    match first before, second before' with
    | .ok result after, .ok result' after' => same result result' ∧ related after after'
    | .error error after, .error error' after' => error = error' ∧ related after after'
    | _, _ => False

theorem Alike.pure {result result' : α} (isSame : same result result')
    : Alike related same (Pure.pure result) (Pure.pure result') :=
  fun _ _ isRelated => ⟨isSame, isRelated⟩

theorem Alike.throw (error : JsError)
    : Alike related same (MonadExcept.throw error) (MonadExcept.throw error) :=
  fun _ _ isRelated => ⟨rfl, isRelated⟩

theorem Alike.get : Alike related related (MonadState.get : Exec State State) MonadState.get :=
  fun _ _ isRelated => ⟨isRelated, isRelated⟩

theorem Alike.bind {first second : Exec State α} {next next' : α → Exec State β}
    (early : Alike related same first second)
    (late : ∀ result result', same result result'
        → Alike related other (next result) (next' result'))
    : Alike related other (first >>= next) (second >>= next') := by
  intro before before' isRelated
  have ends := early before before' isRelated
  simp only [Bind.bind, EStateM.bind]
  cases ran : first before with
  | ok result after =>
      cases ran' : second before' with
      | ok result' after' =>
          rw [ran, ran'] at ends
          exact late result result' ends.1 after after' ends.2
      | error error after' => simp [ran, ran'] at ends
  | error error after =>
      cases ran' : second before' with
      | ok result' after' => simp [ran, ran'] at ends
      | error error' after' =>
          rw [ran, ran'] at ends
          exact ends

end N8n.Exec
