import Mathlib.Data.List.Forall2
import N8n.Library.JavaScript

/-! Programs on a state that is kept when they throw, and rules for what they ensure.
A postcondition has two parts: one for a value returned, one for an error thrown.
-/

namespace N8n

abbrev Exec (State : Type) := EStateM JsError State

namespace Exec

variable {State α β : Type}

/-- From `state`, the program ends in `good` when it returns and in `bad` when it throws. -/
def Ensures (program : Exec State α) (state : State) (good : α → State → Prop)
    (bad : State → Prop)
    : Prop :=
  match program state with
  | .ok result final => good result final
  | .error _ final => bad final

instance {program : Exec State α} {state : State} {good : α → State → Prop}
    {bad : State → Prop} [∀ result final, Decidable (good result final)]
    [∀ final, Decidable (bad final)]
    : Decidable (program.Ensures state good bad) :=
  match outcome : program state with
  | .ok result final =>
      decidable_of_iff (good result final) (by rw [Ensures, outcome])
  | .error _ final => decidable_of_iff (bad final) (by rw [Ensures, outcome])

variable {state : State} {program : Exec State α} {good : α → State → Prop}

theorem Ensures.exists_ok (ensures : program.Ensures state good (fun _ => False))
    : ∃ result final, program state = .ok result final ∧ good result final := by
  unfold Ensures at ensures
  split at ensures
  · next result final ran => exact ⟨result, final, ran, ensures⟩
  · exact ensures.elim

variable {bad : State → Prop}

theorem Ensures.exists_error (ensures : program.Ensures state (fun _ _ => False) bad)
    : ∃ error final, program state = .error error final ∧ bad final := by
  unfold Ensures at ensures
  split at ensures
  · exact ensures.elim
  · next error final ran => exact ⟨error, final, ran, ensures⟩

variable {final : State}

theorem ensures_of_ok {result : α} (ran : program state = .ok result final)
    : program.Ensures state good bad ↔ good result final := by
  rw [Ensures, ran]

theorem ensures_of_error {error : JsError} (ran : program state = .error error final)
    : program.Ensures state good bad ↔ bad final := by
  rw [Ensures, ran]

/-- The state that a program leaves behind, whether it returns or throws. -/
def after (program : Exec State α) (state : State) : State :=
  match program state with
  | .ok _ final => final
  | .error _ final => final

theorem Ensures.after (holds : State → Prop) (h : program.Ensures state (fun _ => holds) holds)
    : holds (program.after state) := by
  unfold Ensures at h
  unfold Exec.after
  split at h <;> simp_all

theorem Ensures.pure {result : α} (h : good result state)
    : Ensures (Pure.pure result : Exec State α) state good bad := h

theorem Ensures.throw {error : JsError} (h : bad state)
    : Ensures (MonadExcept.throw error : Exec State α) state good bad := h

theorem Ensures.get {good : State → State → Prop} (h : good state state)
    : Ensures (MonadState.get : Exec State State) state good bad := h

theorem Ensures.update {change : State → State} {good : PUnit → State → Prop}
    (h : good ⟨⟩ (change state))
    : Ensures (modify change : Exec State PUnit) state good bad := h

theorem ensures_bind_iff {next : α → Exec State β} {good : β → State → Prop}
    : (program >>= next).Ensures state good bad
      ↔ program.Ensures state (fun result middle => (next result).Ensures middle good bad)
          bad := by
  unfold Ensures
  simp only [Bind.bind, EStateM.bind]
  cases program state <;> rfl

@[simp]
theorem ensures_pure_iff {result : α}
    : (Pure.pure result : Exec State α).Ensures state good bad ↔ good result state := .rfl

@[simp]
theorem ensures_throw_iff {error : JsError}
    : (throw error : Exec State α).Ensures state good bad ↔ bad state := .rfl

@[simp]
theorem ensures_map_iff {program : Exec State β} {f : β → α}
    : (f <$> program).Ensures state good bad
      ↔ program.Ensures state (fun result => good (f result)) bad := by
  unfold Ensures
  simp only [Functor.map, EStateM.map]
  cases program state <;> rfl

@[simp]
theorem ensures_tryCatch_iff {handler : Exec State α}
    : (tryCatch program (fun _ => handler)).Ensures state good bad
      ↔ program.Ensures state good (fun middle => handler.Ensures middle good bad) := by
  unfold Ensures
  simp only [tryCatch, tryCatchThe, MonadExceptOf.tryCatch, EStateM.tryCatch,
    EStateM.Backtrackable.restore, EStateM.dummyRestore]
  cases program state <;> rfl

theorem Ensures.bind {next : α → Exec State β} {good : β → State → Prop}
    (h : program.Ensures state (fun result middle => (next result).Ensures middle good bad)
      bad)
    : (program >>= next).Ensures state good bad :=
  ensures_bind_iff.mpr h

theorem Ensures.mono {better : α → State → Prop} {worse : State → Prop}
    (h : program.Ensures state better worse)
    (onReturn : ∀ result final, better result final → good result final)
    (onThrow : ∀ final, worse final → bad final)
    : program.Ensures state good bad := by
  unfold Ensures at *
  split at h <;> simp_all

theorem Ensures.and {other : α → State → Prop} {worse : State → Prop}
    (first : program.Ensures state good bad) (second : program.Ensures state other worse)
    : program.Ensures state (fun result final => good result final ∧ other result final)
        (fun final => bad final ∧ worse final) := by
  unfold Ensures at *
  split at first
  · next ran =>
      rw [ran] at second
      exact ⟨first, second⟩
  · next ran =>
      rw [ran] at second
      exact ⟨first, second⟩

/-- A loop whose body ends where it started, or throws there, does so as a whole. -/
theorem Ensures.forM {items : List β} {body : β → Exec State PUnit}
    (h : ∀ item ∈ items, (body item).Ensures state (fun _ final => final = state)
      (fun final => final = state))
    : (items.forM body).Ensures state (fun _ final => final = state)
        (fun final => final = state) := by
  induction items with
  | nil => exact Ensures.pure rfl
  | cons item rest ih =>
      refine Ensures.bind ((h item (by simp)).mono ?_ (fun _ same => same))
      rintro _ _ rfl
      exact ih (fun other member => h other (.tail _ member))

/-- `try … finally`: the second program runs in any case, and an error of its own prevails. -/
theorem Ensures.tryFinally {program : Exec State α} {finalizer : Exec State β} {state : State}
    {good : α → State → Prop} {bad : State → Prop}
    (h
      : program.Ensures state
          (fun result middle => finalizer.Ensures middle (fun _ => good result) bad)
          (fun middle => finalizer.Ensures middle (fun _ => bad) bad))
    : Ensures (tryFinally program finalizer) state good bad := by
  unfold Ensures at *
  change match EStateM.map (fun (result : α × β) => result.1)
    (MonadFinally.tryFinally' program (fun _ => finalizer)) state with
    | .ok result final => good result final
    | .error _ final => bad final
  unfold EStateM.map
  simp only [tryFinally']
  split at h
  · next ran =>
      rw [ran]
      simp only
      split at h <;> simp_all
  · next ran =>
      rw [ran]
      simp only
      split at h <;> simp_all

/-- `try … catch`, with all that the first program has done. -/
theorem Ensures.tryCatch {handler : JsError → Exec State α}
    (h
      : program.Ensures state good
          (fun middle => ∀ error, (handler error).Ensures middle good bad))
    : Ensures (MonadExcept.tryCatch program handler) state good bad := by
  unfold Ensures at *
  simp only [MonadExcept.tryCatch, tryCatchThe, MonadExceptOf.tryCatch, EStateM.tryCatch,
    EStateM.Backtrackable.restore, EStateM.dummyRestore]
  split at h
  · next ran =>
      rw [ran]
      exact h
  · next ran =>
      rw [ran]
      exact h _

/-- Wherever the program starts, it ends, returning or throwing, in a state that `reached`
allows.
-/
def Within (reached : State → State → Prop) (program : Exec State α) : Prop :=
  ∀ state, program.Ensures state (fun _ => reached state) (reached state)

section Within

variable {reached : State → State → Prop} (refl : ∀ state, reached state state)
  (trans : ∀ first middle last, reached first middle → reached middle last
    → reached first last)

variable {program : Exec State α}

theorem Within.of_ok (within : program.Within reached) {first last : State} {result : α}
    (returned : program first = .ok result last)
    : reached first last := by
  have ends := within first
  unfold Ensures at ends
  rwa [returned] at ends

include refl in
theorem Within.pure (result : α) : Within reached (Pure.pure result : Exec State α) :=
  fun state => Ensures.pure (refl state)

include refl in
theorem Within.throw (error : JsError)
    : Within reached (MonadExcept.throw error : Exec State α) :=
  fun state => Ensures.throw (refl state)

include refl in
theorem Within.get : Within reached (MonadState.get : Exec State State) :=
  fun state => Ensures.get (refl state)

theorem Within.update {change : State → State}
    (changed : ∀ state, reached state (change state))
    : Within reached (modify change : Exec State PUnit) :=
  fun state => Ensures.update (changed state)

include trans in
theorem Within.bind {next : α → Exec State β} (early : program.Within reached)
    (late : ∀ result, (next result).Within reached)
    : (program >>= next).Within reached := by
  intro state
  refine Ensures.bind ((early state).mono (fun result middle first => ?_) (fun _ h => h))
  exact (late result middle).mono (fun _ _ second => trans _ _ _ first second)
    (fun _ second => trans _ _ _ first second)

include trans in
theorem Within.tryFinally {program : Exec State α} {finalizer : Exec State β}
    (early : program.Within reached) (late : finalizer.Within reached)
    : Within reached (tryFinally program finalizer) := by
  intro state
  have onward (middle : State) (first : reached state middle)
      : finalizer.Ensures middle (fun _ => reached state) (reached state) :=
    (late middle).mono (fun _ _ second => trans _ _ _ first second)
      (fun _ second => trans _ _ _ first second)
  exact Ensures.tryFinally ((early state).mono (fun _ => onward) onward)

include trans in
theorem Within.tryCatch {handler : JsError → Exec State α} (early : program.Within reached)
    (late : ∀ error, (handler error).Within reached)
    : Within reached (MonadExcept.tryCatch program handler) := by
  intro state
  refine Ensures.tryCatch ((early state).mono (fun _ _ first => first) ?_)
  intro middle first error
  exact (late error middle).mono (fun _ _ second => trans _ _ _ first second)
    (fun _ second => trans _ _ _ first second)

include refl trans in
theorem Within.forM {items : List β} {body : β → Exec State PUnit}
    (turn : ∀ item ∈ items, (body item).Within reached)
    : Within reached (items.forM body) := by
  induction items with
  | nil => exact Within.pure refl PUnit.unit
  | cons item rest ih =>
      apply Within.bind trans (turn item (by simp))
      exact fun _ => ih (fun other member => turn other (.tail _ member))

include refl trans in
theorem Within.foldlM {items : List β} {step : α → β → Exec State α}
    (turn : ∀ result, ∀ item ∈ items, (step result item).Within reached) (result : α)
    : Within reached (items.foldlM step result) := by
  induction items generalizing result with
  | nil => exact Within.pure refl result
  | cons item rest ih =>
      rw [List.foldlM_cons]
      apply Within.bind trans (turn result item (by simp))
      exact ih (fun result other member => turn result other (.tail _ member))

theorem Within.mono {other : State → State → Prop} (within : program.Within reached)
    (weaker : ∀ first last, reached first last
      → other first last)
    : program.Within other :=
  fun state => (within state).mono (fun _ _ => weaker _ _) (fun _ => weaker _ _)

end Within

variable {Error : Type} {items : List α}

/-- What every step of a loop preserves holds after the loop, if it does not throw. -/
theorem foldlM_preserves {step : State → α → Except Error State} {holds : State → Prop}
    (preserved : ∀ before item after, holds before → step before item = .ok after
      → holds after) (start : holds state) (returned : items.foldlM step state = .ok final)
    : holds final := by
  induction items generalizing state with
  | nil => exact Except.ok.inj returned ▸ start
  | cons item rest ih =>
      rw [List.foldlM_cons] at returned
      cases taken : step state item with
      | error error => simp [taken, bind, Except.bind] at returned
      | ok next =>
          rw [taken] at returned
          exact ih (preserved state item next start taken) returned

/-- A loop whose steps do not throw is the loop over their results. -/
theorem foldlM_eq_ok {step : State → α → Except Error State} {next : State → α → State}
    (steps : ∀ item ∈ items, ∀ state, step state item = .ok (next state item)) (state : State)
    : items.foldlM step state = .ok (items.foldl next state) := by
  induction items generalizing state with
  | nil => rfl
  | cons item rest ih =>
      rw [List.foldlM_cons, steps item (.head _)]
      exact ih (fun other member => steps other (.tail _ member)) _

variable {result : Except Error α}

theorem ok_of_bind {next : α → Except Error β} {b : β} (returned : (result >>= next) = .ok b)
    : ∃ a, result = .ok a ∧ next a = .ok b := by
  cases result with
  | error error => simp [bind, Except.bind] at returned
  | ok a => exact ⟨a, rfl, returned⟩

theorem ok_of_map {f : α → β} {b : β} (returned : result.map f = .ok b)
    : ∃ a, result = .ok a ∧ f a = b := by
  cases result with
  | error error => simp [Except.map] at returned
  | ok a => exact ⟨a, rfl, Except.ok.inj returned⟩

theorem ok_of_forM {body : α → Except Error Unit} (returned : items.forM body = .ok ⟨⟩)
    : ∀ item ∈ items, body item = .ok ⟨⟩ := by
  induction items with
  | nil => simp
  | cons first rest ih =>
      obtain ⟨⟨⟩, here, later⟩ := ok_of_bind returned
      intro item member
      rcases List.mem_cons.mp member with rfl | inRest
      · exact here
      · exact ih later item inRest

/-- Each turn of a loop over a state that ends without an error returned. -/
theorem ok_of_foldlM {State : Type} {step : State → α → Except Error State} {first last : State}
    (returned : items.foldlM step first = .ok last)
    : ∀ item ∈ items, ∃ before after, step before item = .ok after := by
  induction items generalizing first with
  | nil => simp
  | cons item rest ih =>
      rw [List.foldlM_cons] at returned
      obtain ⟨middle, here, later⟩ := ok_of_bind returned
      intro other member
      rcases List.mem_cons.mp member with rfl | inRest
      · exact ⟨first, middle, here⟩
      · exact ih later other inRest

/-- A loop that gathers results ends without an error when each of its turns does. -/
theorem mapM_ok_iff {body : α → Except Error β} {results : List β}
    : items.mapM body = .ok results
      ↔ List.Forall₂ (fun item result => body item = .ok result) items results := by
  induction items generalizing results with
  | nil => simp [pure, Except.pure, eq_comm, List.forall₂_nil_left_iff]
  | cons item rest ih =>
      simp only [List.mapM_cons]
      constructor
      · intro returned
        obtain ⟨first, here, returned⟩ := ok_of_bind returned
        obtain ⟨others, later, returned⟩ := ok_of_bind returned
        cases returned
        exact .cons here (ih.mp later)
      · intro turns
        cases turns with
        | cons here later =>
            simp [here, ih.mpr later, bind, Except.bind, pure, Except.pure]

/-- Each result of a gathering loop belongs to one of its items. -/
theorem exists_item_of_result {related : α → β → Prop} {results : List β}
    (turns : List.Forall₂ related items results) {result : β} (member : result ∈ results)
    : ∃ item ∈ items, related item result := by
  induction turns with
  | nil => simp at member
  | cons here _ ih =>
      rcases List.mem_cons.mp member with rfl | later
      · exact ⟨_, (.head _), here⟩
      · obtain ⟨item, inRest, belongs⟩ := ih later
        exact ⟨item, List.mem_cons_of_mem _ inRest, belongs⟩

theorem ok_of_toOption {a : α} (found : result.toOption = some a)
    : result = .ok a := by
  cases result with
  | error error => simp [Except.toOption] at found
  | ok value => exact congrArg Except.ok (Option.some.inj found)

end Exec

end N8n
