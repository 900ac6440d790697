import Mathlib.Data.List.Basic

/-! Runs of a machine with partial steps, and the induction rules over them.
A step that answers `none` is an action the environment may not take in that state.
-/

namespace N8n.Runs

variable {State Action : Type*} (step : State → Action → Option State)

/-- The state after all actions, provided each of them may be taken where it stands. -/
def run : State → List Action → Option State
  | state, [] => some state
  | state, action :: rest => (step state action).bind (fun next => run next rest)

/-- Every state the actions pass through, the first one included, satisfies `good`. -/
def Throughout (good : State → Prop) : State → List Action → Prop
  | state, [] => good state
  | state, action :: rest =>
      good state ∧ ∀ next, step state action = some next → Throughout good next rest

/-- Every action taken satisfies `allowed` at the state in which it is taken. -/
def Along (allowed : State → Action → Prop) : State → List Action → Prop
  | _, [] => True
  | state, action :: rest =>
      ∀ next, step state action = some next
        → allowed state action ∧ Along allowed next rest

variable {step}

@[simp] theorem run_nil (state : State) : run step state [] = some state := rfl

/-- A run over two action lists is a run over each in turn, by induction on the first. -/
theorem run_append (state : State) (first second : List Action)
    : run step state (first ++ second)
      = (run step state first).bind (fun middle => run step middle second) := by
  induction first generalizing state with
  | nil => rfl
  | cons action rest ih =>
      cases taken : step state action with
      | none => simp [run, taken]
      | some next => simp [run, taken, ih]

variable {state : State} {actions : List Action} {good : State → Prop}

theorem Throughout.here (h : Throughout step good state actions)
    : good state := by
  cases actions with
  | nil => exact h
  | cons _ _ => exact h.1

theorem exists_of_run_append {last : State} {first rest : List Action} {action : Action}
    (ran : run step state (first ++ action :: rest) = some last)
    : ∃ before after, run step state first = some before ∧ step before action = some after
        ∧ run step after rest = some last := by
  rw [run_append] at ran
  obtain ⟨before, early, late⟩ := Option.bind_eq_some_iff.mp ran
  obtain ⟨after, taken, later⟩ := Option.bind_eq_some_iff.mp late
  exact ⟨before, after, early, taken, later⟩

/-- Holding throughout is holding after every prefix that can be taken. -/
theorem throughout_iff_prefix
    : Throughout step good state actions
      ↔ ∀ taken, taken <+: actions → ∀ reached, run step state taken = some reached
          → good reached := by
  constructor
  · intro h taken isPrefix reached ran
    induction taken generalizing state actions with
    | nil => exact Option.some.inj ran ▸ h.here
    | cons action rest ih =>
        obtain ⟨later, rfl⟩ := isPrefix
        cases moved : step state action with
        | none => simp [run, moved] at ran
        | some next =>
            exact ih (h.2 next moved) (List.prefix_append _ _)
              (by simpa [run, moved] using ran)
  · intro h
    induction actions generalizing state with
    | nil => exact h [] (List.prefix_refl _) state rfl
    | cons action rest ih =>
        refine ⟨h [] List.nil_prefix state rfl, ?_⟩
        intro next moved
        apply ih
        intro taken isPrefix reached ran
        exact h (action :: taken) (List.cons_prefix_cons.mpr ⟨rfl, isPrefix⟩) reached
          (by simpa [run, moved] using ran)

variable {invariant : State → Prop} {allowed : State → Action → Prop}

/-- An invariant that every allowed action preserves holds throughout an allowed run. -/
theorem throughout_of_preserved (preserved
      : ∀ state action next,
          invariant state → allowed state action → step state action = some next
          → invariant next) (start : invariant state) (along : Along step allowed state actions)
    : Throughout step invariant state actions := by
  induction actions generalizing state with
  | nil => exact start
  | cons action rest ih =>
      refine ⟨start, fun next moved => ?_⟩
      obtain ⟨fits, later⟩ := along next moved
      exact ih (preserved state action next start fits moved) later

theorem throughout_of_invariant (preserved
      : ∀ state action next,
          invariant state → step state action = some next → invariant next)
    (start : invariant state)
    : Throughout step invariant state actions := by
  induction actions generalizing state with
  | nil => exact start
  | cons action rest ih =>
      exact ⟨start, fun next moved => ih (preserved state action next start moved)⟩

/-- An invariant that allows every action and is preserved by it allows whole runs. -/
theorem along_of_invariant (preserved
      : ∀ state action next,
          invariant state → step state action = some next
          → allowed state action ∧ invariant next) (start : invariant state)
    : Along step allowed state actions := by
  induction actions generalizing state with
  | nil => trivial
  | cons action rest ih =>
      intro next taken
      obtain ⟨allows, later⟩ := preserved state action next start taken
      exact ⟨allows, ih later⟩

/-- An invariant that allowed actions preserve makes them good along an allowed run. -/
theorem along_of_allowed {good : State → Action → Prop}
    (preserved
      : ∀ state action next,
          invariant state → allowed state action → step state action = some next
          → good state action ∧ invariant next) (start : invariant state)
    (along : Along step allowed state actions)
    : Along step good state actions := by
  induction actions generalizing state with
  | nil => trivial
  | cons action rest ih =>
      intro next taken
      obtain ⟨fits, later⟩ := along next taken
      obtain ⟨isGood, holds⟩ := preserved state action next start fits taken
      exact ⟨isGood, ih holds later⟩

/-- When a forbidden action always leaves `good`, a run that stays `good` takes allowed
actions only. The invariant holds of all states the run can reach.
-/
theorem along_of_throughout (invariant : State → Prop)
    (preserved
      : ∀ state action next,
          invariant state → step state action = some next → invariant next)
    (forced
      : ∀ state action next,
          invariant state → good state → step state action = some next → good next
          → allowed state action) (start : invariant state) (h : Throughout step good state actions)
    : Along step allowed state actions := by
  induction actions generalizing state with
  | nil => trivial
  | cons action rest ih =>
      intro next moved
      exact ⟨forced state action next start h.1 moved (h.2 next moved).here,
        ih (preserved state action next start moved) (h.2 next moved)⟩

/-- A run can be gone through to check its actions. -/
instance decidableAlong {allowed : State → Action → Prop}
    [∀ state action, Decidable (allowed state action)]
    : ∀ state actions, Decidable (Along step allowed state actions)
  | _, [] => isTrue trivial
  | state, action :: rest =>
      match taken : step state action with
      | none => isTrue (fun next moved => by simp [taken] at moved)
      | some next =>
          have : Decidable (Along step allowed next rest) := decidableAlong next rest
          decidable_of_iff (allowed state action ∧ Along step allowed next rest)
            ⟨fun both other moved => Option.some.inj (taken.symm.trans moved) ▸ both,
              fun along => along next taken⟩

theorem Along.and {first second : State → Action → Prop} (hf : Along step first state actions)
    (hs : Along step second state actions)
    : Along step (fun state action => first state action ∧ second state action) state
        actions := by
  induction actions generalizing state with
  | nil => trivial
  | cons action rest ih =>
      intro next moved
      exact ⟨⟨(hf next moved).1, (hs next moved).1⟩, ih (hf next moved).2 (hs next moved).2⟩

theorem Throughout.mono {better : State → Prop} (weaker : ∀ state, better state → good state)
    (h : Throughout step better state actions)
    : Throughout step good state actions := by
  induction actions generalizing state with
  | nil => exact weaker _ h
  | cons action rest ih => exact ⟨weaker _ h.1, fun next moved => ih (h.2 next moved)⟩

theorem Throughout.last {reached : State} (h : Throughout step good state actions)
    (ran : run step state actions = some reached)
    : good reached :=
  throughout_iff_prefix.mp h actions (List.prefix_refl _) reached ran

end N8n.Runs
