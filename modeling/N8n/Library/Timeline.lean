import Mathlib.Data.Nat.Find
import Mathlib.Data.List.Basic

/-! Times that fire, and checks that accept some of them. A recurring check remembers the last
time that it has accepted; it keeps its interval as long as what it remembers tells the
right time from the others.
-/

namespace N8n

/-- `late` is the first time after `early` that fires. -/
structure Follows (fires : Nat → Prop) (early late : Nat) : Prop where
  here : fires late
  after : early < late
  between (time : Nat) (later : early < time) (sooner : time < late) : ¬ fires time

/-- The times that fire from `first` to `last`, in order. -/
inductive Timeline (fires : Nat → Prop) (first : Nat) : List Nat → Nat → Prop
  | start (here : fires first) : Timeline fires first [first] first
  | next {ticks : List Nat} {last tick : Nat} (before : Timeline fires first ticks last)
    (follows : Follows fires last tick)
    : Timeline fires first (ticks ++ [tick]) tick

namespace Timeline

variable {fires : Nat → Prop} {first last : Nat} {ticks : List Nat}

section

variable (timeline : Timeline fires first ticks last)

include timeline

theorem fires_last : fires last := by
  cases timeline with
  | start here => exact here
  | next _ follows => exact follows.here

theorem first_le_last : first ≤ last := by
  induction timeline with
  | start => exact Nat.le_refl _
  | next _ follows ih => exact Nat.le_of_lt (Nat.lt_of_le_of_lt ih follows.after)

/-- No time is left out. -/
theorem mem_iff (time : Nat)
    : time ∈ ticks ↔ fires time ∧ first ≤ time ∧ time ≤ last := by
  induction timeline with
  | start here =>
      rw [List.mem_singleton]
      constructor
      · intro same
        subst same
        exact ⟨here, Nat.le_refl _, Nat.le_refl _⟩
      · exact fun ⟨_, early, late⟩ => Nat.le_antisymm late early
  | @next ticks last tick before follows ih =>
      have order := before.first_le_last
      have after := follows.after
      rw [List.mem_append, List.mem_singleton, ih]
      constructor
      · intro member
        rcases member with ⟨here, early, late⟩ | same
        · exact ⟨here, early, by omega⟩
        · subst same
          exact ⟨follows.here, by omega, Nat.le_refl _⟩
      · intro ⟨here, early, late⟩
        by_cases old : time ≤ last
        · exact .inl ⟨here, early, old⟩
        · refine .inr (Nat.le_antisymm late (Nat.le_of_not_lt ?_))
          exact fun sooner => follows.between time (Nat.lt_of_not_le old) sooner here

end

theorem exists_follows {early late : Nat} (here : fires late) (after : early < late)
    : ∃ next, Follows fires early next ∧ next ≤ late := by
  classical
  have later : ∃ time, fires time ∧ early < time := ⟨late, here, after⟩
  refine ⟨Nat.find later, ⟨(Nat.find_spec later).1, (Nat.find_spec later).2, ?_⟩, ?_⟩
  · exact fun time isLater sooner fired => Nat.find_min later sooner ⟨fired, isLater⟩
  · exact Nat.find_min' later ⟨here, after⟩

end Timeline

section Checks

variable {State : Type*} (check : State → Nat → Bool × State)

def stateAfter (state : State) (ticks : List Nat) : State :=
  ticks.foldl (fun state tick => (check state tick).2) state

/-- The times that the check accepts, one after the other. -/
def accepted : State → List Nat → List Nat
  | _, [] => []
  | state, tick :: rest =>
      let (accepts, next) := check state tick
      if accepts then tick :: accepted next rest else accepted next rest

variable {check}

theorem accepted_append (state : State) (ticks more : List Nat)
    : accepted check state (ticks ++ more)
      = accepted check state ticks ++ accepted check (stateAfter check state ticks) more := by
  induction ticks generalizing state with
  | nil => rfl
  | cons tick rest ih =>
      simp only [List.cons_append, accepted, ih, stateAfter, List.foldl_cons]
      split <;> rfl

theorem mem_accepted_snoc (state : State) (ticks : List Nat) (tick time : Nat)
    : time ∈ accepted check state (ticks ++ [tick])
      ↔ time ∈ accepted check state ticks
        ∨ time = tick ∧ (check (stateAfter check state ticks) tick).1 = true := by
  rw [accepted_append, List.mem_append]
  simp only [accepted]
  split <;> simp_all

theorem accepted_subset {state : State} {ticks : List Nat} {time : Nat}
    (member : time ∈ accepted check state ticks)
    : time ∈ ticks := by
  induction ticks generalizing state with
  | nil => exact member
  | cons tick rest ih =>
      simp only [accepted] at member
      split at member
      · rcases List.mem_cons.mp member with rfl | later
        · exact (.head _)
        · exact List.mem_cons_of_mem tick (ih later)
      · exact List.mem_cons_of_mem tick (ih member)

theorem stateAfter_snoc (state : State) (ticks : List Nat) (tick : Nat)
    : stateAfter check state (ticks ++ [tick])
      = (check (stateAfter check state ticks) tick).2 := by
  simp [stateAfter]

/-- If a later time would be accepted as things stand, then some time up to it is accepted, by
induction on the time that is left.
-/
theorem accepts_until {fires : Nat → Prop} {initial : State} {first last target : Nat}
    {ticks : List Nat}
    (unchanged : ∀ state tick, (check state tick).1 = false → (check state tick).2 = state)
    (timeline : Timeline fires first ticks last) (here : fires target) (after : last < target)
    (accepts : (check (stateAfter check initial ticks) target).1 = true)
    : ∃ more late,
        Timeline fires first (ticks ++ more) late
        ∧ last < late
        ∧ late ≤ target
        ∧ late ∈ accepted check initial (ticks ++ more) := by
  induction distance : target - last using Nat.strong_induction_on
    generalizing ticks last with
  | _ distance ih =>
      obtain ⟨next, follows, sooner⟩ := Timeline.exists_follows here after
      have later := follows.after
      have longer := timeline.next follows
      cases outcome : (check (stateAfter check initial ticks) next).1 with
      | true =>
          exact ⟨[next], next, longer, later, sooner,
            (mem_accepted_snoc _ _ _ _).mpr (.inr ⟨rfl, outcome⟩)⟩
      | false =>
          have notTarget : next ≠ target := by
            intro same
            rw [same, accepts] at outcome
            contradiction
          have same : stateAfter check initial (ticks ++ [next])
              = stateAfter check initial ticks := by
            rw [stateAfter_snoc]
            exact unchanged _ _ outcome
          obtain ⟨more, late, goesOn, afterNext, notLater, acceptedLate⟩ :=
            ih (target - next) (by omega) longer (by omega) (same ▸ accepts) rfl
          rw [List.append_assoc] at goesOn acceptedLate
          exact ⟨next :: more, late, goesOn, by omega, notLater, acceptedLate⟩

/-- What a check needs to keep an interval of `size` periods. `remembers` relates a state to
the last time that was accepted, and `keeps` to the times after which nothing goes wrong.
-/
structure Recurring (fires : Nat → Prop) (check : State → Nat → Bool × State) (initial : State)
    (period : Nat → Nat) (size : Nat) (remembers : State → Nat → Prop)
    (keeps : Nat → Prop)
    : Prop where
  positive : 0 < size
  mono {early late : Nat} (order : early ≤ late) : period early ≤ period late
  returns {time : Nat} (here : fires time) (kept : keeps time)
    : ∃ late, fires late ∧ period late = period time + size
  first {tick : Nat} (here : fires tick)
    : (check initial tick).1 = true ∧ remembers (check initial tick).2 tick
  accepts {state : State} {time tick : Nat} (remembered : remembers state time)
    (fired : fires time) (kept : keeps time) (here : fires tick) (after : time < tick)
    (inPeriod : period tick = period time ∨ period tick = period time + size)
    : (check state tick).1 = true ∧ remembers (check state tick).2 tick
  refuses {state : State} {time tick : Nat} (remembered : remembers state time)
    (fired : fires time) (kept : keeps time) (here : fires tick)
    (after : period time < period tick) (before : period tick < period time + size)
    : check state tick = (false, state)

/-- The state after a run remembers a time less than an interval ago, and the times that
were accepted are those a multiple of the interval after the first one.
-/
structure KeptSoFar (check : State → Nat → Bool × State) (initial : State)
    (period : Nat → Nat) (size : Nat) (remembers : State → Nat → Prop) (first : Nat)
    (ticks : List Nat) (last : Nat)
    : Prop where
  remembered
    : ∃ time ∈ accepted check initial ticks,
        remembers (stateAfter check initial ticks) time
        ∧ time ≤ last
        ∧ period last < period time + size
        ∧ ∃ turns, period time = period first + turns * size
  accepted_iff (tick : Nat) (member : tick ∈ ticks)
    : tick ∈ accepted check initial ticks ↔ size ∣ period tick - period first

variable {fires : Nat → Prop} {initial : State} {period : Nat → Nat} {size : Nat}
  {remembers : State → Nat → Prop} {keeps : Nat → Prop} {first last tick : Nat}
  {ticks : List Nat}

variable (recurring : Recurring fires check initial period size remembers keeps)

include recurring

/-- The first tick is accepted. -/
theorem Recurring.kept_start (here : fires first)
    : KeptSoFar check initial period size remembers first [first] first := by
  obtain ⟨accepts, remembered⟩ := recurring.first here
  have positive := recurring.positive
  refine ⟨⟨first, ?_, remembered, Nat.le_refl _, by omega, 0, by omega⟩, ?_⟩
  · simp [accepted, accepts]
  · intro tick member
    obtain rfl := List.mem_singleton.mp member
    simp [accepted, accepts]

/-- A tick that comes before the interval is over is refused, and one at its end is accepted. -/
theorem Recurring.kept_next (timeline : Timeline fires first ticks last)
    (soFar : KeptSoFar check initial period size remembers first ticks last)
    (kept : ∀ time ∈ accepted check initial ticks, keeps time) (follows : Follows fires last tick)
    : KeptSoFar check initial period size remembers first (ticks ++ [tick]) tick := by
  obtain ⟨time, member, remembered, old, recent, turns, onGrid⟩ := soFar.remembered
  have fired := ((timeline.mem_iff time).mp (accepted_subset member)).1
  have positive := recurring.positive
  have after := follows.after
  have notEarlier := recurring.mono (show time ≤ tick by omega)
  obtain ⟨late, firesLate, inTime⟩ := recurring.returns fired (kept time member)
  have notLater : period tick ≤ period time + size := by
    by_contra tooLate
    have sooner : late < tick := by
      by_contra notSooner
      have := recurring.mono (Nat.le_of_not_lt notSooner)
      omega
    have afterLast : last < late := by
      by_contra notAfter
      have := recurring.mono (Nat.le_of_not_lt notAfter)
      omega
    exact follows.between late afterLast sooner firesLate
  -- Ticks that were seen before are not accepted again.
  have sameBefore {other : Nat} (seen : other ∈ ticks)
      : other ∈ accepted check initial (ticks ++ [tick])
        ↔ other ∈ accepted check initial ticks := by
    have different : other ≠ tick := by
      have := ((timeline.mem_iff other).mp seen).2.2
      omega
    simp [mem_accepted_snoc, different]
  have iffBefore {other : Nat} (seen : other ∈ ticks)
      : other ∈ accepted check initial (ticks ++ [tick])
        ↔ size ∣ period other - period first :=
    (sameBefore seen).trans (soFar.accepted_iff other seen)
  by_cases inPeriod : period tick = period time ∨ period tick = period time + size
  · obtain ⟨accepts, remembersTick⟩ :=
      recurring.accepts remembered fired (kept time member) follows.here (by omega) inPeriod
    have acceptedTick : tick ∈ accepted check initial (ticks ++ [tick]) :=
      (mem_accepted_snoc _ _ _ _).mpr (.inr ⟨rfl, accepts⟩)
    have gridTick : ∃ turns, period tick = period first + turns * size := by
      rcases inPeriod with same | next
      · exact ⟨turns, by omega⟩
      · exact ⟨turns + 1, by rw [Nat.add_mul]; omega⟩
    refine ⟨⟨tick, acceptedTick, ?_, Nat.le_refl _, by omega, gridTick⟩, ?_⟩
    · rw [stateAfter_snoc]
      exact remembersTick
    · intro other seen
      rcases List.mem_append.mp seen with earlier | isTick
      · exact iffBefore earlier
      · obtain rfl := List.mem_singleton.mp isTick
        obtain ⟨turns, equal⟩ := gridTick
        refine iff_of_true acceptedTick ⟨turns, ?_⟩
        rw [equal, Nat.add_sub_cancel_left, Nat.mul_comm]
  · have refused :=
      recurring.refuses remembered fired (kept time member) follows.here (by omega) (by omega)
    refine ⟨⟨time, ?_, ?_, by omega, by omega, turns, onGrid⟩, ?_⟩
    · exact (sameBefore (accepted_subset member)).mpr member
    · rw [stateAfter_snoc, refused]
      exact remembered
    · intro other seen
      rcases List.mem_append.mp seen with earlier | isTick
      · exact iffBefore earlier
      · obtain rfl := List.mem_singleton.mp isTick
        apply iff_of_false
        · rw [mem_accepted_snoc, refused]
          intro wasAccepted
          rcases wasAccepted with earlier | now
          · have := ((timeline.mem_iff _).mp (accepted_subset earlier)).2.2
            omega
          · simp at now
        · intro ⟨parts, equal⟩
          have between : turns * size < parts * size ∧ parts * size < (turns + 1) * size := by
            rw [Nat.add_mul, Nat.mul_comm parts]
            omega
          have := Nat.lt_of_mul_lt_mul_right between.1
          have := Nat.lt_of_mul_lt_mul_right between.2
          omega

/-- A run keeps the interval if nothing goes wrong after the times that it has accepted before
its last tick.
-/
theorem Recurring.kept_run (timeline : Timeline fires first ticks last)
    (kept : ∀ time ∈ accepted check initial ticks, time < last → keeps time)
    : KeptSoFar check initial period size remembers first ticks last := by
  induction timeline with
  | start here => exact recurring.kept_start here
  | @next ticks last tick before follows ih =>
      have after := follows.after
      have keptBefore : ∀ time ∈ accepted check initial ticks, keeps time := by
        intro time member
        have := ((before.mem_iff time).mp (accepted_subset member)).2.2
        exact kept time ((mem_accepted_snoc _ _ _ _).mpr (.inl member)) (by omega)
      exact recurring.kept_next before (ih (fun time member _ => keptBefore time member))
        keptBefore follows

/-- Such a run does not stop: a later tick is accepted, at the end of an interval at the
latest.
-/
theorem Recurring.goes_on
    (unchanged : ∀ state tick, (check state tick).1 = false → (check state tick).2 = state)
    (timeline : Timeline fires first ticks last)
    (soFar : KeptSoFar check initial period size remembers first ticks last)
    (kept : ∀ time ∈ accepted check initial ticks, keeps time)
    : ∃ more late,
        Timeline fires first (ticks ++ more) late
        ∧ last < late
        ∧ period late ≤ period last + size
        ∧ late ∈ accepted check initial (ticks ++ more) := by
  obtain ⟨time, member, remembered, old, recent, turns, onGrid⟩ := soFar.remembered
  have fired := ((timeline.mem_iff time).mp (accepted_subset member)).1
  obtain ⟨target, firesTarget, inTime⟩ := recurring.returns fired (kept time member)
  have notEarlier := recurring.mono old
  have after : last < target := by
    by_contra notAfter
    have := recurring.mono (Nat.le_of_not_lt notAfter)
    omega
  have accepts :=
    (recurring.accepts remembered fired (kept time member) firesTarget (by omega)
      (.inr inTime)).1
  obtain ⟨more, late, goesOn, later, notLater, acceptedLate⟩ :=
    accepts_until unchanged timeline firesTarget after accepts
  have := recurring.mono notLater
  exact ⟨more, late, goesOn, later, by omega, acceptedLate⟩

end Checks

end N8n
