import Mathlib.Data.List.Perm.Basic
import N8n.Utils.CircuitBreaker
import N8n.Library.Histories
import N8n.Library.Runs

/-! Overlapping calls through one circuit breaker, and how it closes. The end of a call runs
the code of the phase in which it started, whatever the phase is by then.
-/

namespace N8n.Utils

open N8n.Histories N8n.Runs

inductive Event where
  | succeeded
  | failed
  | changed (previous next : CircuitBreakerState)
  deriving DecidableEq, Repr

def Event.isChange : Event → Bool
  | .changed _ _ => true
  | _ => false

/-- A call is known by its place among the calls that have not ended. -/
inductive Action where
  | start (now : Int)
  | succeed (place : Nat)
  | fail (place : Nat) (now later : Int)
  deriving DecidableEq, Repr

/-- The breaker, the handlers of the calls that have not ended, and all that happened, oldest
first.
-/
structure System where
  breaker : CircuitBreaker
  calls : List Handler
  events : List Event
  deriving DecidableEq

/-- The event of a change of state, if there was one. -/
def changes (previous next : CircuitBreaker) : List Event :=
  if previous.state = next.state then [] else [.changed previous.state next.state]

variable {count : Nat} {events : List Event} {self next : System}

namespace System

variable (options : CircuitBreakerOptions)

def start : System := ⟨.new options, [], []⟩

def step (self : System) : Action → Option System
  | .start now =>
      let (breaker, handler) := self.breaker.execute options now
      some ⟨breaker, self.calls ++ handler.toList, self.events ++ changes self.breaker breaker⟩
  | .succeed place =>
      self.calls[place]?.map (fun handler =>
        let breaker := self.breaker.succeed options handler
        ⟨breaker, self.calls.eraseIdx place,
          self.events ++ .succeeded :: changes self.breaker breaker⟩)
  | .fail place now later =>
      self.calls[place]?.map (fun handler =>
        let breaker := self.breaker.fail options now later handler
        ⟨breaker, self.calls.eraseIdx place,
          self.events ++ .failed :: changes self.breaker breaker⟩)

/-- `events` end in a phase of recovery: since the change to half-open, no call failed and
at least `count` calls succeeded.
-/
def Recovered (count : Nat) (events : List Event) : Prop :=
  ∃ before previous phase,
    events = before ++ .changed previous .halfOpen :: phase
    ∧ (∀ event ∈ phase, event.isChange = false)
    ∧ count ≤ phase.count .succeeded
    ∧ Event.failed ∉ phase

/-- Every change to closed is one from half-open, after the required recovery. -/
def ClosesRecovered (count : Nat) (events : List Event) : Prop :=
  ∀ before previous after, events = before ++ .changed previous .closed :: after
    → previous = .halfOpen ∧ Recovered count before

/-- A half-open call that closes the circuit does not find it open, and a call from the closed
phase that fails while the circuit is half-open opens it.
-/
def EndsInPhase (self : System) : Action → Prop
  | .start _ => True
  | .succeed place =>
      self.calls[place]? = some .halfOpenState
      → options.halfOpenRequests ≤ self.breaker.halfOpenCount + 1
      → self.breaker.state ≠ .open
  | .fail place now later =>
      self.calls[place]? = some .closedState
      → self.breaker.state = .halfOpen
      → options.maxFailures ≤ (self.breaker.slidingWindow.addEvent now).getCount later

instance (self : System) (action : Action) : Decidable (self.EndsInPhase options action) := by
  unfold EndsInPhase
  cases action <;> infer_instance

/-- While half-open, the counted successes lie in the phase, in which no call failed. -/
structure Sound (system : System) : Prop where
  recovering
    : system.breaker.state = .halfOpen → Recovered system.breaker.halfOpenCount system.events
  closes : ClosesRecovered options.halfOpenRequests system.events

variable {options}

theorem Recovered.mono {fewer : Nat} (recovered : Recovered count events) (less : fewer ≤ count)
    : Recovered fewer events := by
  obtain ⟨before, previous, phase, split, quiet, enough, noFailure⟩ := recovered
  exact ⟨before, previous, phase, split, quiet, by omega, noFailure⟩

theorem Recovered.start (events : List Event) (previous : CircuitBreakerState)
    : Recovered 0 (events ++ [.changed previous .halfOpen]) :=
  ⟨events, previous, [], rfl, by simp, by simp, by simp⟩

theorem Recovered.succeeded (recovered : Recovered count events)
    : Recovered (count + 1) (events ++ [.succeeded]) := by
  obtain ⟨before, previous, phase, split, quiet, enough, noFailure⟩ := recovered
  refine ⟨before, previous, phase ++ [.succeeded], by simp [split], ?_, ?_,
      by simpa using noFailure⟩
  · intro event member
    rcases List.mem_append.mp member with old | new
    · exact quiet event old
    · rw [List.mem_singleton.mp new]
      rfl
  · simpa using enough

/-- The changes to closed stay as they were when the next event is none or is one of them. -/
theorem ClosesRecovered.append (closes : ClosesRecovered count events) {event : Event}
    (fits : ∀ previous, event = .changed previous .closed
      → previous = .halfOpen ∧ Recovered count events)
    : ClosesRecovered count (events ++ [event]) := by
  intro before previous after split
  rcases split_snoc split with ⟨-, rfl, same⟩ | ⟨shorter, -, earlier⟩
  · exact fits previous same.symm
  · exact closes before previous shorter earlier

theorem ClosesRecovered.other (closes : ClosesRecovered count events) (event : Event)
    (isOther : ∀ previous, event ≠ .changed previous .closed)
    : ClosesRecovered count (events ++ [event]) :=
  closes.append (fun previous same => absurd same (isOther previous))

theorem start_sound (options : CircuitBreakerOptions) : (start options).Sound options where
  recovering := by simp [start, CircuitBreaker.new]
  closes := by simp [start, ClosesRecovered]

/-- A start may only change open to half-open, and then it starts to count anew. -/
theorem execute_cases (options : CircuitBreakerOptions) (breaker : CircuitBreaker) (now : Int)
    : ∃ pending handler,
        breaker.execute options now
          = ({ breaker with pendingHalfOpenRequests := pending }, handler)
        ∨ breaker.state = .open
          ∧ breaker.execute options now
            = (⟨.halfOpen, 0, breaker.lastFailureTime, pending, breaker.slidingWindow⟩,
                handler) := by
  unfold CircuitBreaker.execute CircuitBreaker.handleOpenState
    CircuitBreaker.handleHalfOpenState CircuitBreaker.changeToState
  split
  · split
    · split
      · exact ⟨_, _, .inr ⟨by assumption, rfl⟩⟩
      · exact ⟨_, _, .inr ⟨by assumption, rfl⟩⟩
    · exact ⟨_, _, .inl rfl⟩
  · split
    · exact ⟨_, _, .inl rfl⟩
    · exact ⟨_, _, .inl rfl⟩
  · exact ⟨_, _, .inl rfl⟩

section

variable (sound : self.Sound options)

include sound

theorem Sound.start {now : Int} (taken : self.step options (.start now) = some next)
    : next.Sound options := by
  obtain ⟨pending, handler, same | ⟨isOpen, changed⟩⟩ := execute_cases options self.breaker now
  · simp only [step, same, changes, if_true, List.append_nil, Option.some.injEq] at taken
    subst taken
    exact ⟨sound.recovering, sound.closes⟩
  · simp only [step, changed, changes, isOpen, reduceCtorEq, if_false, Option.some.injEq] at taken
    subst taken
    exact ⟨fun _ => .start self.events .open, sound.closes.other _ (by simp)⟩

/-- A success that closes the circuit finds it half-open, and the phase recovered. -/
theorem Sound.succeed {place : Nat} (inPhase : self.EndsInPhase options (.succeed place))
    (taken : self.step options (.succeed place) = some next)
    : next.Sound options := by
  simp only [step, Option.map_eq_some_iff] at taken
  obtain ⟨handler, here, rfl⟩ := taken
  have closes := sound.closes.other .succeeded (by simp)
  cases handler with
  | closedState =>
      refine ⟨fun isHalfOpen => ?_, by simpa [CircuitBreaker.succeed, changes] using closes⟩
      have recovered := (sound.recovering isHalfOpen).succeeded.mono (Nat.le_succ _)
      simpa [CircuitBreaker.succeed, changes] using recovered
  | halfOpenState =>
      by_cases enough : options.halfOpenRequests ≤ self.breaker.halfOpenCount + 1
      · have notOpen := inPhase here enough
        simp only [CircuitBreaker.succeed, CircuitBreaker.succeedHalfOpen, ge_iff_le, enough,
          if_true, CircuitBreaker.changeToState, changes]
        refine ⟨by simp, ?_⟩
        by_cases isClosed : self.breaker.state = .closed
        · simpa [isClosed] using closes
        · have isHalfOpen : self.breaker.state = .halfOpen := by
            cases state : self.breaker.state <;> simp_all
          have recovered := (sound.recovering isHalfOpen).succeeded.mono enough
          have fits (previous : CircuitBreakerState)
              (same : Event.changed .halfOpen .closed = .changed previous .closed)
              : previous = .halfOpen
                ∧ Recovered options.halfOpenRequests (self.events ++ [.succeeded]) := by
            simp_all
          simpa [isHalfOpen] using closes.append fits
      · simp only [CircuitBreaker.succeed, CircuitBreaker.succeedHalfOpen, ge_iff_le, enough,
          if_false, changes, if_true]
        exact ⟨fun isHalfOpen => (sound.recovering isHalfOpen).succeeded, closes⟩

theorem Sound.opened (calls : List Handler) {breaker : CircuitBreaker}
    (isOpen : breaker.state = .open)
    : Sound options
        ⟨breaker, calls, self.events ++ .failed :: changes self.breaker breaker⟩ := by
  have closes := sound.closes.other .failed (by simp)
  refine ⟨by simp [isOpen], ?_⟩
  by_cases same : self.breaker.state = .open
  · simpa [changes, isOpen, same] using closes
  · simpa [changes, isOpen, same] using
      closes.other (.changed self.breaker.state .open) (by simp)

theorem Sound.fail {place : Nat} {now later : Int}
    (inPhase : self.EndsInPhase options (.fail place now later))
    (taken : self.step options (.fail place now later) = some next)
    : next.Sound options := by
  simp only [step, Option.map_eq_some_iff] at taken
  obtain ⟨handler, here, rfl⟩ := taken
  cases handler with
  | closedState =>
      by_cases enough
          : (self.breaker.slidingWindow.addEvent now).getCount later ≥ options.maxFailures
      · exact sound.opened _ (by
          simp [CircuitBreaker.fail, CircuitBreaker.failClosed, CircuitBreaker.recordFailure,
            CircuitBreaker.changeToState, enough])
      · simp only [CircuitBreaker.fail, CircuitBreaker.failClosed, CircuitBreaker.recordFailure,
          enough, if_false, changes, if_true]
        exact ⟨fun isHalfOpen => absurd (inPhase here isHalfOpen) enough,
          sound.closes.other _ (by simp)⟩
  | halfOpenState => exact sound.opened _ rfl

end

/-- In a run whose calls end in their phase, the circuit only closes after the recovery. -/
theorem closes_recovered (options : CircuitBreakerOptions) (actions : List Action)
    (inPhase : Along (step options) (EndsInPhase options) (start options) actions)
    : ∀ taken, taken <+: actions → ∀ reached,
        run (step options) (start options) taken = some reached
        → ClosesRecovered options.halfOpenRequests reached.events := by
  have sound : Throughout (step options) (Sound options) (start options) actions := by
    refine throughout_of_preserved ?_ (start_sound options) inPhase
    intro self action next sound inPhase taken
    cases action with
    | start now => exact sound.start taken
    | succeed place => exact sound.succeed inPhase taken
    | fail place now later => exact sound.fail inPhase taken
  intro taken isPrefix reached ran
  have reachedSound := throughout_iff_prefix.mp sound taken isPrefix reached ran
  exact reachedSound.closes

/-- One failure opens the circuit, one success closes it, and it is tried at once. -/
def eager : CircuitBreakerOptions where
  timeout := 0
  maxFailures := 1
  halfOpenRequests := 1
  failureWindow := 10000
  maxConcurrentHalfOpenRequests := none

/-- A circuit that fails once and then recovers. -/
theorem closes_recovered_eager
    : let actions : List Action := [.start 0, .fail 0 1 1, .start 2, .succeed 0]
      (run (step eager) (start eager) actions).map (fun system => system.events)
          = some [.failed, .changed .closed .open, .changed .open .halfOpen, .succeeded,
              .changed .halfOpen .closed]
      ∧ ∀ taken, taken <+: actions → ∀ reached,
          run (step eager) (start eager) taken = some reached
          → ClosesRecovered 1 reached.events :=
  ⟨by decide, closes_recovered eager _ (by decide)⟩

/-- Two calls start while the circuit is closed. The first one fails, and a third one tests
the recovery; then the second one fails, and the third one closes the open circuit.
-/
theorem lateFailure_closes_open
    : ∃ reached,
        run (step eager) (start eager)
            [.start 0, .start 0, .fail 0 1 1, .start 2, .fail 0 3 3, .succeed 0]
          = some reached
        ∧ Event.changed .open .closed ∈ reached.events
        ∧ ¬ClosesRecovered 1 reached.events := by
  refine ⟨⟨⟨.closed, 1, 3, 0, ⟨1, 10000, []⟩⟩, [],
      [.failed, .changed .closed .open, .changed .open .halfOpen, .failed,
        .changed .halfOpen .open, .succeeded, .changed .open .closed]⟩,
    by decide, by decide, fun closes => ?_⟩
  have fromHalfOpen := (closes
    [.failed, .changed .closed .open, .changed .open .halfOpen, .failed,
      .changed .halfOpen .open, .succeeded]
    .open [] rfl).1
  contradiction

/-! ### Half-open calls -/

/-- The half-open calls that have not ended are counted, and are no more than may test the
recovery at a time.
-/
def CountsHalfOpen (options : CircuitBreakerOptions) (self : System) : Prop :=
  self.breaker.pendingHalfOpenRequests = self.calls.count .halfOpenState
    ∧ self.breaker.pendingHalfOpenRequests ≤ options.maxConcurrentHalfOpenRequests.getD 1

variable {options : CircuitBreakerOptions}

/-- The calls that are let through add to those that are `pending`, within the bound. -/
def Admits (options : CircuitBreakerOptions) (pending : Nat)
    (started : CircuitBreaker × Option Handler)
    : Prop :=
  started.1.pendingHalfOpenRequests = pending + started.2.toList.count .halfOpenState
    ∧ (pending ≤ options.maxConcurrentHalfOpenRequests.getD 1
      → started.1.pendingHalfOpenRequests ≤ options.maxConcurrentHalfOpenRequests.getD 1)

theorem execute_admits (breaker : CircuitBreaker) (now : Int)
    : Admits options breaker.pendingHalfOpenRequests (breaker.execute options now) := by
  have tested (breaker : CircuitBreaker)
      : Admits options breaker.pendingHalfOpenRequests
          (breaker.handleHalfOpenState options) := by
    unfold CircuitBreaker.handleHalfOpenState
    split
    · exact ⟨rfl, id⟩
    · next free => exact ⟨rfl, fun _ => by dsimp only; omega⟩
  unfold CircuitBreaker.execute CircuitBreaker.handleOpenState
  split
  · split
    · exact tested _
    · exact ⟨rfl, id⟩
  · exact tested breaker
  · exact ⟨rfl, id⟩

/-- The end of a call takes it off the calls, and off the count if it is a half-open call. -/
theorem CountsHalfOpen.ends (counts : self.CountsHalfOpen options) {place : Nat}
    {handler : Handler} (here : self.calls[place]? = some handler) {breaker : CircuitBreaker}
    {events : List Event}
    (pending : breaker.pendingHalfOpenRequests
      = self.breaker.pendingHalfOpenRequests - [handler].count .halfOpenState)
    : CountsHalfOpen options ⟨breaker, self.calls.eraseIdx place, events⟩ := by
  obtain ⟨inside, rfl⟩ := List.getElem?_eq_some_iff.mp here
  have taken := (List.getElem_cons_eraseIdx_perm inside).count_eq .halfOpenState
  rw [← List.singleton_append, List.count_append] at taken
  obtain ⟨same, within⟩ := counts
  exact ⟨by dsimp only; omega, by dsimp only; omega⟩

/-- However calls overlap, no more half-open calls are under way than the options allow. -/
theorem throughout_countsHalfOpen (actions : List Action)
    : Throughout (step options) (CountsHalfOpen options) (start options) actions := by
  refine throughout_of_invariant ?_ ⟨rfl, Nat.zero_le _⟩
  intro self action next counts taken
  cases action with
  | start now =>
      cases taken
      obtain ⟨same, within⟩ := counts
      obtain ⟨more, bounded⟩ := execute_admits self.breaker now
      refine ⟨?_, bounded within⟩
      rw [List.count_append, ← same]
      exact more
  | succeed place =>
      obtain ⟨handler, here, rfl⟩ := Option.map_eq_some_iff.mp taken
      refine counts.ends here ?_
      cases handler with
      | closedState => rfl
      | halfOpenState =>
          simp only [CircuitBreaker.succeed, CircuitBreaker.succeedHalfOpen]
          split <;> rfl
  | fail place now later =>
      obtain ⟨handler, here, rfl⟩ := Option.map_eq_some_iff.mp taken
      refine counts.ends here ?_
      cases handler with
      | closedState =>
          simp only [CircuitBreaker.fail, CircuitBreaker.failClosed]
          split <;> rfl
      | halfOpenState => rfl

end System

end N8n.Utils
