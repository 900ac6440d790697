import Mathlib.Data.List.Basic

/-! The circuit breaker around calls to a service
(`packages/cli/src/utils/circuit-breaker.ts`, `packages/cli/src/utils/sliding-window.ts`).
Every method reads the clock anew, so the times it reads are arguments.
-/

namespace N8n.Utils

/-- The failures that are counted, oldest first. -/
structure SlidingWindow where
  maxEvents : Nat
  durationMs : Int
  eventTimestamps : List Int
  deriving DecidableEq, Repr

namespace SlidingWindow

/-- `slice(-0)` is the whole array. -/
def addEvent (self : SlidingWindow) (timestamp : Int) : SlidingWindow :=
  let eventTimestamps := self.eventTimestamps ++ [timestamp]
  if eventTimestamps.length > self.maxEvents * 2 ∧ self.maxEvents ≠ 0 then
    {
      self with
      eventTimestamps := eventTimestamps.drop (eventTimestamps.length - self.maxEvents * 2)
    }
  else { self with eventTimestamps }

/-- Drops the expired events. -/
def expire (self : SlidingWindow) (now : Int) : SlidingWindow :=
  {
    self with
    eventTimestamps :=
      self.eventTimestamps.filter (fun timestamp => timestamp ≥ now - self.durationMs)
  }

def getCount (self : SlidingWindow) (now : Int) : Nat := (self.expire now).eventTimestamps.length

def clear (self : SlidingWindow) : SlidingWindow := { self with eventTimestamps := [] }

end SlidingWindow

inductive CircuitBreakerState where
  | closed
  | open
  | halfOpen
  deriving DecidableEq, Repr

structure CircuitBreakerOptions where
  timeout : Int
  maxFailures : Nat
  halfOpenRequests : Nat
  failureWindow : Int
  maxConcurrentHalfOpenRequests : Option Nat

structure CircuitBreaker where
  state : CircuitBreakerState
  halfOpenCount : Nat
  lastFailureTime : Int
  pendingHalfOpenRequests : Nat
  slidingWindow : SlidingWindow
  deriving DecidableEq, Repr

/-- The method that awaits a call, and with it the code that its end runs. -/
inductive Handler where
  | closedState
  | halfOpenState
  deriving DecidableEq, Repr

namespace CircuitBreaker

def new (options : CircuitBreakerOptions) : CircuitBreaker where
  state := .closed
  halfOpenCount := 0
  lastFailureTime := 0
  pendingHalfOpenRequests := 0
  slidingWindow := ⟨options.maxFailures, options.failureWindow, []⟩

variable (options : CircuitBreakerOptions) (self : CircuitBreaker)

def recordFailure (now : Int) : CircuitBreaker :=
  { self with lastFailureTime := now, slidingWindow := self.slidingWindow.addEvent now }

def changeToState (newState : CircuitBreakerState) : CircuitBreaker :=
  { self with state := newState }

def handleHalfOpenState : CircuitBreaker × Option Handler :=
  if self.pendingHalfOpenRequests ≥ options.maxConcurrentHalfOpenRequests.getD 1 then
    (self, none)
  else
    ({ self with pendingHalfOpenRequests := self.pendingHalfOpenRequests + 1 },
      some .halfOpenState)

def handleOpenState (now : Int) : CircuitBreaker × Option Handler :=
  if now - self.lastFailureTime ≥ options.timeout then
    handleHalfOpenState options ({ self with halfOpenCount := 0 }.changeToState .halfOpen)
  else (self, none)

def execute (now : Int) : CircuitBreaker × Option Handler :=
  match self.state with
  | .open => self.handleOpenState options now
  | .halfOpen => self.handleHalfOpenState options
  | .closed => (self, some .closedState)

def succeedHalfOpen : CircuitBreaker :=
  let counted := { self with halfOpenCount := self.halfOpenCount + 1 }
  let changed :=
    if counted.halfOpenCount ≥ options.halfOpenRequests then
      { counted.changeToState .closed with slidingWindow := counted.slidingWindow.clear }
    else counted
  { changed with pendingHalfOpenRequests := changed.pendingHalfOpenRequests - 1 }

def failHalfOpen (now : Int) : CircuitBreaker :=
  let changed := (self.recordFailure now).changeToState .open
  { changed with pendingHalfOpenRequests := changed.pendingHalfOpenRequests - 1 }

/-- Failures are recorded at `now` and counted at `later`. -/
def failClosed (now later : Int) : CircuitBreaker :=
  let recorded := self.recordFailure now
  let counted := { recorded with slidingWindow := recorded.slidingWindow.expire later }
  if recorded.slidingWindow.getCount later ≥ options.maxFailures then
    counted.changeToState .open
  else counted

def succeed : Handler → CircuitBreaker
  | .closedState => self
  | .halfOpenState => self.succeedHalfOpen options

def fail (now later : Int) : Handler → CircuitBreaker
  | .closedState => self.failClosed options now later
  | .halfOpenState => self.failHalfOpen now

end CircuitBreaker

end N8n.Utils
