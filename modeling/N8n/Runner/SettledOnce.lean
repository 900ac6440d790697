import Mathlib.Data.List.Induction
import N8n.Library.Runs
import N8n.Runner.SendOffers

/-! The end of a task is sent once: as long as the offers that follow on the result of a task
can be sent, no task has both a result and an error.
-/

namespace N8n.Runner

open N8n.Exec (Within)
open N8n.Runs

variable {Data : Type} {environment : Environment} {opts : TaskRunnerOpts}

/-! ### What matters for the end of a task -/

/-- The running tasks, id and status of every task state, the executions that have not settled,
and how often the end of each task has been sent.
-/
structure View where
  tasks : Dict String Nat
  states : List (String × TaskStatus)
  executions : List Nat
  endings : Nat → Nat

variable {task : Nat} {before after : View}

namespace View

def state (view : View) (task : Nat) : String × TaskStatus :=
  view.states.getD task ("", .waitingForSettings)

def setStatus (view : View) (task : Nat) (status : TaskStatus) : View :=
  { view with states := view.states.set task ((view.state task).1, status) }

def accept (view : View) (taskId : String) : View :=
  { view with
      tasks := view.tasks.set taskId view.states.length
      states := view.states ++ [(taskId, .waitingForSettings)] }

def start (view : View) (task : Nat) : View :=
  { view.setStatus task .running with executions := view.executions ++ [task] }

def settle (view : View) (task : Nat) : View :=
  { view with executions := view.executions.erase task }

/-- The task is no longer running, and its end has been sent so many times more. -/
structure Finishes (task count : Nat) (before after : View) : Prop where
  tasks
    : ∀ taskId other, after.tasks.get? taskId = some other
        → before.tasks.get? taskId = some other ∧ taskId ≠ (before.state task).1
  states : after.states = before.states
  executions : after.executions = before.executions
  endings
    : ∀ other, after.endings other = before.endings other + if other = task then count else 0

theorem Finishes.trans {first second : Nat} {middle : View}
    (early : Finishes task first before middle) (late : Finishes task second middle after)
    : Finishes task (first + second) before after where
  tasks taskId other found := early.tasks taskId other (late.tasks taskId other found).1
  states := late.states.trans early.states
  executions := late.executions.trans early.executions
  endings other := by
    rw [late.endings, early.endings]
    split <;> omega

end View

/-- What a step does. The end of a task is sent in the step that takes the task away from the
running ones, and `once` bounds how often.
-/
inductive Effect (once : Prop) (before : View) : View → Prop where
  | same : Effect once before before
  | accepted (taskId : String) : Effect once before (before.accept taskId)
  | finished {taskId : String} {task count : Nat} {after : View}
      (isRunning : before.tasks.get? taskId = some task)
      (isWaiting : (before.state task).2 = .waitingForSettings)
      (finishes : before.Finishes task count after) (bound : count ≤ 1)
      : Effect once before after
  | settled {task count : Nat} {after : View} (executes : task ∈ before.executions)
      (finishes : (before.settle task).Finishes task count after)
      (unlessCancelled : (before.state task).2 = .abortingCancelled → count = 0)
      (bound : once → count ≤ 1)
      : Effect once before after
  | aborting {taskId : String} {task : Nat} {status : TaskStatus}
      (isRunning : before.tasks.get? taskId = some task)
      (executes : (before.state task).2 = .running)
      (aborts : status = .abortingCancelled ∨ status = .abortingTimeout)
      : Effect once before (before.setStatus task status)
  | started {taskId : String} {task : Nat} (isRunning : before.tasks.get? taskId = some task)
      (isWaiting : (before.state task).2 = .waitingForSettings)
      : Effect once before (before.start task)

/-- A task that runs, or executes, has not been told to have ended. -/
structure Sound (view : View) : Prop where
  registered
    : ∀ taskId task, view.tasks.get? taskId = some task
        → task < view.states.length ∧ (view.state task).1 = taskId
  runs
    : ∀ taskId task, view.tasks.get? taskId = some task
        → (view.state task).2 = .waitingForSettings ∨ task ∈ view.executions
  executing : view.executions.Nodup
  started
    : ∀ task ∈ view.executions, task < view.states.length
        ∧ (view.state task).2 ≠ .waitingForSettings
  unended
    : ∀ task, (task ∈ view.executions ∨ (∃ taskId, view.tasks.get? taskId = some task)
        ∨ view.states.length ≤ task)
        → view.endings task = 0
  cancelled
    : ∀ task, (view.state task).2 = .abortingCancelled → view.endings task = 0

namespace View

variable {view : View} {task other : Nat} {status : TaskStatus} {taskId : String}

theorem state_setStatus (inUse : task < view.states.length)
    : (view.setStatus task status).state other
      = if other = task then ((view.state task).1, status) else view.state other := by
  unfold state setStatus
  simp only [List.getD_eq_getElem?_getD, List.getElem?_set]
  split
  · next same => simp [state, same.symm, inUse]
  · next differ => simp [Ne.symm differ]

theorem state_accept
    : (view.accept taskId).state other
      = if other = view.states.length then (taskId, .waitingForSettings)
        else view.state other := by
  unfold state accept
  simp only [List.getD_eq_getElem?_getD]
  split
  · next same => simp [same]
  · next differ =>
      rcases Nat.lt_or_gt_of_ne differ with inside | outside
      · rw [List.getElem?_append_left inside]
      · rw [List.getElem?_eq_none (by simpa using Nat.succ_le_of_lt outside), List.getElem?_eq_none outside.le]

theorem inUse_of_status (isOther : (view.state task).2 ≠ .waitingForSettings)
    : task < view.states.length := by
  by_contra outside
  exact isOther (by simp [state, List.getElem?_eq_none (Nat.le_of_not_lt outside)])

end View

theorem Sound.accept {view : View} (sound : Sound view) (taskId : String)
    : Sound (view.accept taskId) where
  registered := by
    intro other task found
    rw [View.state_accept]
    rw [show (view.accept taskId).tasks = view.tasks.set taskId view.states.length from rfl,
      Dict.get?_set] at found
    simp only [View.accept, List.length_append, List.length_singleton]
    split at found
    · next same =>
        rw [← Option.some.inj found]
        simp [same]
    · have old := sound.registered other task found
      rw [if_neg (by omega)]
      exact ⟨by omega, old.2⟩
  runs := by
    intro other task found
    rw [View.state_accept]
    rw [show (view.accept taskId).tasks = view.tasks.set taskId view.states.length from rfl,
      Dict.get?_set] at found
    split at found
    · rw [← Option.some.inj found]
      simp
    · have old := sound.registered other task found
      rw [if_neg (by omega)]
      exact sound.runs other task found
  executing := sound.executing
  started := by
    intro task member
    have old := sound.started task member
    rw [View.state_accept, if_neg (by omega)]
    simp only [View.accept, List.length_append, List.length_singleton]
    exact ⟨by omega, old.2⟩
  unended := by
    rintro task (executes | ⟨other, found⟩ | isNew)
    · exact sound.unended task (.inl executes)
    · rw [show (view.accept taskId).tasks = view.tasks.set taskId view.states.length from rfl,
        Dict.get?_set] at found
      split at found
      · rw [← Option.some.inj found]
        exact sound.unended _ (.inr (.inr (le_refl _)))
      · exact sound.unended task (.inr (.inl ⟨other, found⟩))
    · simp only [View.accept, List.length_append, List.length_singleton] at isNew
      exact sound.unended task (.inr (.inr (by omega)))
  cancelled := by
    intro task isCancelled
    rw [View.state_accept] at isCancelled
    split at isCancelled
    · contradiction
    · exact sound.cancelled task isCancelled

variable {count : Nat}

/-- A task that is taken away from the running ones, and does not execute any more, is not told
to have ended afterwards.
-/
theorem Sound.finish (sound : Sound before)
    (finishes : (before.settle task).Finishes task count after)
    (inUse : task < before.states.length)
    (unlessCancelled : (before.state task).2 = .abortingCancelled → count = 0)
    : Sound after := by
  have sameState (other : Nat) : after.state other = before.state other := by
    unfold View.state
    rw [finishes.states]
    rfl
  have executes {other : Nat}
      : other ∈ after.executions ↔ other ≠ task ∧ other ∈ before.executions := by
    rw [finishes.executions]
    exact sound.executing.mem_erase_iff
  have states : after.states = before.states := finishes.states
  have was {taskId : String} {other : Nat} (found : after.tasks.get? taskId = some other)
      : before.tasks.get? taskId = some other ∧ other ≠ task := by
    obtain ⟨old, isOther⟩ := finishes.tasks taskId other found
    refine ⟨old, ?_⟩
    rintro rfl
    exact isOther (sound.registered taskId other old).2.symm
  refine ⟨?_, ?_, ?_, ?_, ?_, ?_⟩
  · intro taskId other found
    rw [sameState, states]
    exact sound.registered taskId other (was found).1
  · intro taskId other found
    rw [sameState]
    exact (sound.runs taskId other (was found).1).imp id
      (fun member => executes.mpr ⟨(was found).2, member⟩)
  · rw [finishes.executions]
    exact sound.executing.erase task
  · intro other member
    rw [sameState, states]
    exact sound.started other (executes.mp member).2
  · intro other live
    have differ : other ≠ task := by
      rcases live with member | ⟨taskId, found⟩ | isNew
      · exact (executes.mp member).1
      · exact (was found).2
      · rw [states] at isNew
        omega
    rw [finishes.endings, if_neg differ]
    apply sound.unended
    rcases live with member | ⟨taskId, found⟩ | isNew
    · exact .inl (executes.mp member).2
    · exact .inr (.inl ⟨taskId, (was found).1⟩)
    · exact .inr (.inr (states ▸ isNew))
  · intro other isCancelled
    rw [sameState] at isCancelled
    have silent : before.endings other = 0 := sound.cancelled other isCancelled
    have told := finishes.endings other
    change after.endings other = before.endings other + _ at told
    rw [told, silent]
    split
    · next same => rw [unlessCancelled (same ▸ isCancelled)]
    · rfl

variable {taskId : String}

section

variable (sound : Sound before) (isRunning : before.tasks.get? taskId = some task)

include sound isRunning

theorem Sound.abort (executes : (before.state task).2 = .running) {status : TaskStatus}
    (aborts : status ≠ .waitingForSettings)
    : Sound (before.setStatus task status) := by
  have inUse := (sound.registered taskId task isRunning).1
  have length : (before.setStatus task status).states.length = before.states.length :=
    List.length_set
  refine ⟨?_, ?_, sound.executing, ?_, ?_, ?_⟩
  · intro other place found
    have old := sound.registered other place found
    rw [View.state_setStatus inUse, length]
    split
    · next same => exact ⟨old.1, same ▸ old.2⟩
    · exact old
  · intro other place found
    rw [View.state_setStatus inUse]
    split
    · next same =>
        rw [same]
        refine .inr ((sound.runs taskId task isRunning).resolve_left ?_)
        rw [executes]
        simp
    · exact sound.runs other place found
  · intro place member
    rw [View.state_setStatus inUse, length]
    split
    · exact ⟨(sound.started place member).1, aborts⟩
    · exact sound.started place member
  · intro place live
    rw [length] at live
    exact sound.unended place live
  · intro place isCancelled
    rw [View.state_setStatus inUse] at isCancelled
    split at isCancelled
    · next same => exact same ▸ sound.unended task (.inr (.inl ⟨taskId, isRunning⟩))
    · exact sound.cancelled place isCancelled

theorem Sound.start (isWaiting : (before.state task).2 = .waitingForSettings)
    : Sound (before.start task) := by
  have inUse := (sound.registered taskId task isRunning).1
  have length : (before.start task).states.length = before.states.length := List.length_set
  have state (other : Nat)
      : (before.start task).state other
        = if other = task then ((before.state task).1, .running) else before.state other :=
    View.state_setStatus inUse
  have notStarted : task ∉ before.executions := fun member =>
    (sound.started task member).2 isWaiting
  refine ⟨?_, ?_, ?_, ?_, ?_, ?_⟩
  · intro other place found
    have old := sound.registered other place found
    rw [state, length]
    split
    · next same => exact ⟨old.1, same ▸ old.2⟩
    · exact old
  · intro other place found
    rw [state]
    split
    · next same => exact .inr (by simp [View.start, same])
    · exact (sound.runs other place found).imp id (List.mem_append_left _)
  · exact List.nodup_append.mpr ⟨sound.executing, List.nodup_singleton task, by
      rintro place member _ last rfl
      exact notStarted (List.mem_singleton.mp last ▸ member)⟩
  · intro place member
    rw [state, length]
    split
    · next same => exact ⟨same ▸ inUse, by simp⟩
    · next differ =>
        rcases List.mem_append.mp member with old | last
        · exact sound.started place old
        · exact absurd (List.mem_singleton.mp last) differ
  · rintro place (executes | found | isNew)
    · rcases List.mem_append.mp executes with old | last
      · exact sound.unended place (.inl old)
      · rw [List.mem_singleton.mp last]
        exact sound.unended task (.inr (.inl ⟨taskId, isRunning⟩))
    · exact sound.unended place (.inr (.inl found))
    · rw [length] at isNew
      exact sound.unended place (.inr (.inr isNew))
  · intro place isCancelled
    rw [state] at isCancelled
    split at isCancelled
    · contradiction
    · exact sound.cancelled place isCancelled

end

theorem View.settle_of_not_mem {view : View} (rests : task ∉ view.executions)
    : view.settle task = view := by
  unfold View.settle
  rw [List.erase_of_not_mem rests]

theorem Sound.step {once : Prop} {before after : View} (sound : Sound before)
    (effect : Effect once before after)
    : Sound after := by
  cases effect with
  | same => exact sound
  | accepted taskId => exact sound.accept taskId
  | @finished taskId task count _ isRunning isWaiting finishes bound =>
      have rests : task ∉ before.executions := fun member =>
        (sound.started task member).2 isWaiting
      rw [← View.settle_of_not_mem rests] at finishes
      refine sound.finish finishes (sound.registered taskId task isRunning).1 ?_
      rw [isWaiting]
      exact fun isCancelled => by contradiction
  | @settled task count _ executes finishes unlessCancelled bound =>
      exact sound.finish finishes (sound.started task executes).1 unlessCancelled
  | aborting isRunning executes aborts =>
      refine sound.abort isRunning executes ?_
      rcases aborts with rfl | rfl <;> simp
  | started isRunning isWaiting => exact sound.start isRunning isWaiting

/-- No end has been sent twice. -/
def View.Once (view : View) : Prop := ∀ task, view.endings task ≤ 1

theorem View.Once.step {once : Prop} {before after : View} (told : before.Once)
    (sound : Sound before) (effect : Effect once before after) (holds : once)
    : after.Once := by
  have ended {task count : Nat} {middle : View} (finishes : middle.Finishes task count after)
      (sameEndings : middle.endings = before.endings) (silent : before.endings task = 0)
      (bound : count ≤ 1)
      : after.Once := by
    intro other
    rw [finishes.endings, sameEndings]
    split
    · next same =>
        rw [same, silent]
        omega
    · exact told other
  cases effect with
  | @finished taskId task _ _ isRunning isWaiting finishes bound =>
      exact ended finishes rfl (sound.unended task (.inr (.inl ⟨taskId, isRunning⟩))) bound
  | @settled task _ _ executes finishes unlessCancelled bound =>
      exact ended finishes rfl (sound.unended task (.inl executes)) (bound holds)
  | _ => exact told

/-- A task that has left the waiting ones never waits again, and a cancelled one stays so. -/
theorem Effect.status {once : Prop} {before after : View} (effect : Effect once before after)
    (sound : Sound before) {task : Nat}
    (isOther : (before.state task).2 ≠ .waitingForSettings)
    : (after.state task).2 ≠ .waitingForSettings
      ∧ ((before.state task).2 = .abortingCancelled
        → (after.state task).2 = .abortingCancelled) := by
  have inUse := View.inUse_of_status isOther
  have sameStates {middle : View} (same : after.states = middle.states)
      (before' : middle.states = before.states)
      : after.state task = before.state task := by
    unfold View.state
    rw [same, before']
  cases effect with
  | same => exact ⟨isOther, id⟩
  | accepted taskId =>
      rw [View.state_accept, if_neg (by omega)]
      exact ⟨isOther, id⟩
  | finished isRunning isWaiting finishes bound =>
      rw [sameStates finishes.states rfl]
      exact ⟨isOther, id⟩
  | settled executes finishes unlessCancelled bound =>
      rw [sameStates finishes.states rfl]
      exact ⟨isOther, id⟩
  | @aborting taskId place status isRunning executes aborts =>
      rw [View.state_setStatus (sound.registered taskId place isRunning).1]
      split
      · next same =>
          rw [same, executes]
          refine ⟨?_, fun isCancelled => by contradiction⟩
          rcases aborts with rfl | rfl <;> simp
      · exact ⟨isOther, id⟩
  | @started taskId place isRunning isWaiting =>
      have differ : task ≠ place := fun same => isOther (same ▸ isWaiting)
      have same : (before.start place).state task = before.state task :=
        (View.state_setStatus (sound.registered taskId place isRunning).1).trans
          (if_neg differ)
      rw [same]
      exact ⟨isOther, id⟩

/-- An execution that is not under way does not get under way when its task no longer waits. -/
theorem Effect.rests {once : Prop} {before after : View} (effect : Effect once before after)
    {task : Nat} (isOther : (before.state task).2 ≠ .waitingForSettings)
    (rests : task ∉ before.executions)
    : task ∉ after.executions := by
  cases effect with
  | finished isRunning isWaiting finishes bound =>
      rw [finishes.executions]
      exact rests
  | settled executes finishes unlessCancelled bound =>
      rw [finishes.executions]
      exact fun member => rests (List.mem_of_mem_erase member)
  | @started taskId place isRunning isWaiting =>
      intro member
      rcases List.mem_append.mp member with old | last
      · exact rests old
      · exact isOther (List.mem_singleton.mp last ▸ isWaiting)
  | _ => exact rests

/-- The end of the task has been sent so many times more. -/
def View.tell (view : View) (task count : Nat) : View :=
  { view with endings := fun other => view.endings other + if other = task then count else 0 }

theorem View.Finishes.of_tell (finishes : (before.tell task count).Finishes task 0 after)
    : before.Finishes task count after :=
  ⟨finishes.tasks, finishes.states, finishes.executions, fun other => by
    rw [finishes.endings]
    simp [tell]⟩

/-! ### Handlers -/

variable {once : Prop} {actions : List (Action Data)} {reached middle : TaskRunner Data}

namespace TaskRunner

variable {self : TaskRunner Data} {task : Nat} {taskId : String}

def view (self : TaskRunner Data) : View :=
  ⟨self.runningTasks, self.taskStates.map (fun taskState => (taskState.taskId, taskState.status)),
    self.executions, self.endings⟩

theorem state_view
    : self.view.state task = ((self.taskState task).taskId, (self.taskState task).status) := by
  unfold View.state view taskState
  simp only [List.getD_eq_getElem?_getD, List.getElem?_map]
  cases self.taskStates[task]? <;> rfl

theorem view_setTaskState (taskState : TaskState)
    : (self.setTaskState task taskState).view
      = { self.view with
            states := self.view.states.set task (taskState.taskId, taskState.status) } := by
  unfold view setTaskState
  simp only [List.map_set]
  rfl

theorem view_setStatus (status : TaskStatus)
    : (self.setTaskState task { self.taskState task with status }).view
      = self.view.setStatus task status := by
  rw [view_setTaskState]
  unfold View.setStatus
  rw [state_view]

theorem view_setTimer (timeoutTimer : Bool)
    : (self.setTaskState task { self.taskState task with timeoutTimer }).view = self.view := by
  have same
      : self.view.states.set task ((self.taskState task).taskId, (self.taskState task).status)
        = self.view.states := by
    rw [← state_view]
    unfold View.state
    apply List.ext_getElem?
    intro place
    rw [List.getElem?_set]
    split
    · next here =>
        subst here
        split
        · next inside => simp [inside]
        · next outside => simp [outside]
    · rfl
  rw [view_setTaskState]
  simp only [same]

variable {before after : TaskRunner Data}

theorem Quiet.view (quiet : Quiet opts before after)
    : after.view = before.view := by
  have endings : after.endings = before.endings := funext quiet.endings
  unfold TaskRunner.view
  rw [quiet.runningTasks, quiet.taskStates, quiet.executions, endings]

/-- The program changes nothing that matters for the end of a task. -/
def SameView (before after : TaskRunner Data) : Prop := after.view = before.view

variable {message : RunnerMessage Data}

theorem sameView_send (tells : ∀ task, Ends task message = false)
    : Within SameView (send environment message) := by
  refine fun self => (send_ensures message self).mono ?_ ?_
  · rintro _ after ⟨rfl, -⟩
    unfold SameView view
    simp only
    congr 1
    funext task
    simp [TaskRunner.endings, tells task]
  · rintro after ⟨rfl, -⟩
    rfl

theorem send_tells (tells : ∀ other, Ends other message = decide (task = other))
    (self : TaskRunner Data)
    : (send environment message).Ensures self
        (fun _ after => after.view = self.view.tell task 1
          ∧ after.canSendOffers = self.canSendOffers ∧ after.openOffers = self.openOffers
          ∧ after.readings = self.readings ∧ after.runningTasks = self.runningTasks
          ∧ after.taskStates = self.taskStates
          ∧ after.attempts = self.attempts + 1 ∧ environment.sendError self.attempts = none)
        (fun after => after.view = self.view) := by
  refine (send_ensures message self).mono ?_ ?_
  · rintro _ after ⟨rfl, goesThrough⟩
    refine ⟨?_, rfl, rfl, rfl, rfl, rfl, rfl, goesThrough⟩
    unfold view View.tell
    simp only
    congr 1
    funext other
    simp [TaskRunner.endings, tells other, eq_comm]
  · rintro after ⟨rfl, -⟩
    rfl

/-! ### Offers that go through -/

/-- The open offers without the stale ones among the entries, for each of which the clock is
read.
-/
def freshOffers (environment : Environment)
    : List (String × TaskOffer) → Dict String TaskOffer → (readings : Nat)
      → Dict String TaskOffer
  | [], openOffers, _ => openOffers
  | (key, offer) :: rest, openOffers, readings =>
      freshOffers environment rest
        (if offer.validUntil < environment.hrtime readings then openOffers.delete key
          else openOffers)
        (readings + 1)

/-- Each offer that `sendOffers` is about to send can be sent. -/
def OffersGoThrough (environment : Environment) (opts : TaskRunnerOpts)
    (self : TaskRunner Data)
    : Prop :=
  let openOffers :=
    freshOffers environment self.openOffers.entries self.openOffers self.readings
  self.canSendOffers = true
  → ∀ place, place < opts.maxConcurrency - (openOffers.keys.length + self.runningTasks.keys.length)
      → environment.sendError (self.attempts + place) = none

/-- When the result of a task can be sent, so can the offers that are sent after it. -/
def OffersFollow (environment : Environment) (opts : TaskRunnerOpts) (self : TaskRunner Data)
    : Action Data → Prop
  | .settled task (.ok _) =>
      (self.taskState task).status ≠ .abortingCancelled
      → environment.sendError self.attempts = none
      → OffersGoThrough environment opts
          { self with
              runningTasks := self.runningTasks.delete (self.taskState task).taskId
              attempts := self.attempts + 1 }
  | _ => True

theorem deleteIfStale_returns (key : String) (offer : TaskOffer) (self : TaskRunner Data)
    : (deleteIfStale environment key offer).Ensures self
        (fun _ after =>
          after
          = { self with
                openOffers :=
                  if offer.validUntil < environment.hrtime self.readings then
                    self.openOffers.delete key
                  else self.openOffers
                readings := self.readings + 1 })
        (fun _ => False) := by
  refine .bind (.get (.bind (.update ?_)))
  split
  · exact .update rfl
  · exact .pure rfl

theorem deleteStale_returns (entries : List (String × TaskOffer)) (self : TaskRunner Data)
    : (entries.forM (fun entry => deleteIfStale environment entry.1 entry.2)).Ensures self
        (fun _ after =>
          after
          = { self with
                openOffers := freshOffers environment entries self.openOffers self.readings
                readings := self.readings + entries.length })
        (fun _ => False) := by
  induction entries generalizing self with
  | nil => exact .pure rfl
  | cons entry rest ih =>
      refine .bind ((deleteIfStale_returns _ _ self).mono ?_ (fun _ fails => fails))
      rintro _ middle rfl
      refine (ih _).mono ?_ (fun _ fails => fails)
      rintro _ after rfl
      simp [freshOffers, Nat.add_assoc, Nat.add_comm 1]

variable {self : TaskRunner Data}

theorem sendOffer_returns (goesThrough : environment.sendError self.attempts = none)
    : (sendOffer environment opts).Ensures self
        (fun _ after => after.attempts = self.attempts + 1) (fun _ => False) := by
  refine .bind (.get (.bind (.update ?_)))
  refine (send_ensures _ _).mono ?_ ?_
  · rintro _ after ⟨rfl, -⟩
    rfl
  · rintro after ⟨-, fails⟩
    exact fails goesThrough

theorem sendOffers_returns (goThrough : OffersGoThrough environment opts self)
    : (sendOffers environment opts).Ensures self (fun _ _ => True) (fun _ => False) := by
  have loop (places : List Nat) (self : TaskRunner Data)
      (goThrough : ∀ place < places.length, environment.sendError (self.attempts + place) = none)
      : (places.forM (fun _ => sendOffer environment opts)).Ensures self (fun _ _ => True)
          (fun _ => False) := by
    induction places generalizing self with
    | nil => exact .pure trivial
    | cons place rest ih =>
        have first := goThrough 0 (by simp)
        refine .bind ((sendOffer_returns first).mono ?_ (fun _ fails => fails))
        intro _ middle sent
        refine ih middle (fun place inside => ?_)
        have later := goThrough (place + 1) (by simpa using inside)
        rw [sent]
        rwa [Nat.add_assoc, Nat.add_comm 1]
  refine .bind (.bind (.get ?_))
  refine (deleteStale_returns _ self).mono ?_ (fun _ fails => fails)
  rintro _ middle rfl
  refine .bind (.get ?_)
  split
  · next isFree =>
      refine loop _ _ (fun place inside => ?_)
      rw [List.length_range] at inside
      exact goThrough isFree place inside
  · exact .pure trivial

/-! ### The effect of each handler -/

/-- Taking a task away from the running ones, before offers are sent. -/
def removed (self : TaskRunner Data) (task : Nat) : TaskRunner Data :=
  { self.setTaskState task { self.taskState task with timeoutTimer := false } with
      runningTasks := self.runningTasks.delete (self.taskState task).taskId }

theorem removed_finishes : self.view.Finishes task 0 (self.removed task).view := by
  have states : (self.removed task).view.states = self.view.states := by
    rw [← @view_setTimer Data self task false]
    rfl
  refine ⟨?_, states, rfl, fun other => (Nat.add_zero _).symm.trans (by simp; rfl)⟩
  intro taskId other found
  rw [state_view]
  change (self.runningTasks.delete (self.taskState task).taskId).get? taskId = some other
    at found
  rw [Dict.get?_delete] at found
  split at found
  · contradiction
  · next differ => exact ⟨found, differ⟩

theorem finishTask_within
    : Within (fun before after : TaskRunner Data => before.view.Finishes task 0 after.view)
        (finishTask environment opts task) := by
  intro self
  refine .bind (.update ?_)
  have finishes {after : TaskRunner Data} (quiet : Quiet opts (self.removed task) after)
      : self.view.Finishes task 0 after.view :=
    quiet.view ▸ removed_finishes
  exact (sendOffers_within (self.removed task)).mono (fun _ _ => finishes) (fun _ => finishes)

theorem finishTask_returns
    (goThrough : OffersGoThrough environment opts
      { self with runningTasks := self.runningTasks.delete (self.taskState task).taskId })
    : (finishTask environment opts task).Ensures self (fun _ _ => True) (fun _ => False) := by
  refine .bind (.update ?_)
  exact sendOffers_returns goThrough

theorem sameView_throwUnexpectedTaskStatus
    : Within (@SameView Data) (throwUnexpectedTaskStatus task) :=
  fun _ => Exec.Ensures.bind (.get (.throw rfl))

/-- The end has been sent at most once more, and not for a cancelled task. -/
structure Told (task count : Nat) (before after : TaskRunner Data) : Prop where
  view : after.view = before.view.tell task count
  unlessCancelled : (before.taskState task).status = .abortingCancelled → count = 0
  bound : count ≤ 1

theorem Told.same {before after : TaskRunner Data} (same : SameView before after)
    : Told task 0 before after :=
  ⟨same.trans (by simp [View.tell]), fun _ => rfl, Nat.zero_le _⟩

theorem sendUnlessCancelled_told {sendEnd : Exec (TaskRunner Data) Unit}
    (sends : sendEnd.Ensures self (fun _ after => after.view = self.view.tell task 1)
      (SameView self))
    : (sendUnlessCancelled task sendEnd).Ensures self
        (fun _ after => ∃ count, Told task count self after)
        (fun after => ∃ count, Told task count self after) := by
  refine .bind (.get ?_)
  have told (notCancelled : (self.taskState task).status ≠ .abortingCancelled)
      : sendEnd.Ensures self (fun _ after => ∃ count, Told task count self after)
          (fun after => ∃ count, Told task count self after) :=
    sends.mono
      (fun _ after told => ⟨1, told, fun isCancelled => absurd isCancelled notCancelled, le_refl 1⟩)
      (fun after same => ⟨0, Told.same same⟩)
  split
  · exact (sameView_throwUnexpectedTaskStatus self).mono (fun _ _ same => ⟨0, Told.same same⟩)
      (fun _ same => ⟨0, Told.same same⟩)
  · exact .pure ⟨0, Told.same rfl⟩
  · next status => exact told (by simp [status])
  · next status => exact told (by simp [status])

theorem sendError_told (error : JsError)
    : (sendError environment task error).Ensures self
        (fun _ after => after.view = self.view.tell task 1) (SameView self) := by
  refine .bind (.get ?_)
  exact (send_tells (fun other => by simp [Ends]) self).mono (fun _ _ told => told.1)
    (fun _ same => same)

/-- The task is finished, and its end has been sent as often as the bound allows. -/
structure Ended (task count : Nat) (before after : TaskRunner Data) : Prop where
  finishes : before.view.Finishes task count after.view
  unlessCancelled : (before.taskState task).status = .abortingCancelled → count = 0

theorem Told.ended (told : Told task count before middle)
    (finishes : middle.view.Finishes task 0 after.view)
    : Ended task count before after :=
  ⟨.of_tell (told.view ▸ finishes), told.unlessCancelled⟩

def EndedOnce (task : Nat) (before after : TaskRunner Data) : Prop :=
  ∃ count ≤ 1, Ended task count before after

/-- An error after the result was sent comes from the offers. -/
def Rejected (environment : Environment) (opts : TaskRunnerOpts) (task : Nat) (data : Data)
    (before after : TaskRunner Data)
    : Prop :=
  ∃ count ≤ 1, Ended task count before after
    ∧ (OffersFollow environment opts before (.settled task (.ok data)) → count = 0)

theorem taskExecutionFailed_ended (error : JsError) (self : TaskRunner Data)
    : (taskExecutionFailed environment opts task error).Ensures self
        (fun _ => EndedOnce task self) (EndedOnce task self) := by
  have ends (middle : TaskRunner Data) (told : ∃ count, Told task count self middle)
      : (finishTask environment opts task).Ensures middle (fun _ => EndedOnce task self)
          (EndedOnce task self) := by
    obtain ⟨count, told⟩ := told
    exact (finishTask_within middle).mono
      (fun _ _ finishes => ⟨count, told.bound, told.ended finishes⟩)
      (fun _ finishes => ⟨count, told.bound, told.ended finishes⟩)
  exact .tryFinally ((sendUnlessCancelled_told (sendError_told error)).mono
    (fun _ => ends) ends)

theorem finishTask_untold (data : Data) (same : SameView self middle)
    : (finishTask environment opts task).Ensures middle (fun _ => EndedOnce task self)
        (Rejected environment opts task data self)
      ∧ (finishTask environment opts task).Ensures middle
        (fun _ => Rejected environment opts task data self)
        (Rejected environment opts task data self) := by
  have ended {after : TaskRunner Data} (finishes : middle.view.Finishes task 0 after.view)
      : Ended task 0 self after :=
    (Told.same same).ended finishes
  have rejected {after : TaskRunner Data} (finishes : middle.view.Finishes task 0 after.view)
      : Rejected environment opts task data self after :=
    ⟨0, Nat.zero_le _, ended finishes, fun _ => rfl⟩
  exact ⟨(finishTask_within middle).mono
      (fun _ _ finishes => ⟨0, Nat.zero_le _, ended finishes⟩) (fun _ => rejected),
    (finishTask_within middle).mono (fun _ _ => rejected) (fun _ => rejected)⟩

theorem sendData_finishes (data : Data)
    (notCancelled : (self.taskState task).status ≠ .abortingCancelled)
    : (sendData environment task data).Ensures self
        (fun _ middle => (finishTask environment opts task).Ensures middle
          (fun _ => EndedOnce task self) (Rejected environment opts task data self))
        (fun middle => (finishTask environment opts task).Ensures middle
          (fun _ => Rejected environment opts task data self)
          (Rejected environment opts task data self)) := by
  refine .bind (.get ?_)
  refine (send_tells (fun _ => rfl) self).mono ?_ (fun _ same => (finishTask_untold data same).2)
  rintro _ middle ⟨told, isFree, openOffers, readings, tasks, states, attempts, goesThrough⟩
  have ended {after : TaskRunner Data} (finishes : middle.view.Finishes task 0 after.view)
      : Ended task 1 self after :=
    ⟨.of_tell (told ▸ finishes), fun isCancelled => absurd isCancelled notCancelled⟩
  by_cases follow : OffersFollow environment opts self (.settled task (.ok data))
  · have goThrough
        : OffersGoThrough environment opts
            { middle with
                runningTasks := middle.runningTasks.delete (middle.taskState task).taskId } := by
      have := follow notCancelled goesThrough
      unfold OffersGoThrough taskState at *
      simpa only [isFree, openOffers, readings, tasks, states, attempts] using this
    exact ((finishTask_returns goThrough).and (finishTask_within middle)).mono
      (fun _ _ both => ⟨1, le_refl 1, ended both.2⟩) (fun _ both => both.1.elim)
  · exact (finishTask_within middle).mono
      (fun _ _ finishes => ⟨1, le_refl 1, ended finishes⟩)
      (fun _ finishes => ⟨1, le_refl 1, ended finishes, fun holds => absurd holds follow⟩)

theorem taskExecutionSucceeded_ended (data : Data) (self : TaskRunner Data)
    : (taskExecutionSucceeded environment opts task data).Ensures self
        (fun _ => EndedOnce task self) (Rejected environment opts task data self) := by
  refine .tryFinally (.bind (.get ?_))
  split
  · exact (sameView_throwUnexpectedTaskStatus self).mono
      (fun _ _ same => (finishTask_untold data same).1)
      (fun _ same => (finishTask_untold data same).2)
  · exact .pure (finishTask_untold data rfl).1
  · next status => exact sendData_finishes data (by simp [status])
  · next status => exact sendData_finishes data (by simp [status])

theorem Ended.trans {first second : Nat} (early : Ended task first before middle)
    (late : Ended task second middle after)
    : Ended task (first + second) before after := by
  refine ⟨early.finishes.trans late.finishes, fun isCancelled => ?_⟩
  have sameState : (middle.taskState task).status = (before.taskState task).status := by
    have same : middle.view.state task = before.view.state task := by
      unfold View.state
      rw [early.finishes.states]
    rw [state_view, state_view] at same
    exact congrArg Prod.snd same
  rw [early.unlessCancelled isCancelled, late.unlessCancelled (sameState ▸ isCancelled)]

/-- The execution that settles finishes its task, and sends its end at most once as long as the
offers follow.
-/
theorem executionSettled_ended (outcome : Except JsError Data) (self : TaskRunner Data)
    : let good (after : TaskRunner Data) : Prop :=
        ∃ count, (self.view.settle task).Finishes task count after.view
          ∧ ((self.taskState task).status = .abortingCancelled → count = 0)
          ∧ (OffersFollow environment opts self (.settled task outcome) → count ≤ 1)
      (executionSettled environment opts task outcome).Ensures self (fun _ => good) good := by
  intro good
  refine .bind (.update ?_)
  cases outcome with
  | error error =>
      refine (taskExecutionFailed_ended error _).mono ?_ ?_
      · rintro _ after ⟨count, bound, ended⟩
        exact ⟨count, ended.finishes, ended.unlessCancelled, fun _ => bound⟩
      · rintro after ⟨count, bound, ended⟩
        exact ⟨count, ended.finishes, ended.unlessCancelled, fun _ => bound⟩
  | ok data =>
      refine .tryCatch ((taskExecutionSucceeded_ended data _).mono ?_ ?_)
      · rintro _ after ⟨count, bound, ended⟩
        exact ⟨count, ended.finishes, ended.unlessCancelled, fun _ => bound⟩
      · rintro middle ⟨first, _, early, unsent⟩ error
        have ends (after : TaskRunner Data) (late : EndedOnce task middle after)
            : good after := by
          obtain ⟨second, bound, late⟩ := late
          have both := early.trans late
          refine ⟨first + second, both.finishes, both.unlessCancelled, fun follow => ?_⟩
          rw [unsent follow]
          omega
        exact (taskExecutionFailed_ended error middle).mono (fun _ => ends) ends

/-! ### Steps and runs -/

/-- The effect of a program that starts in `self`, whether it returns or throws. -/
def Has (once : Prop) (self : TaskRunner Data) (program : Exec (TaskRunner Data) Unit) : Prop :=
  program.Ensures self (fun _ after => Effect once self.view after.view)
    (fun after => Effect once self.view after.view)

theorem Has.of_same {program : Exec (TaskRunner Data) Unit} (same : Within SameView program)
    : Has once self program := by
  have effect {after : TaskRunner Data} (same : SameView self after)
      : Effect once self.view after.view :=
    same ▸ .same
  exact (same self).mono (fun _ _ => effect) (fun _ => effect)

theorem Has.of_finish (isRunning : self.runningTasks.get? taskId = some task)
    (isWaiting : (self.taskState task).status = .waitingForSettings)
    : Has once self (finishTask environment opts task) := by
  have effect {after : TaskRunner Data} (finishes : self.view.Finishes task 0 after.view)
      : Effect once self.view after.view :=
    .finished isRunning (by rw [state_view]; exact isWaiting) finishes (Nat.zero_le _)
  exact (finishTask_within self).mono (fun _ _ => effect) (fun _ => effect)

theorem Has.of_setStatus (isRunning : self.runningTasks.get? taskId = some task)
    (executes : (self.taskState task).status = .running) {status : TaskStatus}
    (aborts : status = .abortingCancelled ∨ status = .abortingTimeout)
    : Has once self (setStatus task status) := by
  refine .update ?_
  rw [view_setStatus]
  exact .aborting isRunning (by rw [state_view]; exact executes) aborts

theorem taskCancelled_has : Has once self (taskCancelled environment opts taskId) := by
  refine .bind (.get ?_)
  split
  · exact Has.of_same (fun _ => rfl)
  · next task isRunning =>
      split
      · next isWaiting => exact Has.of_finish isRunning isWaiting
      · exact Has.of_same (fun _ => rfl)
      · exact Has.of_same (fun _ => rfl)
      · next executes => exact Has.of_setStatus isRunning executes (.inl rfl)

theorem taskTimedOut_has : Has once self (taskTimedOut environment opts taskId) := by
  refine .bind (.get ?_)
  split
  · exact Has.of_same (fun _ => rfl)
  · next task isRunning =>
      split
      · next isWaiting =>
          have effect {middle after : TaskRunner Data} {count : Nat} (bound : count ≤ 1)
              (told : middle.view = self.view.tell task count)
              (finishes : middle.view.Finishes task 0 after.view)
              : Effect once self.view after.view :=
            .finished isRunning (by rw [state_view]; exact isWaiting) (.of_tell (told ▸ finishes))
              bound
          refine .tryFinally ((sendError_told _).mono ?_ ?_)
          · intro _ middle told
            exact (finishTask_within middle).mono (fun _ _ => effect (le_refl 1) told)
              (fun _ => effect (le_refl 1) told)
          · intro middle same
            have same : Told task 0 self middle := .same same
            have told := same.view
            exact (finishTask_within middle).mono (fun _ _ => effect (Nat.zero_le _) told)
              (fun _ => effect (Nat.zero_le _) told)
      · exact Has.of_same sameView_throwUnexpectedTaskStatus
      · next executes => exact Has.of_setStatus isRunning executes (.inr rfl)
      · exact Has.of_same (fun _ => rfl)

theorem receivedSettings_has : Has once self (receivedSettings taskId) := by
  refine .bind (.get ?_)
  split
  · exact Has.of_same (fun _ => rfl)
  · next task isRunning =>
      split
      · exact Has.of_same sameView_throwUnexpectedTaskStatus
      · exact Has.of_same sameView_throwUnexpectedTaskStatus
      · exact Has.of_same sameView_throwUnexpectedTaskStatus
      · next isWaiting =>
          refine .bind (.update (.update ?_))
          have started
              : Effect once self.view (self.view.start task) :=
            .started isRunning (by rw [state_view]; exact isWaiting)
          unfold View.start at started
          rw [← view_setStatus] at started
          exact started

theorem offerAccepted_has (offerId : String)
    : Has once self (offerAccepted environment opts offerId taskId) := by
  have quietly {state : TaskRunner Data} {message : RunnerMessage Data}
      (tells : ∀ task, Ends task message = false)
      (effect : Effect once self.view state.view)
      : (send environment message).Ensures state
          (fun _ after => Effect once self.view after.view)
          (fun after => Effect once self.view after.view) :=
    (sameView_send tells state).mono (fun _ _ same => same.symm ▸ effect)
      (fun _ same => same.symm ▸ effect)
  refine .bind (.get ?_)
  split
  · split
    · exact quietly (fun _ => rfl) .same
    · refine .bind (.update (quietly (fun _ => rfl) ?_))
      have accepted : Effect once self.view (self.view.accept taskId) := .accepted taskId
      unfold View.accept at accepted
      rw [show self.view.states.length = self.taskStates.length from List.length_map _] at accepted
      unfold view at accepted ⊢
      rw [List.map_append]
      exact accepted
  · exact .bind (.update (quietly (fun _ => rfl) .same))

theorem sameView_sendOffers : Within (@SameView Data) (sendOffers environment opts) :=
  sendOffers_within.mono (fun _ _ quiet => quiet.view)

theorem timerFired_has : Has once self (timerFired environment opts task) := by
  refine .bind (.get (.bind (.update ?_)))
  have fires
      : Has once (self.setTaskState task { self.taskState task with timeoutTimer := false })
          (taskTimedOut environment opts (self.taskState task).taskId) :=
    taskTimedOut_has
  unfold Has at fires
  rw [view_setTimer] at fires
  exact fires

variable {next : TaskRunner Data} {action : Action Data}

theorem step_effect (taken : step environment opts self action = some next)
    : Effect (OffersFollow environment opts self action) self.view next.view := by
  unfold step at taken
  split at taken
  · next isPossible =>
      cases taken
      refine Exec.Ensures.after
        (fun after : TaskRunner Data =>
          Effect (OffersFollow environment opts self action) self.view after.view) ?_
      cases action with
      | offerInterval => exact Has.of_same sameView_sendOffers
      | taskofferaccept offerId taskId => exact offerAccepted_has offerId
      | taskcancel taskId reason => exact taskCancelled_has
      | tasksettings taskId => exact receivedSettings_has
      | timeout task => exact timerFired_has
      | settled task outcome =>
          have executes : task ∈ self.view.executions := by
            simpa [possible, view] using isPossible
          have effect {after : TaskRunner Data} {count : Nat}
              (finishes : (self.view.settle task).Finishes task count after.view)
              (unlessCancelled : (self.taskState task).status = .abortingCancelled → count = 0)
              (bound : OffersFollow environment opts self (.settled task outcome) → count ≤ 1)
              : Effect (OffersFollow environment opts self (.settled task outcome)) self.view
                  after.view :=
            .settled executes finishes (by rw [state_view]; exact unlessCancelled) bound
          refine (executionSettled_ended outcome self).mono ?_ ?_
          · rintro _ after ⟨count, finishes, unlessCancelled, bound⟩
            exact effect finishes unlessCancelled bound
          · rintro after ⟨count, finishes, unlessCancelled, bound⟩
            exact effect finishes unlessCancelled bound
      | _ => exact Has.of_same (fun _ => rfl)
  · contradiction

theorem new_sound : Sound (new : TaskRunner Data).view where
  registered _ _ found := by contradiction
  runs _ _ found := by contradiction
  executing := .nil
  started _ member := by contradiction
  unended _ _ := rfl
  cancelled _ _ := rfl

section

variable (sound : Sound self.view) (ran : run (step environment opts) self actions = some reached)

include sound ran

/-- Every state that a run comes to is sound. -/
theorem run_sound
    : Sound reached.view := by
  induction actions generalizing self with
  | nil => exact Option.some.inj ran ▸ sound
  | cons action rest ih =>
      obtain ⟨next, taken, later⟩ := Option.bind_eq_some_iff.mp ran
      exact ih (sound.step (step_effect taken)) later

/-- A cancelled task stays one, and an execution that has settled does not start again. -/
theorem run_keeps (isOther : (self.view.state task).2 ≠ .waitingForSettings)
    : (reached.view.state task).2 ≠ .waitingForSettings
      ∧ ((self.view.state task).2 = .abortingCancelled
        → (reached.view.state task).2 = .abortingCancelled)
      ∧ (task ∉ self.view.executions → task ∉ reached.view.executions) := by
  induction actions generalizing self with
  | nil =>
      cases ran
      exact ⟨isOther, id, id⟩
  | cons action rest ih =>
      obtain ⟨next, taken, later⟩ := Option.bind_eq_some_iff.mp ran
      have effect := step_effect taken
      obtain ⟨stillOther, stays⟩ := effect.status sound isOther
      obtain ⟨isOtherLast, staysLast, restsLast⟩ := ih (sound.step effect) later stillOther
      exact ⟨isOtherLast, fun isCancelled => staysLast (stays isCancelled), fun rests =>
        restsLast (effect.rests isOther rests)⟩

end

/-- The broker has cancelled the task while it was executing. -/
def CancelledWhileRunning (environment : Environment) (opts : TaskRunnerOpts)
    (actions : List (Action Data)) (task : Nat)
    : Prop :=
  ∃ before taskId reason after state,
    actions = before ++ .taskcancel taskId reason :: after
    ∧ run (step environment opts) new before = some state
    ∧ state.runningTasks.get? taskId = some task
    ∧ (state.taskState task).status = .running

def HasSettled (actions : List (Action Data)) (task : Nat) : Prop :=
  ∃ outcome, .settled task outcome ∈ actions

theorem taskCancelled_aborts (isRunning : self.runningTasks.get? taskId = some task)
    (executes : (self.taskState task).status = .running)
    : (((taskCancelled environment opts taskId).after self).view.state task).2
      = .abortingCancelled := by
  refine Exec.Ensures.after
    (fun after : TaskRunner Data => (after.view.state task).2 = .abortingCancelled) ?_
  refine Exec.Ensures.bind (Exec.Ensures.get ?_)
  rw [isRunning]
  simp only [executes]
  refine Exec.Ensures.update ?_
  have inUse : task < self.view.states.length := by
    apply View.inUse_of_status
    rw [state_view, executes]
    simp
  rw [view_setStatus, View.state_setStatus inUse, if_pos rfl]

theorem after_of_step (taken : step environment opts self action = some next)
    : (handle environment opts action).after self = next := by
  unfold step at taken
  split at taken
  · exact Option.some.inj taken
  · contradiction

section

variable (ran : run (step environment opts) new actions = some reached)

include ran

theorem cancelledWhileRunning_status
    (cancelled : CancelledWhileRunning environment opts actions task)
    : (reached.view.state task).2 = .abortingCancelled := by
  obtain ⟨before, taskId, reason, after, state, rfl, ranBefore, isRunning, executes⟩ := cancelled
  obtain ⟨middle, next, early, taken, later⟩ := exists_of_run_append ran
  cases ranBefore.symm.trans early
  have sound := run_sound new_sound ranBefore
  have aborts : (next.view.state task).2 = .abortingCancelled := by
    rw [← after_of_step taken]
    exact taskCancelled_aborts isRunning executes
  have isOther : (next.view.state task).2 ≠ .waitingForSettings := by simp [aborts]
  exact (run_keeps (sound.step (step_effect taken)) later isOther).2.1 aborts

theorem hasSettled_rests (hasSettled : HasSettled actions task)
    : (reached.view.state task).2 ≠ .waitingForSettings ∧ task ∉ reached.view.executions := by
  obtain ⟨outcome, member⟩ := hasSettled
  obtain ⟨before, after, rfl⟩ := List.append_of_mem member
  obtain ⟨state, next, early, taken, later⟩ := exists_of_run_append ran
  have sound := run_sound new_sound early
  have executes : task ∈ state.view.executions := by
    unfold step at taken
    split at taken
    · next isPossible => simpa [possible, view] using isPossible
    · contradiction
  obtain ⟨count, finishes, -⟩ := Exec.Ensures.after _
    (@executionSettled_ended Data environment opts task outcome state)
  rw [show executionSettled environment opts task outcome
    = handle environment opts (.settled task outcome) from rfl, after_of_step taken] at finishes
  have isOther : (next.view.state task).2 ≠ .waitingForSettings := by
    have same : next.view.state task = state.view.state task := by
      unfold View.state
      rw [finishes.states]
      rfl
    rw [same]
    exact (sound.started task executes).2
  have rests : task ∉ next.view.executions := by
    rw [finishes.executions]
    exact fun stays => (sound.executing.mem_erase_iff.mp stays).1 rfl
  obtain ⟨isOtherLast, -, restsLast⟩ := run_keeps (sound.step (step_effect taken)) later isOther
  exact ⟨isOtherLast, restsLast rests⟩

end

/-- As long as the offers after a result can be sent, the end of a task is sent at most once. A
task that was cancelled while it was running is never told to have ended, and one whose
execution has settled is not running.
-/
theorem ends_once (environment : Environment) (opts : TaskRunnerOpts)
    (actions : List (Action Data))
    (follow : Along (step environment opts) (OffersFollow environment opts) new actions)
    : ∀ taken, taken <+: actions → ∀ reached,
        run (step environment opts) new taken = some reached
        → (∀ task, reached.endings task ≤ 1)
          ∧ (∀ task, CancelledWhileRunning environment opts taken task → reached.endings task = 0)
          ∧ ∀ task, HasSettled taken task
            → ∀ taskId, reached.runningTasks.get? taskId ≠ some task := by
  have throughout
      : Throughout (step environment opts)
          (fun self : TaskRunner Data => Sound self.view ∧ self.view.Once) new actions := by
    refine throughout_of_preserved ?_ ⟨new_sound, fun _ => Nat.zero_le 1⟩ follow
    rintro self action next ⟨sound, once⟩ allowed taken
    have effect := step_effect taken
    exact ⟨sound.step effect, once.step sound effect allowed⟩
  intro taken isPrefix reached ran
  obtain ⟨sound, once⟩ := throughout_iff_prefix.mp throughout taken isPrefix reached ran
  refine ⟨once, fun task cancelled => ?_, fun task hasSettled taskId isRunning => ?_⟩
  · exact sound.cancelled task (cancelledWhileRunning_status ran cancelled)
  · obtain ⟨isOther, rests⟩ := hasSettled_rests ran hasSettled
    exact (sound.runs taskId task isRunning).elim isOther rests

/-- A connection on which one message cannot be sent. -/
def broken (place : Option Nat) : Environment where
  hrtime _ := 0
  randomInt _ := 0
  nanoid place := if place = 0 then "first" else if place = 1 then "second" else "third"
  sendError attempt := if some attempt = place then some .typeError else none

def oneAtOnce : TaskRunnerOpts := ⟨"javascript", 1, 60⟩

/-- A task is offered, accepted, given its settings and executed. -/
def wholeTask : List (Action Nat) :=
  [.runnerregistered, .offerInterval, .taskofferaccept "first" "task", .tasksettings "task",
    .settled 0 (.ok 7)]

theorem ends_once_whole
    : ∃ reached, run (step (broken none) oneAtOnce) new wholeTask = some reached
        ∧ reached.sent
          = [.taskoffer "javascript" "first" 5000, .taskaccepted "task", .taskdone 0 "task" 7,
            .taskoffer "javascript" "second" 5000]
        ∧ (∀ task, reached.endings task ≤ 1)
        ∧ (∀ task, CancelledWhileRunning (broken none) oneAtOnce wholeTask task
          → reached.endings task = 0)
        ∧ ∀ task, HasSettled wholeTask task
          → ∀ taskId, reached.runningTasks.get? taskId ≠ some task := by
  have follows (self : TaskRunner Nat) (action : Action Nat)
      : OffersFollow (broken none) oneAtOnce self action := by
    cases action with
    | settled task outcome =>
        cases outcome with
        | ok data => exact fun _ _ _ _ _ => rfl
        | error error => trivial
    | _ => trivial
  have follow
      : Along (step (broken none) oneAtOnce) (OffersFollow (broken none) oneAtOnce) new
          wholeTask :=
    along_of_invariant (fun self action _ _ _ => ⟨follows self action, trivial⟩)
      (show (fun _ : TaskRunner Nat => True) new from trivial)
  exact ⟨_, rfl, rfl, ends_once (broken none) oneAtOnce wholeTask follow wholeTask
    (List.prefix_refl _) _ rfl⟩

/-- The offer after the result cannot be sent, and the task that is done has an error, too. -/
theorem result_and_error
    : ∃ reached, run (step (broken (some 3)) oneAtOnce) new wholeTask = some reached
        ∧ reached.sent
          = [.taskoffer "javascript" "first" 5000, .taskaccepted "task", .taskdone 0 "task" 7,
            .taskerror 0 "task" .typeError]
        ∧ ¬∀ task, reached.endings task ≤ 1 := by
  refine ⟨_, rfl, rfl, fun once => ?_⟩
  have twice := once 0
  revert twice
  decide

end TaskRunner

end N8n.Runner
