import N8n.PythonRunner.TaskEndings

/-! What the steps of the Python task runner do to the view of its tasks. -/

namespace N8n.PythonRunner

variable {environment : Environment} {config : TaskRunnerConfig}

/-- The task that a handler is stopping, with the process it had. -/
def Handler.stops : Handler → Option (Nat × Option Nat)
  | .stopping task process _ => some (task, process)
  | _ => none

variable {self : TaskRunner} {place task : Nat}

namespace TaskRunner

def stopping (self : TaskRunner) : Option (Nat × Option Nat) := self.handler.bind Handler.stops

/-- The messages sent that tell of the end of an execution. -/
def endings (self : TaskRunner) (place : Nat) : List RunnerMessage :=
  self.sent.filter (RunnerMessage.ends place)

def view (self : TaskRunner) : View where
  tasks task_id := self.running_tasks.get? task_id
  state := self.taskState
  states := self.task_states.length
  process := self.processAt
  processes := self.processes.length
  execution place := self.executions[place]?
  executions := self.executions.length
  stopping := self.stopping
  endings := self.endings
  popped task := self.popped.count task

theorem view_send (self : TaskRunner) {message : RunnerMessage}
    (silent : ∀ place, message.ends place = false)
    : (self.send message).view = self.view := by
  have endings : (self.send message).endings = self.endings := by
    funext place
    simp [TaskRunner.endings, send, List.filter_append, silent]
  simp only [view, endings]
  rfl

theorem view_tell (self : TaskRunner) {message : RunnerMessage}
    (ends : ∀ other, message.ends other = decide (place = other))
    : (self.send message).view = self.view.tell place message := by
  have endings : (self.send message).endings
      = Function.update self.endings place (self.endings place ++ [message]) := by
    funext other
    rw [Function.update_apply]
    by_cases same : other = place
    · subst same
      simp [TaskRunner.endings, send, List.filter_append, ends]
    · simp [TaskRunner.endings, send, List.filter_append, ends, same, Ne.symm same]
  simp only [view, View.tell, endings]
  rfl

theorem taskState_setTaskState (known : task < self.task_states.length) (task_state : TaskState)
    : (self.setTaskState task task_state).taskState
      = Function.update self.taskState task task_state := by
  funext other
  rw [Function.update_apply]
  unfold taskState setTaskState
  simp only [List.getD_eq_getElem?_getD, List.getElem?_set]
  split
  · next same => simp [same.symm]
  · next differ => simp [Ne.symm differ]

theorem view_setProcess (made : place < self.processes.length) (process : Process)
    : (self.setProcess place process).view = self.view.setProcess place process := by
  have processes : (self.setProcess place process).processAt
      = Function.update self.processAt place process := by
    funext other
    rw [Function.update_apply]
    unfold processAt setProcess
    simp only [List.getD_eq_getElem?_getD, List.getElem?_set]
    split
    · next same => simp [same.symm]
    · next differ => simp [Ne.symm differ]
  simp only [view, View.setProcess, processes]
  simp only [setProcess, List.length_set]
  rfl

theorem view_setPhase {execution : Execution} (here : self.executions[place]? = some execution)
    (phase : Phase)
    : (self.setPhase place execution phase).view = self.view.setPhase place execution phase := by
  obtain ⟨known, -⟩ := List.getElem?_eq_some_iff.mp here
  have executions : (fun other => (self.setPhase place execution phase).executions[other]?)
      = Function.update (fun other => self.executions[other]?) place
          (some { execution with phase }) := by
    funext other
    rw [Function.update_apply]
    simp only [setPhase, List.getElem?_set]
    split
    · next same => simp [same.symm]
    · next differ => simp [Ne.symm differ]
  simp only [view, View.setPhase, executions]
  simp only [setPhase, List.length_set]
  rfl

theorem view_popTask {task_id : String} (found : self.running_tasks.get? task_id = some task)
    : (self.popTask task_id).view = self.view.pop task_id task := by
  have tasks : (fun other => (self.popTask task_id).running_tasks.get? other)
      = Function.update (fun other => self.running_tasks.get? other) task_id none := by
    funext other
    rw [Function.update_apply]
    exact Dict.get?_delete _ _ _
  have popped : (fun other => (self.popTask task_id).popped.count other)
      = Function.update (fun other => self.popped.count other) task
          (self.popped.count task + 1) := by
    funext other
    rw [Function.update_apply]
    by_cases same : other = task
    · subst same
      simp [popTask, found]
    · simp [popTask, found, same, Ne.symm same]
  simp only [view, View.pop, tasks, popped]
  rfl

theorem view_takeOffer (self : TaskRunner) (task_id offer_id : String)
    : (self.takeOffer task_id offer_id).view = self.view.accept task_id := by
  have tasks : (fun other => (self.takeOffer task_id offer_id).running_tasks.get? other)
      = Function.update (fun other => self.running_tasks.get? other) task_id
          (some self.task_states.length) := by
    funext other
    rw [Function.update_apply]
    exact Dict.get?_set _ _ _ _
  have states : (self.takeOffer task_id offer_id).taskState
      = Function.update self.taskState self.task_states.length
          ⟨task_id, .waitingForSettings, none⟩ := by
    funext task
    rw [Function.update_apply]
    simp only [taskState, takeOffer, List.getD_eq_getElem?_getD, List.getElem?_append]
    split
    · next inside => simp [Nat.ne_of_lt inside]
    · next outside => grind
  simp only [view, View.accept, tasks, states]
  simp only [takeOffer, List.length_append, List.length_singleton]
  rfl

theorem view_setTaskState (known : task < self.task_states.length) (task_state : TaskState)
    : (self.setTaskState task task_state).view
      = { self.view with state := Function.update self.view.state task task_state } := by
  simp only [view, taskState_setTaskState known]
  simp only [setTaskState, List.length_set]
  rfl

theorem view_addExecution (self : TaskRunner) (execution : Execution)
    : ({ self with executions := self.executions ++ [execution] } : TaskRunner).view
      = { self.view with
            execution :=
              Function.update self.view.execution self.view.executions (some execution)
            executions := self.view.executions + 1 } := by
  have executions
      : (fun other => (self.executions ++ [execution])[other]?)
        = Function.update (fun other => self.executions[other]?) self.executions.length
            (some execution) := by
    funext other
    rw [Function.update_apply, List.getElem?_append]
    grind
  simp only [view, executions, List.length_append, List.length_singleton]
  rfl

theorem view_addProcess (self : TaskRunner)
    : ({ self with processes := self.processes ++ [.new] } : TaskRunner).view
      = { self.view with processes := self.view.processes + 1 } := by
  have processes (other : Nat)
      : (self.processes ++ [Process.new]).getD other .new = self.processes.getD other .new := by
    simp only [List.getD_eq_getElem?_getD, List.getElem?_append]
    grind
  simp only [view, List.length_append, List.length_singleton]
  congr 1
  exact funext processes

theorem view_handler (self : TaskRunner) (handler : Option Handler)
    : ({ self with handler } : TaskRunner).view
      = { self.view with stopping := handler.bind Handler.stops } := rfl

theorem view_sendRemaining (self : TaskRunner) (remaining : Nat)
    : (self.sendRemaining environment remaining).1.view = self.view := by
  cases remaining <;> rfl

theorem view_sendOffers (self : TaskRunner)
    : (self.sendOffers environment config).1.view = self.view := by
  unfold sendOffers
  split
  · exact view_sendRemaining self.popExpired _
  · rfl

theorem view_nextOffer (self : TaskRunner) (sending : SendOffers)
    : (self.nextOffer environment sending).1.view = self.view :=
  (view_sendRemaining _ _).trans (view_send self (fun _ => rfl))

theorem view_continueHandler (sent : TaskRunner × Option SendOffers)
    : (continueHandler sent).view = { sent.1.view with stopping := none } := by
  obtain ⟨self, sending⟩ := sent
  cases sending <;> rfl

theorem view_stopOffers (self : TaskRunner) : self.stopOffers.view = self.view := by
  unfold stopOffers
  dsimp only
  split <;> rfl

theorem view_loopStep {next : TaskRunner} {offersLoop : OffersLoop} {happening : Happening}
    (taken : self.loopStep environment config place offersLoop happening = some next)
    : next.view = self.view :=
  loopStep_keeps view (fun _ _ => rfl) view_sendOffers view_nextOffer taken

/-- A view that stops nothing does not change where a handler comes or goes. -/
theorem view_of_idle (idle : self.stopping = none) {handler : Option Handler}
    (stops : handler.bind Handler.stops = none)
    : ({ self with handler } : TaskRunner).view = self.view := by
  rw [view_handler, stops]
  simp only [view, idle]

end TaskRunner

end N8n.PythonRunner
