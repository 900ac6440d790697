import Mathlib.Data.Prod.Lex
import N8n.PythonRunner.TaskViews

/-! How executions of Python tasks go on. An execution comes nearer to its end with each of its own
steps and is left alone by the others, and an aborting task stays so.
-/

namespace N8n.PythonRunner

variable {environment : Environment} {config : TaskRunnerConfig}

def StopPoint.rank : StopPoint → Nat
  | .begun => 7
  | .waiting => 6
  | .killed => 5

variable {happening : Happening} {process : Process} {point : StopPoint}

theorem StopPoint.rank_lt {next : StopPoint} {stopped : Process}
    (taken : point.step process happening = some (stopped, some next))
    : next.rank < point.rank := by
  unfold StopPoint.step at taken
  grind [StopPoint.rank]

/-- How far an execution is from its end, and how many print calls it has still to tell of. -/
def Phase.rank : Phase → Nat × Nat
  | .created => (10, 0)
  | .executing _ .starting => (9, 0)
  | .executing _ .joining => (8, 0)
  | .executing _ .reading => (7, 0)
  | .executing _ (.stopping point) => (point.rank, 0)
  | .executed _ => (4, 0)
  | .printing _ rest _ => (3, rest.length)
  | .sendingDone _ => (2, 0)
  | .sendingError _ => (1, 0)
  | .ended => (0, 0)

def Phase.Nearer (after before : Phase) : Prop :=
  Prod.Lex (· < ·) (· < ·) after.rank before.rank

theorem Phase.nearer_of_lt {after before : Phase} (less : after.rank.1 < before.rank.1)
    : after.Nearer before := by
  unfold Phase.Nearer
  rw [← Prod.mk.eta (p := after.rank), ← Prod.mk.eta (p := before.rank)]
  exact .left _ _ less

/-- The steps cannot go on for ever. -/
theorem Phase.nearer_wellFounded : WellFounded Phase.Nearer :=
  InvImage.wf Phase.rank (WellFounded.prod_lex Nat.lt_wfRel.wf Nat.lt_wfRel.wf)

def Happening.isFailure : Happening → Bool
  | .fails _ => true
  | _ => false

/-- Stopping waits for nothing but the end of a killed process. -/
theorem StopPoint.canGoOn (point : StopPoint) (process : Process)
    : (∃ happening : Happening, happening.isFailure = false
        ∧ (point.step process happening).isSome = true)
      ∨ point = .killed ∧ process.isAlive = true := by
  cases point with
  | begun =>
      refine .inl ⟨.goesOn, rfl, ?_⟩
      cases alive : process.isAlive <;> simp [StopPoint.step, alive]
  | waiting =>
      cases alive : process.isAlive with
      | true => exact .inl ⟨.timesOut, rfl, by simp [StopPoint.step, alive]⟩
      | false => exact .inl ⟨.goesOn, rfl, by simp [StopPoint.step, alive]⟩
  | killed =>
      cases alive : process.isAlive with
      | true => exact .inr ⟨rfl, rfl⟩
      | false => exact .inl ⟨.goesOn, rfl, by simp [StopPoint.step, alive]⟩

theorem ExecutePoint.canGoOn (str : Json → String) (task_timeout : Int) (continue_on_fail : Bool)
    {point : ExecutePoint} (started : point ≠ .starting → process.started = true)
    : (∃ happening : Happening, happening.isFailure = false
        ∧ (point.step str task_timeout continue_on_fail process happening).isSome = true)
      ∨ point = .stopping .killed ∧ process.isAlive = true := by
  cases point with
  | starting => exact .inl ⟨.goesOn, rfl, rfl⟩
  | joining =>
      cases exited : process.exitcode with
      | none =>
          have alive : process.isAlive = true := by
            simp [Process.isAlive, exited, started]
          exact .inl ⟨.timesOut, rfl, by simp [ExecutePoint.step, alive]⟩
      | some exitcode =>
          exact .inl ⟨.goesOn, rfl, by simp [ExecutePoint.step, joined, exited]⟩
  | stopping point =>
      rcases point.canGoOn process with ⟨happening, succeeds, goes⟩ | ⟨rfl, alive⟩
      · exact .inl ⟨happening, succeeds, by simpa [ExecutePoint.step] using goes⟩
      · exact .inr ⟨rfl, alive⟩
  | reading => exact .inl ⟨.reads none, rfl, rfl⟩

def Action.drives (place : Nat) : Action → Bool
  | .execution other _ => other = place
  | _ => false

def Action.drivesHandler : Action → Bool
  | .handler _ => true
  | _ => false

variable {place : Nat}

theorem nearer_joined {str : Json → String} {continue_on_fail : Bool} {progress : Progress}
    (took : joined str continue_on_fail process = some progress)
    : (progress.phase place).rank.1 < 8 := by
  obtain ⟨code, -, rfl⟩ := Option.map_eq_some_iff.mp took
  split <;> simp [Progress.phase, Phase.rank]

/-- Each step of the thread brings the execution nearer to its end. -/
theorem nearer_executing {str : Json → String} {task_timeout : Int} {continue_on_fail : Bool}
    {point : ExecutePoint} {stepped : Process} {progress : Progress}
    (taken
      : point.step str task_timeout continue_on_fail process happening
        = some (stepped, progress))
    : (progress.phase place).Nearer (.executing place point) := by
  apply Phase.nearer_of_lt
  cases point with
  | starting =>
      cases happening with
      | goesOn =>
          cases taken
          exact Nat.lt_succ_self 8
      | fails e =>
          cases taken
          simp [Progress.phase, Phase.rank]
      | _ => contradiction
  | joining =>
      cases happening with
      | goesOn =>
          obtain ⟨progress, took, same⟩ := Option.map_eq_some_iff.mp taken
          cases same
          exact nearer_joined took
      | timesOut =>
          simp only [ExecutePoint.step] at taken
          split at taken
          · cases taken
            exact Nat.lt_succ_self 7
          · obtain ⟨progress, took, same⟩ := Option.map_eq_some_iff.mp taken
            cases same
            exact nearer_joined took
      | _ => contradiction
  | stopping point =>
      simp only [ExecutePoint.step, Option.map_eq_some_iff] at taken
      obtain ⟨⟨stopped, next⟩, stepped, same⟩ := taken
      cases next with
      | none =>
          cases same
          cases point <;> simp [Progress.phase, Phase.rank, StopPoint.rank]
      | some next =>
          cases same
          exact StopPoint.rank_lt stepped
  | reading =>
      cases happening with
      | reads pipe_reader =>
          simp only [ExecutePoint.step] at taken
          split at taken
          · cases taken
            simp [Progress.phase, Phase.rank]
          · cases taken
            simp [Progress.phase, Phase.rank]
      | _ => contradiction

variable {self next : TaskRunner} {execution : Execution} {action : Action} {task : Nat}

namespace TaskRunner

/-- The step of an execution changes its phase, in its place among the executions. -/
def Nears (self next : TaskRunner) (place : Nat) (execution : Execution) : Prop :=
  ∃ phase, next.executions = self.executions.set place { execution with phase }
    ∧ phase.Nearer execution.phase

theorem nears_sendPrinted (self : TaskRunner) (place : Nat) (execution : Execution)
    (print_args : List Json) (result : Json)
    (nearer
      : ∀ print_args_per_call rest, print_args = print_args_per_call :: rest
        → (Phase.printing print_args_per_call rest result).Nearer execution.phase)
    (done : (Phase.sendingDone result).Nearer execution.phase)
    : Nears self (self.sendPrinted place execution print_args result) place execution := by
  cases print_args with
  | nil => exact ⟨_, rfl, done⟩
  | cons print_args_per_call rest => exact ⟨_, rfl, nearer _ _ rfl⟩

theorem nears_executionStep
    (taken : self.executionStep environment config place execution execution.phase happening
      = some next)
    : Nears self next place execution := by
  cases phase : execution.phase with
  | created =>
      have started (failure : Option TaskException)
          : Nears self (self.startExecution environment place execution failure) place
              execution := by
        unfold startExecution
        split
        all_goals exact ⟨_, rfl, Phase.nearer_of_lt (by simp [phase, Phase.rank])⟩
      rw [phase] at taken
      cases happening with
      | goesOn => exact Option.some.inj taken ▸ started none
      | fails e => exact Option.some.inj taken ▸ started (some e)
      | _ => contradiction
  | executing process point =>
      rw [phase] at taken
      simp only [executionStep, Option.map_eq_some_iff] at taken
      obtain ⟨⟨stepped, progress⟩, took, rfl⟩ := taken
      exact ⟨_, rfl, phase ▸ nearer_executing took⟩
  | executed outcome =>
      rw [phase] at taken
      cases happening with
      | goesOn =>
          cases outcome with
          | ok executed =>
              cases taken
              refine nears_sendPrinted self place execution _ _ (fun _ _ _ => ?_) ?_
              · exact Phase.nearer_of_lt (by simp [phase, Phase.rank])
              · exact Phase.nearer_of_lt (by simp [phase, Phase.rank])
          | error e =>
              cases taken
              exact ⟨_, rfl, Phase.nearer_of_lt (by simp [phase, Phase.rank])⟩
      | _ => cases outcome <;> contradiction
  | printing print_args rest result =>
      rw [phase] at taken
      cases happening with
      | goesOn =>
          cases taken
          refine nears_sendPrinted _ place execution rest result ?_ ?_
          · rintro print_args_per_call shorter rfl
            rw [phase]
            exact .right _ (Nat.lt_succ_self _)
          · exact Phase.nearer_of_lt (by simp [phase, Phase.rank])
      | fails e =>
          cases taken
          exact ⟨_, rfl, Phase.nearer_of_lt (by simp [phase, Phase.rank])⟩
      | _ => contradiction
  | ended =>
      rw [phase] at taken
      cases happening <;> contradiction
  | _ =>
      rw [phase] at taken
      cases happening with
      | timesOut | reads => contradiction
      | _ =>
          cases taken
          exact ⟨_, rfl, Phase.nearer_of_lt (by simp [phase, Phase.rank])⟩

/-! ### Steps that leave an execution alone -/

theorem execution_of_view (same : next.view = self.view) (place : Nat)
    : next.executions[place]? = self.executions[place]? :=
  congrFun (congrArg View.execution same) place

theorem execution_handleMessage (here : self.executions[place]? = some execution)
    (message : BrokerMessage)
    : (self.handleMessage environment config message).executions[place]? = some execution := by
  cases message with
  | taskofferaccept task_id offer_id =>
      simp only [handleMessage, handleTaskOfferAccept]
      split
      · exact here
      · split <;> exact here
  | tasksettings task_id settings =>
      simp only [handleMessage, handleTaskSettings]
      split
      · exact here
      · split
        · exact here
        · obtain ⟨known, -⟩ := List.getElem?_eq_some_iff.mp here
          exact (List.getElem?_append_left known).trans here
  | taskcancel task_id reason =>
      simp only [handleMessage, handleTaskCancel]
      split
      · exact here
      · split
        · have offered
              : ((self.popTask task_id).sendOffers environment config).1.view
                = (self.popTask task_id).view :=
            view_sendOffers (self.popTask task_id)
          have same := congrFun (congrArg View.execution
            (view_continueHandler ((self.popTask task_id).sendOffers environment config))) place
          exact same.trans ((execution_of_view offered place).trans here)
        · exact here
        · exact here
  | drain => exact (execution_of_view (view_stopOffers self) place).trans here
  | _ => exact here

theorem execution_handlerStep {handler : Handler}
    (taken : self.handlerStep environment handler happening = some next) (place : Nat)
    : next.executions[place]? = self.executions[place]? :=
  handlerStep_keeps (fun self => self.executions[place]?) (fun _ _ => rfl) (fun _ _ => rfl)
    (fun self sending => execution_of_view (view_nextOffer self sending) place)
    (fun _ _ _ => rfl) taken

/-- An execution comes nearer to its end in its own steps, and stays as it is in the others. -/
theorem execution_step (here : self.executions[place]? = some execution)
    (taken : self.step environment config action = some next)
    : ∃ phase, next.executions[place]? = some { execution with phase }
        ∧ if action.drives place then phase.Nearer execution.phase
          else phase = execution.phase := by
  have same (kept : next.executions[place]? = self.executions[place]?)
      (other : action.drives place = false)
      : ∃ phase, next.executions[place]? = some { execution with phase }
          ∧ if action.drives place then phase.Nearer execution.phase
            else phase = execution.phase :=
    ⟨execution.phase, kept.trans here, by simp [other]⟩
  cases action with
  | clock now =>
      cases taken
      exact same rfl rfl
  | receive message =>
      obtain ⟨-, rfl⟩ := Option.ite_some_none_eq_some.mp taken
      exact same ((execution_handleMessage here message).trans here.symm) rfl
  | handler happening =>
      obtain ⟨handler, -, moved⟩ := Option.bind_eq_some_iff.mp taken
      exact same (execution_handlerStep moved place) rfl
  | offersLoop other happening =>
      obtain ⟨offersLoop, -, moved⟩ := Option.bind_eq_some_iff.mp taken
      exact same (execution_of_view (view_loopStep moved) place) rfl
  | execution other happening =>
      obtain ⟨driven, there, moved⟩ := Option.bind_eq_some_iff.mp taken
      obtain ⟨phase, executions, nearer⟩ := nears_executionStep moved
      by_cases own : other = place
      · subst own
        cases there.symm.trans here
        obtain ⟨known, -⟩ := List.getElem?_eq_some_iff.mp here
        refine ⟨phase, ?_, by simpa [Action.drives] using nearer⟩
        rw [executions]
        simp [known]
      · refine same ?_ (by simp [Action.drives, own])
        rw [executions, List.getElem?_set_ne own]
  | exits process exitcode =>
      obtain ⟨-, rfl⟩ := Option.ite_some_none_eq_some.mp taken
      exact same rfl rfl
  | disconnects =>
      obtain ⟨-, rfl⟩ := Option.ite_some_none_eq_some.mp taken
      exact same (execution_of_view (view_stopOffers self) place) rfl

/-! ### States of tasks -/

/-- How the state of a task changes: it is given settings with an execution, or aborted. -/
inductive Changes (self next : TaskRunner) (task : Nat) : Prop
  | stays (same : (next.taskState task).status = (self.taskState task).status)
  | given (waiting : (self.taskState task).status = .waitingForSettings)
      (running : (next.taskState task).status = .running)
      (executes : ∃ execution ∈ next.executions, execution.task = task)
  | aborts (running : (self.taskState task).status = .running)
      (aborting : (next.taskState task).status = .aborting)

theorem changes_of_view (same : next.view.state = self.view.state) (task : Nat)
    : Changes self next task :=
  .stays (congrArg TaskState.status (congrFun same task))

theorem changes_setTaskState (known : task < self.task_states.length) {task_state : TaskState}
    (kept : task_state.status = (self.taskState task).status) (other : Nat)
    : ((self.setTaskState task task_state).taskState other).status
      = (self.taskState other).status := by
  rw [taskState_setTaskState known, Function.update_apply]
  split
  · next same => rw [same, kept]
  · rfl

section

variable {self next : TaskRunner} (sound : self.view.Sound)
include sound

theorem changes_handleMessage (message : BrokerMessage) (task : Nat)
    : Changes self (self.handleMessage environment config message) task := by
  cases message with
  | taskofferaccept task_id offer_id =>
      simp only [handleMessage, handleTaskOfferAccept]
      split
      · exact .stays rfl
      · split
        · exact .stays rfl
        · refine .stays ?_
          have state := congrFun (congrArg View.state (view_takeOffer self task_id offer_id)) task
          change ((self.takeOffer task_id offer_id).taskState task) = _ at state
          change ((self.takeOffer task_id offer_id).taskState task).status = _
          rw [state]
          simp only [View.accept, Function.update_apply]
          split
          · next new => exact new ▸ (sound.unknown _ (Nat.le_refl _)).1.symm
          · rfl
  | tasksettings task_id settings =>
      simp only [handleMessage, handleTaskSettings]
      split
      · exact .stays rfl
      · next given found =>
          split
          · exact .stays rfl
          · next waiting =>
              have known := (sound.running task_id given found).1
              have states := taskState_setTaskState known
                { self.taskState given with status := .running }
              by_cases same : task = given
              · subst same
                refine .given (by simpa using waiting) ?_
                  ⟨⟨task_id, settings, task, .created⟩, by simp, rfl⟩
                exact (congrArg TaskState.status (congrFun states task)).trans (by simp)
              · exact .stays ((congrArg TaskState.status (congrFun states task)).trans
                  (by simp [same]))
  | taskcancel task_id reason =>
      simp only [handleMessage, handleTaskCancel]
      split
      · exact .stays rfl
      · next cancelled found =>
          split
          · refine changes_of_view ?_ task
            rw [view_continueHandler, view_sendOffers]
            rfl
          · next running =>
              have known := (sound.running task_id cancelled found).1
              have states := taskState_setTaskState known
                { self.taskState cancelled with status := .aborting }
              by_cases same : task = cancelled
              · subst same
                exact .aborts running
                  ((congrArg TaskState.status (congrFun states task)).trans (by simp))
              · exact .stays ((congrArg TaskState.status (congrFun states task)).trans
                  (by simp [same]))
          · exact .stays rfl
  | drain =>
      exact .stays
        (congrArg TaskState.status (congrFun (congrArg View.state (view_stopOffers self)) task))
  | _ => exact .stays rfl

omit sound in
theorem changes_handlerStep {handler : Handler}
    (taken : self.handlerStep environment handler happening = some next) (task : Nat)
    : Changes self next task :=
  .stays (handlerStep_keeps (fun self => (self.taskState task).status) (fun _ _ => rfl)
    (fun _ _ => rfl)
    (fun self sending => congrArg TaskState.status
      (congrFun (congrArg View.state (view_nextOffer self sending)) task))
    (fun _ _ _ => rfl) taken)

/-- Only the process of a task is set by its execution. -/
theorem changes_executionStep
    (taken : self.executionStep environment config place execution execution.phase happening
      = some next) (task : Nat)
    : Changes self next task := by
  have started (failure : Option TaskException)
      : Changes self (self.startExecution environment place execution failure) task := by
    unfold startExecution
    split
    · exact .stays rfl
    · exact .stays rfl
    · next created found =>
        have known := (sound.running execution.task_id created found).1
        have kept
            : ({ self.taskState created with
                  process := some self.processes.length } : TaskState).status
              = (self.taskState created).status := rfl
        exact .stays (changes_setTaskState known kept task)
  unfold executionStep at taken
  split at taken
  · exact Option.some.inj taken ▸ started none
  · next e _ => exact Option.some.inj taken ▸ started (some e)
  · obtain ⟨⟨stepped, progress⟩, -, rfl⟩ := Option.map_eq_some_iff.mp taken
    exact .stays rfl
  · cases taken
    refine .stays ?_
    unfold sendPrinted
    split <;> rfl
  · cases taken
    exact .stays rfl
  · cases taken
    refine .stays ?_
    unfold sendPrinted
    split <;> rfl
  · cases taken
    exact .stays rfl
  · cases taken
    exact .stays rfl
  · cases taken
    exact .stays rfl
  · cases taken
    exact .stays rfl
  · cases taken
    exact .stays rfl
  · contradiction

theorem changes_step (taken : self.step environment config action = some next) (task : Nat)
    : Changes self next task := by
  cases action with
  | clock now =>
      cases taken
      exact .stays rfl
  | receive message =>
      obtain ⟨-, rfl⟩ := Option.ite_some_none_eq_some.mp taken
      exact changes_handleMessage sound message task
  | handler happening =>
      obtain ⟨handler, -, moved⟩ := Option.bind_eq_some_iff.mp taken
      exact changes_handlerStep moved task
  | offersLoop place happening =>
      obtain ⟨offersLoop, -, moved⟩ := Option.bind_eq_some_iff.mp taken
      exact changes_of_view (congrArg View.state (view_loopStep moved)) task
  | execution place happening =>
      obtain ⟨execution, -, moved⟩ := Option.bind_eq_some_iff.mp taken
      exact changes_executionStep sound moved task
  | exits process exitcode =>
      obtain ⟨-, rfl⟩ := Option.ite_some_none_eq_some.mp taken
      exact .stays rfl
  | disconnects =>
      obtain ⟨-, rfl⟩ := Option.ite_some_none_eq_some.mp taken
      exact changes_of_view (congrArg View.state (view_stopOffers self)) task

end

/-! ### What can go on -/

/-- An execution that has not ended can go on, unless it waits for the end of a process that it
has killed.
-/
theorem execution_canGoOn (sound : self.view.Sound)
    (here : self.executions[place]? = some execution) (unended : execution.phase.isEnded = false)
    : (∃ happening : Happening, happening.isFailure = false
        ∧ (self.step environment config (.execution place happening)).isSome = true)
      ∨ ∃ process, execution.phase = .executing process (.stopping .killed)
          ∧ (self.processAt process).isAlive = true := by
  have moves (happening : Happening)
      : self.step environment config (.execution place happening)
        = self.executionStep environment config place execution execution.phase happening := by
    simp [step, here]
  simp only [moves]
  cases phase : execution.phase with
  | executing process point =>
      have has := (sound.follows place execution here).process
      rw [phase] at has
      have runs : point ≠ .starting → (self.processAt process).started = true := has.2
      have thread :=
        ExecutePoint.canGoOn environment.str config.task_timeout
          execution.settings.continue_on_fail runs
      rcases thread with ⟨happening, succeeds, goes⟩ | ⟨rfl, alive⟩
      · exact .inl ⟨happening, succeeds, by simpa [executionStep] using goes⟩
      · exact .inr ⟨process, rfl, alive⟩
  | executed outcome =>
      cases outcome with
      | ok | error => exact .inl ⟨.goesOn, rfl, rfl⟩
  | ended =>
      rw [phase] at unended
      contradiction
  | _ => exact .inl ⟨.goesOn, rfl, rfl⟩

theorem stopping_canGoOn {process : Option Nat}
    (here : self.handler = some (.stopping task process point))
    : (∃ happening : Happening, happening.isFailure = false
        ∧ (self.step environment config (.handler happening)).isSome = true)
      ∨ ∃ killed, process = some killed ∧ point = .killed
          ∧ (self.processAt killed).isAlive = true := by
  have moves (happening : Happening)
      : self.step environment config (.handler happening)
        = self.handlerStep environment (.stopping task process point) happening := by
    simp [step, here]
  simp only [moves]
  cases process with
  | none => exact .inl ⟨.goesOn, rfl, rfl⟩
  | some process =>
      rcases point.canGoOn (self.processAt process) with ⟨happening, succeeds, goes⟩ | ⟨rfl, alive⟩
      · exact .inl ⟨happening, succeeds, by simpa [handlerStep] using goes⟩
      · exact .inr ⟨process, rfl, rfl, alive⟩

/-- Only the handler itself goes on from where it stops a process. -/
theorem handler_executionStep
    (taken : self.executionStep environment config place execution execution.phase happening
      = some next)
    : next.handler = self.handler := by
  unfold executionStep at taken
  split at taken
  · cases taken
    unfold startExecution
    split <;> rfl
  · cases taken
    unfold startExecution
    split <;> rfl
  · obtain ⟨⟨stepped, progress⟩, -, rfl⟩ := Option.map_eq_some_iff.mp taken
    rfl
  · cases taken
    unfold sendPrinted
    split <;> rfl
  · cases taken
    rfl
  · cases taken
    unfold sendPrinted
    split <;> rfl
  all_goals
    first
    | cases taken
      rfl
    | contradiction

theorem handler_loopStep {offersLoop : OffersLoop}
    (taken : self.loopStep environment config place offersLoop happening = some next)
    : next.handler = self.handler := by
  have remaining (self : TaskRunner) (count : Nat)
      : (self.sendRemaining environment count).1.handler = self.handler := by
    cases count <;> rfl
  have offered (self : TaskRunner)
      : (self.sendOffers environment config).1.handler = self.handler := by
    unfold sendOffers
    split
    · exact remaining self.popExpired _
    · rfl
  exact loopStep_keeps TaskRunner.handler (fun _ _ => rfl) offered (fun _ _ => remaining _ _)
    taken

/-- A handler that stops a process comes nearer to its end in its own steps. -/
theorem stopping_step {process : Option Nat}
    (here : self.handler = some (.stopping task process point))
    (taken : self.step environment config action = some next)
    : if action.drivesHandler then
        next.handler = none
          ∨ ∃ later, next.handler = some (.stopping task process later)
              ∧ later.rank < point.rank
      else next.handler = self.handler := by
  cases action with
  | clock now =>
      cases taken
      rfl
  | handler happening =>
      obtain ⟨handler, found, moved⟩ := Option.bind_eq_some_iff.mp taken
      cases here.symm.trans found
      cases process with
      | none =>
          cases happening with
          | goesOn =>
              cases moved
              exact .inl rfl
          | _ => contradiction
      | some process =>
          simp only [handlerStep, Option.map_eq_some_iff] at moved
          obtain ⟨⟨stopped, following⟩, stepped, rfl⟩ := moved
          cases following with
          | none => exact .inl rfl
          | some later => exact .inr ⟨later, rfl, StopPoint.rank_lt stepped⟩
  | offersLoop place happening =>
      obtain ⟨offersLoop, -, moved⟩ := Option.bind_eq_some_iff.mp taken
      exact handler_loopStep moved
  | execution place happening =>
      obtain ⟨execution, -, moved⟩ := Option.bind_eq_some_iff.mp taken
      exact handler_executionStep moved
  | exits process exitcode =>
      obtain ⟨-, rfl⟩ := Option.ite_some_none_eq_some.mp taken
      rfl
  | _ => simp [step, here] at taken

end TaskRunner

end N8n.PythonRunner
