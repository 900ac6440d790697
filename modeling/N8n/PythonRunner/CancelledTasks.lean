import N8n.Library.Runs
import N8n.PythonRunner.ExecutionProgress

/-! Cancelled Python tasks over whole runs. A task that is cancelled while its process runs ends in
an error, and every execution tells of its end once.
-/

namespace N8n.PythonRunner

open N8n.Runs

variable {environment : Environment} {config : TaskRunnerConfig}

/-! ### Threads -/

variable {happening : Happening}

/-- Stopping does nothing to a process but to signal it. -/
theorem StopPoint.step_process {point : StopPoint} {process stopped : Process}
    {next : Option StopPoint} (taken : point.step process happening = some (stopped, next))
    : stopped = process ∨ ∃ signal, stopped = process.signal signal := by
  unfold StopPoint.step at taken
  grind

/-- Stopping ends with a dead process, but for an exception. -/
theorem StopPoint.step_ends {point : StopPoint} {process stopped : Process}
    (taken : point.step process happening = some (stopped, none))
    : process.isAlive = false ∨ ∃ e, happening = .fails e := by
  unfold StopPoint.step at taken
  grind

variable {place : Nat}

section

variable {str : Json → String} {task_timeout : Int} {continue_on_fail : Bool}
  {point : ExecutePoint} {process stepped : Process} {happening : Happening}
  {progress : Progress}

section

variable
  (taken : point.step str task_timeout continue_on_fail process happening = some (stepped, progress))

include taken

/-- A process starts in the first step of its thread, and is only signalled later on. -/
theorem ExecutePoint.step_process
    : point = .starting ∧ stepped = { process with started := true }
      ∨ (point = .starting → ∃ outcome, progress = .returns outcome)
        ∧ (stepped = process ∨ ∃ signal, stepped = process.signal signal) := by
  unfold ExecutePoint.step at taken
  split at taken
  all_goals grind [Option.map_eq_some_iff, StopPoint.step_process]

theorem ExecutePoint.step_exitcode
    : stepped.exitcode = process.exitcode := by
  rcases ExecutePoint.step_process taken with ⟨-, rfl⟩ | ⟨-, rfl | ⟨signal, rfl⟩⟩ <;> rfl

theorem ExecutePoint.step_has {started : Nat → Bool}
    (has : point ≠ .starting → process.started = true) (here : started place = stepped.started)
    : (progress.phase place).Has (some place) started := by
  cases progress with
  | returns outcome => trivial
  | reaches next =>
      refine ⟨rfl, fun _ => ?_⟩
      rw [here]
      rcases ExecutePoint.step_process taken with ⟨-, rfl⟩ | ⟨returns, same⟩
      · rfl
      · have runs : process.started = true := by
          refine has (fun starting => ?_)
          obtain ⟨outcome, other⟩ := returns starting
          contradiction
        rcases same with rfl | ⟨signal, rfl⟩
        · exact runs
        · exact runs

end

theorem joined_heeds {exitcode : Nat → Option Int} (took : joined str false process = some progress)
    (fails : process.exitcode ≠ some 0)
    : (progress.phase place).heeds false exitcode = true := by
  unfold joined at took
  obtain ⟨code, exited, rfl⟩ := Option.map_eq_some_iff.mp took
  have nonzero : code ≠ 0 := fun zero => fails (zero ▸ exited)
  unfold exitException
  split_ifs <;> rfl

/-- The thread of a task that was cancelled in time ends in an error. -/
theorem ExecutePoint.step_heeds {exitcode : Nat → Option Int}
    (taken
      : point.step str task_timeout continue_on_fail process happening
        = some (stepped, progress))
    (heeds : (Phase.executing place point).heeds continue_on_fail exitcode = true)
    (here : exitcode place = process.exitcode)
    : (progress.phase place).heeds continue_on_fail exitcode = true := by
  cases point with
  | joining =>
      simp only [Phase.heeds, Bool.and_eq_true, Bool.not_eq_true', decide_eq_true_eq] at heeds
      obtain ⟨raises, fails⟩ := heeds
      subst raises
      rw [here] at fails
      cases happening with
      | goesOn =>
          obtain ⟨progress, took, same⟩ := Option.map_eq_some_iff.mp taken
          cases same
          exact joined_heeds took fails
      | timesOut =>
          simp only [ExecutePoint.step] at taken
          split at taken
          · cases taken
            rfl
          · obtain ⟨progress, took, same⟩ := Option.map_eq_some_iff.mp taken
            cases same
            exact joined_heeds took fails
      | _ => contradiction
  | stopping point =>
      simp only [Phase.heeds, Bool.not_eq_true'] at heeds
      subst heeds
      simp only [ExecutePoint.step, Option.map_eq_some_iff] at taken
      obtain ⟨⟨stopped, next⟩, -, same⟩ := taken
      cases next with
      | _ =>
          cases same
          rfl
  | _ => contradiction

end

variable {self next : TaskRunner} {action : Action}

namespace TaskRunner

/-- The broker does not use the id of a task twice. A cancel of a running task finds its process
alive, or its error on the way, and its failure is not turned into a result; a process that an
aborting task waits for does not exit with success; what stops a process ends when the process is
dead; and the message of an error can be sent.
-/
def Heeded (self : TaskRunner) : Action → Prop
  | .receive (.taskofferaccept task_id _) =>
      ∀ task_state ∈ self.task_states, task_state.task_id ≠ task_id
  | .receive (.taskcancel task_id _) =>
      match self.running_tasks.get? task_id with
      | some task =>
          (self.taskState task).status = .running
            → ∀ execution ∈ self.executions, execution.task = task
              → self.view.heeds execution = true
      | none => True
  | .exits process exitcode =>
      ∀ execution ∈ self.executions, (self.taskState execution.task).status = .aborting
        → execution.phase.joins process = true → exitcode ≠ 0
  | .handler (.fails _) =>
      match self.stopping with
      | some (_, some process) => (self.processAt process).isAlive = false
      | _ => True
  | .execution place (.fails _) =>
      match self.executions[place]? with
      | some execution => execution.phase.isSendingError = false
      | none => True
  | _ => True

instance (self : TaskRunner) (action : Action) : Decidable (self.Heeded action) :=
  match action with
  | .clock _ | .offersLoop _ _ | .disconnects => isTrue trivial
  | .receive message =>
      match message with
      | .taskofferaccept task_id _ =>
          inferInstanceAs
            (Decidable (∀ task_state ∈ self.task_states, task_state.task_id ≠ task_id))
      | .taskcancel task_id _ =>
          match found : self.running_tasks.get? task_id with
          | some task =>
              decidable_of_iff
                ((self.taskState task).status = .running
                  → ∀ execution ∈ self.executions, execution.task = task
                    → self.view.heeds execution = true)
                (by simp only [Heeded, found])
          | none => isTrue (by simp only [Heeded, found])
      | .inforequest | .runnerregistered | .tasksettings _ _ | .rpcresponse | .drain =>
          isTrue trivial
  | .exits process exitcode =>
      inferInstanceAs
        (Decidable
          (∀ execution ∈ self.executions, (self.taskState execution.task).status = .aborting
            → execution.phase.joins process = true → exitcode ≠ 0))
  | .handler happening =>
      match happening with
      | .fails _ =>
          match found : self.stopping with
          | some (_, some process) =>
              decidable_of_iff ((self.processAt process).isAlive = false)
                (by simp only [Heeded, found])
          | some (_, none) => isTrue (by simp only [Heeded, found])
          | none => isTrue (by simp only [Heeded, found])
      | .goesOn | .timesOut | .reads _ => isTrue trivial
  | .execution place happening =>
      match happening with
      | .fails _ =>
          match found : self.executions[place]? with
          | some execution =>
              decidable_of_iff (execution.phase.isSendingError = false)
                (by simp only [Heeded, found])
          | none => isTrue (by simp only [Heeded, found])
      | .goesOn | .timesOut | .reads _ => isTrue trivial

/-! ### Broker messages -/

section

variable {self : TaskRunner} (sound : self.view.Sound) (idle : self.handler = none)
include sound idle

theorem sound_reply (reply : Reply) : (self.reply reply).view.Sound := by
  have same : (self.reply reply).view = self.view :=
    view_of_idle (by simp [stopping, idle]) rfl
  rw [same]
  exact sound

theorem sound_accept {task_id : String} (offer_id : String)
    (fresh : ∀ task_state ∈ self.task_states, task_state.task_id ≠ task_id)
    : (self.handleTaskOfferAccept config task_id offer_id).view.Sound := by
  unfold handleTaskOfferAccept
  split
  · exact sound_reply sound idle _
  · split
    · exact sound_reply sound idle _
    · have accepted : (self.takeOffer task_id offer_id).view.Sound := by
        rw [view_takeOffer]
        refine sound.accept (fun task inUse => ?_)
        have known : task < self.task_states.length := inUse
        have member : self.taskState task ∈ self.task_states := by
          have here : self.taskState task = self.task_states.get ⟨task, known⟩ := by
            simp [taskState, List.getD_eq_getElem?_getD, List.getElem?_eq_getElem known]
          rw [here]
          exact List.getElem_mem known
        exact fresh _ member
      exact sound_reply accepted idle _

omit idle in
theorem sound_settings (task_id : String) (settings : TaskSettings)
    : (self.handleTaskSettings task_id settings).view.Sound := by
  unfold handleTaskSettings
  split
  · exact sound
  · next task found =>
      dsimp only
      split
      · exact sound
      · next given =>
          have waiting : (self.taskState task).status = .waitingForSettings := by
            simpa using given
          have known := (sound.running task_id task found).1
          have same
              : ({ self.setTaskState task { self.taskState task with status := .running } with
                    executions := self.executions ++ [⟨task_id, settings, task, .created⟩] }
                    : TaskRunner).view
                = self.view.give task_id task settings := by
            refine (view_addExecution _ _).trans ?_
            rw [view_setTaskState known]
            rfl
          rw [same]
          exact sound.give settings found waiting

theorem sound_cancel (task_id reason : String)
    (heeded : self.Heeded (.receive (.taskcancel task_id reason)))
    : (self.handleTaskCancel environment config task_id).view.Sound := by
  have unstopping : self.stopping = none := by simp [stopping, idle]
  unfold handleTaskCancel
  split
  · exact sound
  · next task found =>
      have known := (sound.running task_id task found).1
      dsimp only
      split
      · next waiting =>
          have popped := sound.pop found waiting
          rw [view_continueHandler, view_sendOffers, view_popTask found]
          have none : (self.view.pop task_id task).stopping = none := unstopping
          rw [← none]
          exact popped
      · next running =>
          simp only [Heeded, found] at heeded
          have same
              : ({ self.setTaskState task { self.taskState task with status := .aborting } with
                    handler := some (.stopping task (self.taskState task).process .begun) }
                    : TaskRunner).view
                = self.view.abort task := by
            rw [view_handler, view_setTaskState known]
            rfl
          rw [same]
          refine sound.abort unstopping found ?_
          intro place execution here sameTask
          exact heeded running execution (List.mem_of_getElem? here) sameTask
      · exact sound

theorem sound_receive (message : BrokerMessage) (heeded : self.Heeded (.receive message))
    : (self.handleMessage environment config message).view.Sound := by
  cases message with
  | inforequest => exact sound_reply sound idle _
  | taskofferaccept task_id offer_id => exact sound_accept sound idle offer_id heeded
  | tasksettings task_id settings => exact sound_settings sound task_id settings
  | taskcancel task_id reason => exact sound_cancel sound idle task_id reason heeded
  | drain =>
      have same : ({ self.stopOffers with handler := some .draining } : TaskRunner).view
          = self.view := by
        rw [view_handler, view_stopOffers]
        simp [view, stopping, idle, Handler.stops]
      exact same ▸ sound
  | _ => exact sound

end

/-! ### Coroutines -/

section

variable {self next : TaskRunner} (sound : self.view.Sound)
include sound

/-- What a handler stops is the process of an aborting task, and it ends with a dead process. -/
theorem sound_handler {handler : Handler} (here : self.handler = some handler)
    (heeded : self.Heeded (.handler happening))
    (taken : self.handlerStep environment handler happening = some next)
    : next.view.Sound := by
  have ended (idle : self.stopping = none)
      : ({ self with handler := none } : TaskRunner).view.Sound := by
    have same : ({ self with handler := none } : TaskRunner).view = self.view :=
      view_of_idle idle rfl
    exact same ▸ sound
  cases handler with
  | replying reply =>
      have idle : self.stopping = none := by simp [stopping, here, Handler.stops]
      cases happening with
      | goesOn =>
          cases taken
          have silent (place : Nat) : reply.message.ends place = false := by cases reply <;> rfl
          have sent := view_send { self with handler := none } silent
          exact sent ▸ ended idle
      | fails e =>
          cases taken
          exact ended idle
      | _ => contradiction
  | sendingOffers sending =>
      cases happening with
      | goesOn =>
          simp only [handlerStep, Option.some.injEq] at taken
          subst taken
          have idle : self.view.stopping = none := by simp [view, stopping, here, Handler.stops]
          rw [view_continueHandler, view_nextOffer, ← idle]
          exact sound
      | fails e =>
          cases taken
          exact ended (by simp [stopping, here, Handler.stops])
      | _ => contradiction
  | stopping task process point =>
      have stops : self.view.stopping = some (task, process) := by
        simp [view, stopping, here, Handler.stops]
      have owns := (sound.stopping task process stops).2
      cases process with
      | none =>
          cases happening with
          | goesOn =>
              cases taken
              refine sound.settle (fun other process found => ?_)
              rw [stops] at found
              cases found
              intro process ownsOne
              rw [← owns] at ownsOne
              contradiction
          | _ => contradiction
      | some process =>
          simp only [handlerStep, Option.map_eq_some_iff] at taken
          obtain ⟨⟨stopped, following⟩, stepped, rfl⟩ := taken
          have made : process < self.processes.length := sound.allotted task process owns.symm
          have started : stopped.started = (self.processAt process).started := by
            rcases StopPoint.step_process stepped with rfl | ⟨signal, rfl⟩ <;> rfl
          have exitcode : stopped.exitcode = (self.processAt process).exitcode := by
            rcases StopPoint.step_process stepped with rfl | ⟨signal, rfl⟩ <;> rfl
          have signalled := sound.signal started exitcode
          rw [view_handler, view_setProcess made]
          cases following with
          | some point =>
              have still : (self.view.setProcess process stopped).stopping
                  = some (task, some process) := stops
              change { self.view.setProcess process stopped with
                stopping := some (task, some process) }.Sound
              rw [← still]
              exact signalled
          | none =>
              refine signalled.settle (fun other process' found => ?_)
              change self.view.stopping = some (other, process') at found
              rw [stops] at found
              cases found
              intro other ownsOther
              obtain rfl : process = other := Option.some.inj (owns.trans ownsOther)
              have dead : (self.processAt process).isAlive = false := by
                rcases StopPoint.step_ends stepped with dead | ⟨e, rfl⟩
                · exact dead
                · have stopsSelf : self.stopping = some (task, some process) := stops
                  simpa [Heeded, stopsSelf] using heeded
              simpa [View.setProcess, Process.isAlive, started, exitcode] using dead
  | draining =>
      cases happening with
      | goesOn =>
          cases taken
          exact ended (by simp [stopping, here, Handler.stops])
      | _ => contradiction

theorem sound_exit {process : Nat} {exitcode : Int} (heeded : self.Heeded (.exits process exitcode))
    (taken : self.exitStep process exitcode = some next)
    : next.view.Sound := by
  simp only [exitStep, Option.ite_none_right_eq_some, Option.some.injEq] at taken
  obtain ⟨alive, rfl⟩ := taken
  have made : process < self.processes.length := by
    by_contra outside
    have absent : self.processAt process = .new := by
      simp [processAt, List.getD_eq_getElem?_getD,
        List.getElem?_eq_none (Nat.le_of_not_lt outside)]
    rw [absent] at alive
    contradiction
  rw [view_setProcess made]
  refine sound.exit ?_
  intro other execution here aborting joins
  exact heeded execution (List.mem_of_getElem? here) aborting joins

section

variable {place : Nat} {execution : Execution}
  (here : self.executions[place]? = some execution)
include here

theorem sound_setPhase {phase : Phase} (goesOn : phase.isEnded = execution.phase.isEnded)
    (has : phase.Has (self.taskState execution.task).process
      (fun process => (self.processAt process).started))
    (heeded
      : (self.taskState execution.task).status = .aborting
        → self.view.heeds { execution with phase } = true)
    : (self.setPhase place execution phase).view.Sound := by
  rw [view_setPhase here]
  exact sound.setPhase here goesOn has heeded

theorem sound_raise (e : TaskException) (unended : execution.phase.isEnded = false)
    : (self.raise environment place execution e).view.Sound :=
  sound_setPhase sound here unended.symm trivial (fun _ => rfl)

/-- From a phase that may still succeed, an execution is not aborting. -/
theorem unaborted (undecided : self.view.heeds execution = false)
    : (self.taskState execution.task).status ≠ .aborting := by
  intro aborting
  have heeds := (sound.follows place execution here).heeded aborting
  rw [undecided] at heeds
  contradiction

theorem sound_sendPrinted (print_args : List Json) (result : Json)
    (unended : execution.phase.isEnded = false) (undecided : self.view.heeds execution = false)
    : (self.sendPrinted place execution print_args result).view.Sound := by
  have not := unaborted sound here undecided
  cases print_args with
  | _ =>
      exact sound_setPhase sound here unended.symm trivial (fun aborting => absurd aborting not)

theorem sound_startExecution (failure : Option TaskException)
    (created : execution.phase = .created)
    : (self.startExecution environment place execution failure).view.Sound := by
  have unended : execution.phase.isEnded = false := by rw [created]; rfl
  have follows := sound.follows place execution here
  have running := follows.running
  rw [unended] at running
  unfold startExecution
  split
  · exact sound_raise sound here _ unended
  · exact sound_raise sound here _ unended
  · next task found =>
      obtain rfl : execution.task = task := Option.some.inj (running.symm.trans found)
      have same
          : ({ self.setTaskState execution.task
                  { self.taskState execution.task with process := some self.processes.length } with
                processes := self.processes ++ [.new] } : TaskRunner).view
            = self.view.create execution.task := by
        refine (view_addProcess _).trans ?_
        rw [view_setTaskState follows.known]
        rfl
      dsimp only
      rw [view_setPhase (by exact here), same]
      exact sound.create here created

/-- The end of an execution is told as it leaves the running tasks. -/
theorem sound_end {message : RunnerMessage} (unended : execution.phase.isEnded = false)
    (ends : ∀ other, message.ends other = decide (place = other))
    (fails
      : (self.taskState execution.task).status = .aborting → message.isDone = false)
    : ((self.send message).endExecution place execution).view.Sound := by
  have running := (sound.follows place execution here).running
  rw [unended] at running
  have popped : ((self.send message).popTask execution.task_id).view = _ := view_popTask running
  have there : ((self.send message).popTask execution.task_id).executions[place]?
      = some execution := here
  have phase := view_setPhase there .ended
  rw [popped, view_tell self ends] at phase
  rw [endExecution, phase]
  exact sound.finish here unended fails

theorem sound_execution (heeded : self.Heeded (.execution place happening))
    (taken : self.executionStep environment config place execution execution.phase happening
      = some next)
    : next.view.Sound := by
  have follows := sound.follows place execution here
  cases phase : execution.phase with
  | created =>
      rw [phase] at taken
      cases happening with
      | goesOn =>
          cases taken
          exact sound_startExecution sound here none phase
      | fails e =>
          cases taken
          exact sound_startExecution sound here (some e) phase
      | _ => contradiction
  | executing process point =>
      have unended : execution.phase.isEnded = false := by rw [phase]; rfl
      have has := follows.process
      rw [phase] at has taken
      have made : process < self.processes.length := sound.allotted _ _ has.1
      simp only [executionStep, Option.map_eq_some_iff] at taken
      obtain ⟨⟨stepped, progress⟩, took, rfl⟩ := taken
      have exitcode := ExecutePoint.step_exitcode took
      have changed : (self.setProcess process stepped).view.Sound := by
        rw [view_setProcess made]
        rcases ExecutePoint.step_process took with ⟨starting, rfl⟩ | ⟨-, rfl | ⟨signal, rfl⟩⟩
        · refine sound.run has.1 (unaborted sound here ?_)
          simp [View.heeds, phase, starting, Phase.heeds]
        · exact sound.signal rfl rfl
        · exact sound.signal rfl rfl
      have after : (self.setProcess process stepped).processAt process = stepped := by
        simp [processAt, setProcess, List.getD_eq_getElem?_getD, made]
      refine sound_setPhase changed here ?_ ?_ (fun aborting => ?_)
      · rw [unended]
        cases progress <;> rfl
      · have owns : ((self.setProcess process stepped).taskState execution.task).process
            = some process := has.1
        rw [owns]
        exact ExecutePoint.step_has took has.2 (congrArg Process.started after)
      · have heeds := (changed.follows place execution here).heeded aborting
        rw [View.heeds, phase] at heeds
        exact ExecutePoint.step_heeds took heeds ((congrArg Process.exitcode after).trans exitcode)
  | executed outcome =>
      have unended : execution.phase.isEnded = false := by rw [phase]; rfl
      rw [phase] at taken
      cases happening with
      | goesOn =>
          cases outcome with
          | ok executed =>
              cases taken
              exact sound_sendPrinted sound here _ _ unended
                (by simp [View.heeds, phase, Phase.heeds])
          | error e =>
              cases taken
              exact sound_raise sound here e unended
      | _ => cases outcome <;> contradiction
  | printing print_args rest result =>
      have unended : execution.phase.isEnded = false := by rw [phase]; rfl
      rw [phase] at taken
      cases happening with
      | goesOn =>
          cases taken
          let message : RunnerMessage :=
            .rpc (environment.nanoid self.ids) execution.task_id RPC_BROWSER_CONSOLE_LOG_METHOD
              print_args
          let printed : TaskRunner := { self with ids := self.ids + 1 }.send message
          have same : printed.view = self.view :=
            view_send { self with ids := self.ids + 1 } (fun _ => rfl)
          have there : printed.executions[place]? = some execution := here
          refine sound_sendPrinted ?_ there rest result unended ?_
          · rw [same]
            exact sound
          · simp [View.heeds, phase, Phase.heeds]
      | fails e =>
          cases taken
          exact sound_raise sound here e unended
      | _ => contradiction
  | sendingDone result =>
      have unended : execution.phase.isEnded = false := by rw [phase]; rfl
      rw [phase] at taken
      cases happening with
      | goesOn =>
          cases taken
          have not := unaborted sound here (by simp [View.heeds, phase, Phase.heeds])
          exact sound_end sound here unended (fun other => rfl)
            (fun aborting => absurd aborting not)
      | fails e =>
          cases taken
          exact sound_raise sound here e unended
      | _ => contradiction
  | sendingError error =>
      have unended : execution.phase.isEnded = false := by rw [phase]; rfl
      rw [phase] at taken
      cases happening with
      | goesOn =>
          cases taken
          exact sound_end sound here unended (fun other => rfl) (fun _ => rfl)
      | fails e => simp [Heeded, here, phase, Phase.isSendingError] at heeded
      | _ => contradiction
  | ended =>
      rw [phase] at taken
      cases happening <;> contradiction

end

end

/-! ### Runs -/

theorem sound_new : new.view.Sound where
  running _ _ found := by cases found
  distinct first _ known := absurd known (Nat.not_lt_zero first)
  unknown _ _ := ⟨rfl, rfl⟩
  unprocessed _ _ := rfl
  allotted _ _ owns := by cases owns
  owned _ _ _ owns := by cases owns
  unused _ _ := ⟨rfl, rfl⟩
  follows _ _ executes := by cases executes
  alone _ _ _ _ executes := by cases executes
  stopping _ _ stops := by cases stops
  stopped _ aborting := by cases aborting

theorem sound_step (sound : self.view.Sound) (heeded : self.Heeded action)
    (taken : self.step environment config action = some next)
    : next.view.Sound := by
  cases action with
  | clock now =>
      cases taken
      exact sound
  | receive message =>
      obtain ⟨idle, rfl⟩ := Option.ite_some_none_eq_some.mp taken
      exact sound_receive sound (Option.isNone_iff_eq_none.mp idle) message heeded
  | handler happening =>
      obtain ⟨handler, here, moved⟩ := Option.bind_eq_some_iff.mp taken
      exact sound_handler sound here heeded moved
  | offersLoop place happening =>
      obtain ⟨offersLoop, -, moved⟩ := Option.bind_eq_some_iff.mp taken
      exact view_loopStep moved ▸ sound
  | execution place happening =>
      obtain ⟨execution, here, moved⟩ := Option.bind_eq_some_iff.mp taken
      exact sound_execution sound here heeded moved
  | exits process exitcode => exact sound_exit sound heeded taken
  | disconnects =>
      obtain ⟨-, rfl⟩ := Option.ite_some_none_eq_some.mp taken
      exact view_stopOffers self ▸ sound

/-- Every task that was given settings has its execution. -/
def Executes (self : TaskRunner) : Prop :=
  ∀ task, (self.taskState task).status ≠ .waitingForSettings
    → ∃ execution ∈ self.executions, execution.task = task

theorem executes_step (sound : self.view.Sound) (executes : self.Executes)
    (taken : self.step environment config action = some next)
    : next.Executes := by
  intro task given
  have still (before : (self.taskState task).status ≠ .waitingForSettings)
      : ∃ execution ∈ next.executions, execution.task = task := by
    obtain ⟨execution, member, same⟩ := executes task before
    obtain ⟨place, here⟩ := List.mem_iff_getElem?.mp member
    obtain ⟨phase, there, -⟩ := execution_step here taken
    exact ⟨_, List.mem_of_getElem? there, same⟩
  rcases changes_step sound taken task with same | ⟨-, -, executing⟩ | ⟨running, -⟩
  · exact still (same ▸ given)
  · exact executing
  · exact still (by simp [running])

/-- Every task that was given settings has one execution, which tells of its end once, as it leaves
the running tasks, and can go on until then. If the task is aborting it tells of no success, and
its process is being stopped or is dead.
-/
structure Settled (environment : Environment) (config : TaskRunnerConfig) (self : TaskRunner)
    : Prop where
  executes : self.Executes
  alone
    : ∀ (first second : Nat) (execution other : Execution),
        self.executions[first]? = some execution
        → self.executions[second]? = some other → execution.task = other.task → first = second
  tells
    : ∀ (place : Nat) (execution : Execution), self.executions[place]? = some execution
        → (self.endings place).length = if execution.phase.isEnded then 1 else 0
  leaves
    : ∀ (place : Nat) (execution : Execution), self.executions[place]? = some execution
        → self.running_tasks.get? execution.task_id
              = (if execution.phase.isEnded then none else some execution.task)
          ∧ self.popped.count execution.task = if execution.phase.isEnded then 1 else 0
  fails
    : ∀ (place : Nat) (execution : Execution), self.executions[place]? = some execution
        → (self.taskState execution.task).status = .aborting
        → ∀ message ∈ self.endings place, message.isDone = false
  stops
    : ∀ task, (self.taskState task).status = .aborting
        → (∃ process point, self.handler = some (.stopping task process point))
          ∨ ∀ process, (self.taskState task).process = some process
              → (self.processAt process).isAlive = false
  goesOn
    : ∀ (place : Nat) (execution : Execution), self.executions[place]? = some execution
        → execution.phase.isEnded = false
        → (∃ happening : Happening, happening.isFailure = false
            ∧ (self.step environment config (.execution place happening)).isSome = true)
          ∨ ∃ process, execution.phase = .executing process (.stopping .killed)
              ∧ (self.processAt process).isAlive = true
  stopsOn
    : ∀ task process point, self.handler = some (.stopping task process point)
        → (∃ happening : Happening, happening.isFailure = false
            ∧ (self.step environment config (.handler happening)).isSome = true)
          ∨ ∃ killed, process = some killed ∧ point = .killed
              ∧ (self.processAt killed).isAlive = true

/-- What a step does: settings make a task running and a cancel aborts it for good, and what goes
on comes nearer to its end.
-/
structure Advances (self next : TaskRunner) (action : Action) : Prop where
  gives
    : ∀ task_id settings task, action = .receive (.tasksettings task_id settings)
        → self.running_tasks.get? task_id = some task
        → (self.taskState task).status = .waitingForSettings
        → (next.taskState task).status = .running
  cancels
    : ∀ task_id reason task, action = .receive (.taskcancel task_id reason)
        → self.running_tasks.get? task_id = some task
        → (self.taskState task).status = .running → (next.taskState task).status = .aborting
  aborting
    : ∀ task, (self.taskState task).status = .aborting
        → (next.taskState task).status = .aborting
  nears
    : ∀ (place : Nat) (execution : Execution), self.executions[place]? = some execution
        → ∃ phase, next.executions[place]? = some { execution with phase }
            ∧ if action.drives place then phase.Nearer execution.phase
              else phase = execution.phase
  stops
    : ∀ task process point, self.handler = some (.stopping task process point)
        → if action.drivesHandler then
            next.handler = none
              ∨ ∃ later, next.handler = some (.stopping task process later)
                  ∧ later.rank < point.rank
          else next.handler = self.handler

theorem settled_of_sound (sound : self.view.Sound) (executes : self.Executes)
    : self.Settled environment config where
  executes := executes
  alone := sound.alone
  tells place execution here := (sound.follows place execution here).endings
  leaves place execution here :=
    have follows := sound.follows place execution here
    ⟨follows.running, follows.popped⟩
  fails place execution here aborting := (sound.follows place execution here).silent aborting
  stops task aborting := by
    rcases sound.stopped task aborting with ⟨process, stopping⟩ | dead
    · obtain ⟨handler, here, stops⟩ := Option.bind_eq_some_iff.mp stopping
      cases handler with
      | stopping other process point =>
          cases stops
          exact .inl ⟨_, _, here⟩
      | _ => contradiction
    · exact .inr dead
  goesOn place execution here unended := execution_canGoOn sound here unended
  stopsOn task process point here := stopping_canGoOn here

theorem advances_step (sound : self.view.Sound)
    (taken : self.step environment config action = some next)
    : Advances self next action where
  gives task_id settings task received found waiting := by
    subst received
    obtain ⟨-, rfl⟩ := Option.ite_some_none_eq_some.mp taken
    have known := (sound.running task_id task found).1
    have states := taskState_setTaskState known
      { self.taskState task with status := .running }
    simp only [handleMessage, handleTaskSettings, found, waiting]
    exact (congrArg TaskState.status (congrFun states task)).trans (by simp)
  cancels task_id reason task received found running := by
    subst received
    obtain ⟨-, rfl⟩ := Option.ite_some_none_eq_some.mp taken
    have known := (sound.running task_id task found).1
    have states := taskState_setTaskState known
      { self.taskState task with status := .aborting }
    simp only [handleMessage, handleTaskCancel, found, running]
    exact (congrArg TaskState.status (congrFun states task)).trans (by simp)
  aborting task before := by
    rcases changes_step sound taken task with same | ⟨waiting, -, -⟩ | ⟨-, after⟩
    · exact same.trans before
    · rw [before] at waiting
      contradiction
    · exact after
  nears place execution here := execution_step here taken
  stops task process point here := stopping_step here taken

/-- Every task that was given settings tells of its end once, and of an error if it was cancelled
while running, in every run whose cancels are heeded.
-/
theorem settled_of_heeded (environment : Environment) (config : TaskRunnerConfig)
    (actions : List Action) (heeded : Along (step environment config) Heeded new actions)
    : Throughout (step environment config) (Settled environment config) new actions
      ∧ Along (step environment config)
          (fun self action =>
            ∀ next, self.step environment config action = some next
              → Advances self next action)
          new actions
      ∧ WellFounded Phase.Nearer := by
  have preserved (self : TaskRunner) (action : Action) (next : TaskRunner)
      (holds : self.view.Sound ∧ self.Executes) (allowed : self.Heeded action)
      (taken : self.step environment config action = some next)
      : next.view.Sound ∧ next.Executes :=
    ⟨sound_step holds.1 allowed taken, executes_step holds.1 holds.2 taken⟩
  have start : new.view.Sound ∧ new.Executes :=
    ⟨sound_new, fun _ given => absurd rfl given⟩
  have invariant := throughout_of_preserved preserved start heeded
  refine ⟨invariant.mono (fun _ holds => settled_of_sound holds.1 holds.2), ?_,
    Phase.nearer_wellFounded⟩
  have advancing (self : TaskRunner) (action : Action) (next : TaskRunner)
      (holds : self.view.Sound ∧ self.Executes) (allowed : self.Heeded action)
      (taken : self.step environment config action = some next)
      : (∀ next, self.step environment config action = some next → Advances self next action)
        ∧ next.view.Sound ∧ next.Executes :=
    ⟨fun _ moved => advances_step holds.1 moved, preserved self action next holds allowed taken⟩
  exact along_of_allowed advancing start heeded

def oneTask : TaskRunnerConfig := ⟨1, 60⟩

/-- A task is cancelled while its process runs. -/
theorem settled_of_running
    : let actions : List Action :=
        [.receive .runnerregistered, .offersLoop 0 .goesOn,
          .receive (.taskofferaccept "task" ""), .handler .goesOn,
          .receive (.tasksettings "task" ⟨false⟩), .execution 0 .goesOn, .execution 0 .goesOn,
          .receive (.taskcancel "task" ""), .handler .goesOn, .exits 0 (-15), .handler .goesOn,
          .execution 0 .goesOn, .execution 0 .goesOn, .execution 0 .goesOn]
      (run (step plainEnvironment oneTask) new actions).map
            (fun self =>
              ((self.taskState 0).status, self.processes, self.running_tasks.keys,
                (self.endings 0).map RunnerMessage.isDone))
          = some (.aborting, [⟨true, [.sigterm], some (-15)⟩], [], [false])
        ∧ Throughout (step plainEnvironment oneTask) (Settled plainEnvironment oneTask)
            new actions
        ∧ Along (step plainEnvironment oneTask)
            (fun self action =>
              ∀ next, self.step plainEnvironment oneTask action = some next
                → Advances self next action)
            new actions
        ∧ WellFounded Phase.Nearer := by
  intro actions
  exact ⟨by decide, settled_of_heeded plainEnvironment oneTask actions (by decide)⟩

/-- A cancel of a running task is lost before its coroutine starts, and before its process starts,
which then runs unhindered; and where failures become results, it becomes one. Each time the task
is done.
-/
theorem cancel_lost
    : let given (continue_on_fail : Bool) : List Action :=
        [.receive .runnerregistered, .offersLoop 0 .goesOn,
          .receive (.taskofferaccept "task" ""), .handler .goesOn,
          .receive (.tasksettings "task" ⟨continue_on_fail⟩)]
      let cancel : List Action := [.receive (.taskcancel "task" ""), .handler .goesOn]
      let finish : List Action :=
        [.exits 0 0, .execution 0 .goesOn,
          .execution 0 (.reads (some ⟨some (.dict [("result", .list [])]), some 0, none⟩)),
          .execution 0 .goesOn, .execution 0 .goesOn]
      let reached (actions : List Action) :=
        (run (step plainEnvironment oneTask) new actions).map
          (fun self =>
            ((self.taskState 0).status, self.processes,
              (self.endings 0).map RunnerMessage.isDone))
      let early := given false ++ cancel
      let late := given false ++ [.execution 0 .goesOn] ++ cancel
      let running := given true ++ [.execution 0 .goesOn, .execution 0 .goesOn] ++ cancel
      reached early = some (.aborting, [], [])
        ∧ reached (early ++ [.execution 0 .goesOn, .execution 0 .goesOn] ++ finish)
            = some (.aborting, [⟨true, [], some 0⟩], [true])
        ∧ reached late = some (.aborting, [⟨false, [], none⟩], [])
        ∧ reached (late ++ [.execution 0 .goesOn] ++ finish)
            = some (.aborting, [⟨true, [], some 0⟩], [true])
        ∧ reached running = some (.aborting, [⟨true, [.sigterm], none⟩], [])
        ∧ reached
              (running
                ++ [.exits 0 (-15), .handler .goesOn, .execution 0 .goesOn, .execution 0 .goesOn,
                  .execution 0 .goesOn])
            = some (.aborting, [⟨true, [.sigterm], some (-15)⟩], [true]) := by
  intro given cancel finish reached early late running
  exact ⟨rfl, rfl, rfl, rfl, rfl, rfl⟩

end TaskRunner

end N8n.PythonRunner
