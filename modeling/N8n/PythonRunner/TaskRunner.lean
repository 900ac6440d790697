import N8n.Library.Dict
import N8n.PythonRunner.TaskExecutor

/-! The Python task runner (`packages/@n8n/task-runner-python/src/task_runner.py`,
`packages/@n8n/task-runner-python/src/task_state.py`). A coroutine is cut at its awaits, and a
step runs from one await to the next. Broker messages are handled one after the other; the
offers loops, the executions and their processes go on in between. The idle timer, the shutdown
and the log are left out.
-/

namespace N8n.PythonRunner

def TASK_TYPE_PYTHON : String := "python"
def RUNNER_NAME : String := "Python Task Runner"

/-- In milliseconds. -/
def OFFER_VALIDITY : Nat := 5000
def OFFER_VALIDITY_LATENCY_BUFFER : Nat := 100

def RPC_BROWSER_CONSOLE_LOG_METHOD : String := "logNodeOutput"

def TASK_REJECTED_REASON_OFFER_EXPIRED : String :=
  "Offer expired - not accepted within validity window"

def TASK_REJECTED_REASON_AT_CAPACITY : String :=
  "No open task slots - runner already at capacity"

/-- The part of the settings that the runner itself looks at. -/
structure TaskSettings where
  continue_on_fail : Bool
  deriving DecidableEq, Repr

inductive BrokerMessage where
  | inforequest
  | runnerregistered
  | taskofferaccept (task_id offer_id : String)
  | tasksettings (task_id : String) (settings : TaskSettings)
  | taskcancel (task_id reason : String)
  | rpcresponse
  | drain
  deriving DecidableEq, Repr

/-- The end of a task also names its execution, by the place among all executions. -/
inductive RunnerMessage where
  | info (name : String) (types : List String)
  | taskoffer (offer_id task_type : String) (valid_for : Nat)
  | taskaccepted (task_id : String)
  | taskrejected (task_id reason : String)
  | taskdone (execution : Nat) (task_id : String) (data : Json)
  | taskerror (execution : Nat) (task_id : String) (error : Json)
  | rpc (call_id task_id name : String) (params : Json)

/-- What the handler of a broker message answers. -/
inductive Reply where
  | info
  | accepted (task_id : String)
  | rejected (task_id reason : String)
  deriving DecidableEq, Repr

def Reply.message : Reply → RunnerMessage
  | .info => .info RUNNER_NAME [TASK_TYPE_PYTHON]
  | .accepted task_id => .taskaccepted task_id
  | .rejected task_id reason => .taskrejected task_id reason

structure TaskRunnerConfig where
  max_concurrency : Int
  task_timeout : Int

/-- The ids, the random numbers and Python's `str`. -/
structure Environment where
  nanoid : Nat → String
  randint : Nat → Nat
  str : Json → String

/-- `_send_offers` at the await of an offer, with the offers still to make after it. -/
structure SendOffers where
  offer_id : String
  valid_for : Nat
  remaining : Nat
  deriving DecidableEq, Repr

/-- The handler of a broker message. -/
inductive Handler where
  | replying (reply : Reply)
  | sendingOffers (send : SendOffers)
  | stopping (task : Nat) (process : Option Nat) (point : StopPoint)
  | draining

inductive OffersLoop where
  | ready
  | sending (send : SendOffers)
  | sleeping
  | ended

inductive Phase where
  | created
  | executing (process : Nat) (point : ExecutePoint)
  | executed (outcome : Outcome)
  | printing (print_args : Json) (rest : List Json) (result : Json)
  | sendingDone (result : Json)
  | sendingError (error : Json)
  | ended

def Progress.phase (process : Nat) : Progress → Phase
  | .reaches point => .executing process point
  | .returns outcome => .executed outcome

/-- A call of `_execute_task`, with the task state whose settings it was made for. -/
structure Execution where
  task_id : String
  settings : TaskSettings
  task : Nat
  phase : Phase

structure TaskOffer where
  offer_id : String
  valid_until : Nat
  deriving DecidableEq, Repr

inductive TaskStatus where
  | waitingForSettings
  | running
  | aborting
  deriving DecidableEq, Repr

structure TaskState where
  task_id : String
  status : TaskStatus
  process : Option Nat
  deriving DecidableEq, Repr

/-- The runner, with the clock in milliseconds, all task states and processes that it has made,
its coroutines, the ids it has used, what it has sent, and the task states that were popped.
-/
structure TaskRunner where
  now : Nat
  can_send_offers : Bool
  offers_coroutine : Option Nat
  open_offers : Dict String TaskOffer
  running_tasks : Dict String Nat
  task_states : List TaskState
  processes : List Process
  handler : Option Handler
  offers_loops : List OffersLoop
  executions : List Execution
  ids : Nat
  sent : List RunnerMessage
  popped : List Nat

/-- Something that happens: the clock is set, a message of the broker arrives, a coroutine goes
on from its await, a process exits, or the connection is lost.
-/
inductive Action where
  | clock (now : Nat)
  | receive (message : BrokerMessage)
  | handler (happening : Happening)
  | offersLoop (place : Nat) (happening : Happening)
  | execution (place : Nat) (happening : Happening)
  | exits (process : Nat) (exitcode : Int)
  | disconnects

namespace TaskRunner

def new : TaskRunner :=
  ⟨0, false, none, .empty, .empty, [], [], none, [], [], 0, [], []⟩

def hasExpired (self : TaskRunner) (offer : TaskOffer) : Bool := offer.valid_until < self.now

def runningTasksCount (self : TaskRunner) : Nat := self.running_tasks.keys.length

def taskState (self : TaskRunner) (task : Nat) : TaskState :=
  self.task_states.getD task ⟨"", .waitingForSettings, none⟩

def setTaskState (self : TaskRunner) (task : Nat) (task_state : TaskState) : TaskRunner :=
  { self with task_states := self.task_states.set task task_state }

def processAt (self : TaskRunner) (process : Nat) : Process :=
  self.processes.getD process .new

def setProcess (self : TaskRunner) (place : Nat) (process : Process) : TaskRunner :=
  { self with processes := self.processes.set place process }

def send (self : TaskRunner) (message : RunnerMessage) : TaskRunner :=
  { self with sent := self.sent ++ [message] }

/-- `self.running_tasks.pop(task_id, None)`. -/
def popTask (self : TaskRunner) (task_id : String) : TaskRunner :=
  { self with
      running_tasks := self.running_tasks.delete task_id
      popped := self.popped ++ (self.running_tasks.get? task_id).toList }

section

variable (environment : Environment)

/-- The turns of the loop that are left, up to the await of the first one. -/
def sendRemaining (self : TaskRunner) : Nat → TaskRunner × Option SendOffers
  | 0 => (self, none)
  | remaining + 1 =>
      let offer_id := environment.nanoid self.ids
      let valid_for_ms := OFFER_VALIDITY + environment.randint self.ids
      let valid_until := self.now + valid_for_ms + OFFER_VALIDITY_LATENCY_BUFFER
      ({ self with
          ids := self.ids + 1
          open_offers := self.open_offers.set offer_id ⟨offer_id, valid_until⟩ },
        some ⟨offer_id, valid_for_ms, remaining⟩)

def popExpired (self : TaskRunner) : TaskRunner :=
  { self with open_offers := self.open_offers.filter (fun offer => !self.hasExpired offer) }

variable (config : TaskRunnerConfig)

def offersToSend (self : TaskRunner) : Int :=
  config.max_concurrency - (self.open_offers.keys.length + self.runningTasksCount)

/-- `_send_offers` up to its first await, or to its end. -/
def sendOffers (self : TaskRunner) : TaskRunner × Option SendOffers :=
  if self.can_send_offers then
    let self := self.popExpired
    self.sendRemaining environment (self.offersToSend config).toNat
  else (self, none)

/-- `_send_offers` after the message of an offer has been sent. -/
def nextOffer (self : TaskRunner) (sending : SendOffers) : TaskRunner × Option SendOffers :=
  (self.send (.taskoffer sending.offer_id TASK_TYPE_PYTHON sending.valid_for)).sendRemaining
    environment sending.remaining

def setLoop (self : TaskRunner) (place : Nat) (offersLoop : OffersLoop) : TaskRunner :=
  { self with offers_loops := self.offers_loops.set place offersLoop }

/-- After `_send_offers`, the loop sleeps. -/
def continueLoop (place : Nat) : TaskRunner × Option SendOffers → TaskRunner
  | (self, some sending) => self.setLoop place (.sending sending)
  | (self, none) => self.setLoop place .sleeping

/-- The coroutine is cancelled at the await where it stands. -/
def stopOffers (self : TaskRunner) : TaskRunner :=
  let self := { self with can_send_offers := false }
  match self.offers_coroutine with
  | some place => self.setLoop place .ended
  | none => self

/-- `_send_offers_loop` goes on. -/
def loopStep (self : TaskRunner) (place : Nat)
    : OffersLoop → Happening → Option TaskRunner
  | .ready, .goesOn =>
      if self.can_send_offers then
        some (continueLoop place (self.sendOffers environment config))
      else some (self.setLoop place .ended)
  | .sending sending, .goesOn => some (continueLoop place (self.nextOffer environment sending))
  | .sending _, .fails _ => some (self.setLoop place .ready)
  | .sleeping, .goesOn => some (self.setLoop place .ready)
  | _, _ => none

def reply (self : TaskRunner) (reply : Reply) : TaskRunner :=
  { self with handler := some (.replying reply) }

def handleRunnerRegistered (self : TaskRunner) : TaskRunner :=
  { self with
      can_send_offers := true
      offers_coroutine := some self.offers_loops.length
      offers_loops := self.offers_loops ++ [.ready] }

/-- The open offer becomes a running task. -/
def takeOffer (self : TaskRunner) (task_id offer_id : String) : TaskRunner :=
  { self with
      open_offers := self.open_offers.delete offer_id
      running_tasks := self.running_tasks.set task_id self.task_states.length
      task_states := self.task_states ++ [⟨task_id, .waitingForSettings, none⟩] }

def handleTaskOfferAccept (self : TaskRunner) (task_id offer_id : String) : TaskRunner :=
  match (self.open_offers.get? offer_id).filter (fun offer => !self.hasExpired offer) with
  | none => self.reply (.rejected task_id TASK_REJECTED_REASON_OFFER_EXPIRED)
  | some _ =>
      if config.max_concurrency ≤ self.runningTasksCount then
        self.reply (.rejected task_id TASK_REJECTED_REASON_AT_CAPACITY)
      else (self.takeOffer task_id offer_id).reply (.accepted task_id)

/-- Settings for a task that is missing, or that has had settings, change nothing. -/
def handleTaskSettings (self : TaskRunner) (task_id : String) (settings : TaskSettings)
    : TaskRunner :=
  match self.running_tasks.get? task_id with
  | none => self
  | some task =>
      let task_state := self.taskState task
      if task_state.status ≠ .waitingForSettings then self
      else
        { self.setTaskState task { task_state with status := .running } with
            executions := self.executions ++ [⟨task_id, settings, task, .created⟩] }

/-- After `_send_offers`, the handler ends. -/
def continueHandler : TaskRunner × Option SendOffers → TaskRunner
  | (self, sending) => { self with handler := sending.map .sendingOffers }

def handleTaskCancel (self : TaskRunner) (task_id : String) : TaskRunner :=
  match self.running_tasks.get? task_id with
  | none => self
  | some task =>
      let task_state := self.taskState task
      match task_state.status with
      | .waitingForSettings =>
          continueHandler ((self.popTask task_id).sendOffers environment config)
      | .running =>
          { self.setTaskState task { task_state with status := .aborting } with
              handler := some (.stopping task task_state.process .begun) }
      | .aborting => self

def handleMessage (self : TaskRunner) : BrokerMessage → TaskRunner
  | .inforequest => self.reply .info
  | .runnerregistered => self.handleRunnerRegistered
  | .taskofferaccept task_id offer_id => self.handleTaskOfferAccept config task_id offer_id
  | .tasksettings task_id settings => self.handleTaskSettings task_id settings
  | .taskcancel task_id _ => self.handleTaskCancel environment config task_id
  | .rpcresponse => self
  | .drain => { self.stopOffers with handler := some .draining }

/-- The handler goes on. An exception is logged. -/
def handlerStep (self : TaskRunner) : Handler → Happening → Option TaskRunner
  | .replying reply, .goesOn => some { self.send reply.message with handler := none }
  | .replying _, .fails _ => some { self with handler := none }
  | .sendingOffers sending, .goesOn =>
      some (continueHandler (self.nextOffer environment sending))
  | .sendingOffers _, .fails _ => some { self with handler := none }
  | .stopping _ none _, .goesOn => some { self with handler := none }
  | .stopping task (some process) point, happening =>
      (point.step (self.processAt process) happening).map (fun (stopped, next) =>
        { self.setProcess process stopped with
            handler := next.map (.stopping task (some process)) })
  | .draining, .goesOn => some { self with handler := none }
  | _, _ => none

def setPhase (self : TaskRunner) (place : Nat) (execution : Execution) (phase : Phase)
    : TaskRunner :=
  { self with executions := self.executions.set place { execution with phase } }

/-- The `finally` clause. -/
def endExecution (self : TaskRunner) (place : Nat) (execution : Execution) : TaskRunner :=
  (self.popTask execution.task_id).setPhase place execution .ended

def sendPrinted (self : TaskRunner) (place : Nat) (execution : Execution)
    (print_args : List Json) (result : Json)
    : TaskRunner :=
  match print_args with
  | [] => self.setPhase place execution (.sendingDone result)
  | print_args_per_call :: rest =>
      self.setPhase place execution (.printing print_args_per_call rest result)

def raise (self : TaskRunner) (place : Nat) (execution : Execution) (e : TaskException)
    : TaskRunner :=
  self.setPhase place execution (.sendingError (e.error environment.str))

/-- `_execute_task` up to the call of the thread. The analyzer or the creation of the process
may fail.
-/
def startExecution (self : TaskRunner) (place : Nat) (execution : Execution)
    (failure : Option TaskException)
    : TaskRunner :=
  match self.running_tasks.get? execution.task_id, failure with
  | none, _ => self.raise environment place execution (.missing execution.task_id)
  | some _, some e => self.raise environment place execution e
  | some task, none =>
      let process := self.processes.length
      let self : TaskRunner :=
        { self.setTaskState task { self.taskState task with process := some process } with
            processes := self.processes ++ [.new] }
      self.setPhase place execution (.executing process .starting)

/-- `_execute_task` goes on. Every exception is caught, but for one that comes with the message
that tells of an exception.
-/
def executionStep (self : TaskRunner) (place : Nat) (execution : Execution)
    : Phase → Happening → Option TaskRunner
  | .created, .goesOn => some (self.startExecution environment place execution none)
  | .created, .fails e => some (self.startExecution environment place execution (some e))
  | .executing process point, happening =>
      (point.step environment.str config.task_timeout execution.settings.continue_on_fail
          (self.processAt process) happening).map (fun (stepped, progress) =>
        (self.setProcess process stepped).setPhase place execution (progress.phase process))
  | .executed (.ok executed), .goesOn =>
      some (self.sendPrinted place execution executed.print_args executed.result)
  | .executed (.error e), .goesOn => some (self.raise environment place execution e)
  | .printing print_args rest result, .goesOn =>
      let message : RunnerMessage :=
        .rpc (environment.nanoid self.ids) execution.task_id RPC_BROWSER_CONSOLE_LOG_METHOD
          print_args
      some (({ self with ids := self.ids + 1 }.send message).sendPrinted place execution rest result)
  | .printing _ _ _, .fails e => some (self.raise environment place execution e)
  | .sendingDone result, .goesOn =>
      let message : RunnerMessage :=
        .taskdone place execution.task_id (.dict [("result", result)])
      some ((self.send message).endExecution place execution)
  | .sendingDone _, .fails e => some (self.raise environment place execution e)
  | .sendingError error, .goesOn =>
      some ((self.send (.taskerror place execution.task_id error)).endExecution place execution)
  | .sendingError _, .fails _ => some (self.endExecution place execution)
  | _, _ => none

def exitStep (self : TaskRunner) (process : Nat) (exitcode : Int) : Option TaskRunner :=
  if (self.processAt process).isAlive then
    some (self.setProcess process { self.processAt process with exitcode := some exitcode })
  else none

/-- The next message is read when the last one has been handled, and a lost connection is noticed
by the reader of the messages.
-/
def step (self : TaskRunner) : Action → Option TaskRunner
  | .clock now => some { self with now }
  | .receive message =>
      if self.handler.isNone then some (self.handleMessage environment config message) else none
  | .handler happening =>
      self.handler.bind (fun handler => self.handlerStep environment handler happening)
  | .offersLoop place happening =>
      self.offers_loops[place]?.bind (fun offersLoop =>
        self.loopStep environment config place offersLoop happening)
  | .execution place happening =>
      self.executions[place]?.bind (fun execution =>
        self.executionStep environment config place execution execution.phase happening)
  | .exits process exitcode => self.exitStep process exitcode
  | .disconnects => if self.handler.isNone then some self.stopOffers else none

end

variable {environment : Environment} {config : TaskRunnerConfig} {α : Type} (read : TaskRunner → α)
  {self next : TaskRunner} {happening : Happening}

/-- A step of the loop leaves alone what its state and the offers have no part in. -/
theorem loopStep_keeps {place : Nat} {offersLoop : OffersLoop}
    (loops : ∀ (self : TaskRunner) offersLoop, read (self.setLoop place offersLoop) = read self)
    (sends : ∀ self : TaskRunner, read (self.sendOffers environment config).1 = read self)
    (goesOn : ∀ (self : TaskRunner) sending,
      read (self.nextOffer environment sending).1 = read self)
    (taken : self.loopStep environment config place offersLoop happening = some next)
    : read next = read self := by
  have continued (sent : TaskRunner × Option SendOffers)
      : read (continueLoop place sent) = read sent.1 := by
    obtain ⟨after, sending⟩ := sent
    cases sending with
    | none | some => exact loops after _
  unfold loopStep at taken
  split at taken
  · split at taken
    · cases taken
      exact (continued _).trans (sends self)
    · cases taken
      exact loops self _
  · cases taken
    exact (continued _).trans (goesOn self _)
  · cases taken
    exact loops self _
  · cases taken
    exact loops self _
  · contradiction

/-- A handler that goes on sends, makes offers or stops a process. -/
theorem handlerStep_keeps {handler : Handler}
    (handlers : ∀ (self : TaskRunner) handler, read { self with handler } = read self)
    (sent : ∀ (self : TaskRunner) message, read (self.send message) = read self)
    (goesOn : ∀ (self : TaskRunner) sending,
      read (self.nextOffer environment sending).1 = read self)
    (processes : ∀ (self : TaskRunner) process stopped,
      read (self.setProcess process stopped) = read self)
    (taken : self.handlerStep environment handler happening = some next)
    : read next = read self := by
  unfold handlerStep at taken
  split at taken
  · cases taken
    exact (handlers _ _).trans (sent self _)
  · cases taken
    exact handlers self _
  · cases taken
    exact (handlers _ _).trans (goesOn self _)
  · cases taken
    exact handlers self _
  · cases taken
    exact handlers self _
  · obtain ⟨⟨stopped, following⟩, -, rfl⟩ := Option.map_eq_some_iff.mp taken
    exact (handlers _ _).trans (processes self _ _)
  · cases taken
    exact handlers self _
  · contradiction

/-- Ids that differ in their length, and no random numbers. -/
def plainEnvironment : Environment where
  nanoid place := String.ofList (List.replicate place 'x')
  randint _ := 0
  str _ := ""

end TaskRunner

end N8n.PythonRunner
