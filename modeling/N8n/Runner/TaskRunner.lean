import N8n.Library.Dict
import N8n.Library.Exec

/-! The task runner and the tasks it runs (`packages/@n8n/task-runner/src/task-runner.ts`,
`packages/@n8n/task-runner/src/task-state.ts`). A handler runs to its end as one step: what it
awaits has been settled, but for the execution of a task, which settles in a step of its own.
The idle timer is left out, and so are the requests that an executing task makes of the broker.
-/

namespace N8n.Runner

inductive TaskStatus where
  | waitingForSettings
  | running
  | abortingCancelled
  | abortingTimeout
  deriving DecidableEq, Repr

def TaskStatus.text : TaskStatus → String
  | .waitingForSettings => "waitingForSettings"
  | .running => "running"
  | .abortingCancelled => "aborting:cancelled"
  | .abortingTimeout => "aborting:timeout"

/-- `timeoutTimer` tells whether the timer is yet to fire. -/
structure TaskState where
  taskId : String
  status : TaskStatus
  timeoutTimer : Bool
  deriving DecidableEq, Repr

/-- `validUntil` is in nanoseconds. -/
structure TaskOffer where
  offerId : String
  validUntil : Nat
  deriving DecidableEq, Repr

/-- What a runner tells the broker. The end of a task also names its task state, by the place
among all task states, which tells tasks with the same id apart.
-/
inductive RunnerMessage (Data : Type) where
  | taskoffer (taskType offerId : String) (validFor : Nat)
  | taskaccepted (taskId : String)
  | taskrejected (taskId reason : String)
  | taskdone (task : Nat) (taskId : String) (data : Data)
  | taskerror (task : Nat) (taskId : String) (error : JsError)
  deriving DecidableEq

structure TaskRunnerOpts where
  taskType : String
  maxConcurrency : Nat
  taskTimeout : Nat

/-- How the clock, the random numbers and the ids turn out each time they are asked for, and
with what error, if any, each message fails to be sent.
-/
structure Environment where
  hrtime : Nat → Nat
  randomInt : Nat → Nat
  nanoid : Nat → String
  sendError : Nat → Option JsError

/-- The runner with all task states it has made, the executions that have not settled, by
their task states, and what it has sent. The counts tell how often the clock was read, an
offer was made and a message was tried to be sent.
-/
structure TaskRunner (Data : Type) where
  canSendOffers : Bool
  offerInterval : Bool
  runningTasks : Dict String Nat
  openOffers : Dict String TaskOffer
  taskStates : List TaskState
  executions : List Nat
  sent : List (RunnerMessage Data)
  readings : Nat
  offers : Nat
  attempts : Nat

/-- Something that happens to the runner: a message of the broker, a timer that fires, or an
execution that settles.
-/
inductive Action (Data : Type) where
  | runnerregistered
  | drain
  | offerInterval
  | taskofferaccept (offerId taskId : String)
  | taskcancel (taskId reason : String)
  | tasksettings (taskId : String)
  | timeout (task : Nat)
  | settled (task : Nat) (outcome : Except JsError Data)

def OFFER_VALID_TIME_MS : Nat := 5000
def OFFER_VALID_EXTRA_MS : Nat := 100

def msToNs (ms : Nat) : Nat := ms * 1000000

def timeoutError (taskTimeout : Nat) : JsError :=
  .error "TimeoutError"
    ("Task execution timed out after " ++ toString taskTimeout ++ " "
      ++ if taskTimeout = 1 then "second" else "seconds")
    (some
      ("The task runner was taking too long on this task, so the task was aborted. "
        ++ "You can try the following:<br/><br/>"
        ++ "1. Optimize your script to prevent long-running tasks, "
        ++ "e.g. by processing data in smaller batches.<br/>"
        ++ "2. Ensure that all paths in your script are able to terminate, "
        ++ "i.e. no infinite loops."))

namespace TaskRunner

variable {Data : Type}

def new : TaskRunner Data :=
  ⟨false, false, Dict.empty, Dict.empty, [], [], [], 0, 0, 0⟩

/-- The task state at a place; there is one at each place that is in use. -/
def taskState (self : TaskRunner Data) (task : Nat) : TaskState :=
  self.taskStates.getD task ⟨"", .waitingForSettings, false⟩

def setTaskState (self : TaskRunner Data) (task : Nat) (taskState : TaskState)
    : TaskRunner Data :=
  { self with taskStates := self.taskStates.set task taskState }

def setStatus (task : Nat) (status : TaskStatus) : Exec (TaskRunner Data) Unit :=
  modify (fun self => self.setTaskState task { self.taskState task with status })

def throwUnexpectedTaskStatus (task : Nat) : Exec (TaskRunner Data) Unit := do
  let self ← get
  let taskState := self.taskState task
  throw
    (.assertion
      (some
        ("Unexpected task status: \"[Task " ++ taskState.taskId ++ " ("
          ++ taskState.status.text ++ ")]\"")))

def stopTaskOffers : Exec (TaskRunner Data) Unit :=
  modify (fun self => { self with canSendOffers := false, offerInterval := false })

def startTaskOffers : Exec (TaskRunner Data) Unit :=
  modify (fun self => { self with canSendOffers := true, offerInterval := true })

section

variable (environment : Environment) (opts : TaskRunnerOpts)

def send (message : RunnerMessage Data) : Exec (TaskRunner Data) Unit := do
  let self ← get
  modify (fun self => { self with attempts := self.attempts + 1 })
  match environment.sendError self.attempts with
  | none => modify (fun self => { self with sent := self.sent ++ [message] })
  | some error => throw error

/-- What the loop over the open offers does with one of them. -/
def deleteIfStale (key : String) (offer : TaskOffer) : Exec (TaskRunner Data) Unit := do
  let self ← get
  modify (fun self => { self with readings := self.readings + 1 })
  if offer.validUntil < environment.hrtime self.readings then
    modify (fun self => { self with openOffers := self.openOffers.delete key })

def deleteStaleOffers : Exec (TaskRunner Data) Unit := do
  let self ← get
  self.openOffers.entries.forM (fun entry => deleteIfStale environment entry.1 entry.2)

def sendOffer : Exec (TaskRunner Data) Unit := do
  let self ← get
  let validForInMs := OFFER_VALID_TIME_MS + environment.randomInt self.offers
  let validUntil :=
    environment.hrtime self.readings + msToNs (validForInMs + OFFER_VALID_EXTRA_MS)
  let offer : TaskOffer := ⟨environment.nanoid self.offers, validUntil⟩
  modify (fun self =>
    { self with
        readings := self.readings + 1
        offers := self.offers + 1
        openOffers := self.openOffers.set offer.offerId offer })
  send environment (.taskoffer opts.taskType offer.offerId validForInMs)

def offersToSend (self : TaskRunner Data) : Nat :=
  opts.maxConcurrency - (self.openOffers.keys.length + self.runningTasks.keys.length)

def sendOffers : Exec (TaskRunner Data) Unit := do
  deleteStaleOffers environment
  let self ← get
  if self.canSendOffers then
    (List.range (offersToSend opts self)).forM (fun _ => sendOffer environment opts)

/-- Whether the task runner has capacity to accept more tasks. -/
def hasOpenTaskSlots (self : TaskRunner Data) : Bool :=
  self.runningTasks.keys.length < opts.maxConcurrency

def offerAccepted (offerId taskId : String) : Exec (TaskRunner Data) Unit := do
  let self ← get
  if hasOpenTaskSlots opts self then
    match self.openOffers.get? offerId with
    | none =>
        send environment
          (.taskrejected taskId "Offer expired - not accepted within validity window")
    | some _ => do
        modify (fun self =>
          { self with
              openOffers := self.openOffers.delete offerId
              runningTasks := self.runningTasks.set taskId self.taskStates.length
              taskStates := self.taskStates ++ [⟨taskId, .waitingForSettings, true⟩] })
        send environment (.taskaccepted taskId)
  else do
    modify (fun self => { self with openOffers := self.openOffers.delete offerId })
    send environment
      (.taskrejected taskId "No open task slots - runner already at capacity")

/-- Finishes task by removing it from the running tasks and sending new offers. -/
def finishTask (task : Nat) : Exec (TaskRunner Data) Unit := do
  modify (fun self =>
    { self.setTaskState task { self.taskState task with timeoutTimer := false } with
        runningTasks := self.runningTasks.delete (self.taskState task).taskId })
  sendOffers environment opts

def taskCancelled (taskId : String) : Exec (TaskRunner Data) Unit := do
  let self ← get
  match self.runningTasks.get? taskId with
  | none => pure ()
  | some task =>
      match (self.taskState task).status with
      | .waitingForSettings => finishTask environment opts task
      | .abortingTimeout => pure ()
      | .abortingCancelled => pure ()
      | .running => setStatus task .abortingCancelled

def sendError (task : Nat) (error : JsError) : Exec (TaskRunner Data) Unit := do
  let self ← get
  send environment (.taskerror task (self.taskState task).taskId error)

def taskTimedOut (taskId : String) : Exec (TaskRunner Data) Unit := do
  let self ← get
  match self.runningTasks.get? taskId with
  | none => pure ()
  | some task =>
      match (self.taskState task).status with
      | .waitingForSettings =>
          tryFinally (sendError environment task (timeoutError opts.taskTimeout))
            (finishTask environment opts task)
      | .abortingTimeout => throwUnexpectedTaskStatus task
      | .running => setStatus task .abortingTimeout
      | .abortingCancelled => pure ()

def receivedSettings (taskId : String) : Exec (TaskRunner Data) Unit := do
  let self ← get
  match self.runningTasks.get? taskId with
  | none => pure ()
  | some task =>
      match (self.taskState task).status with
      | .abortingCancelled => throwUnexpectedTaskStatus task
      | .abortingTimeout => throwUnexpectedTaskStatus task
      | .running => throwUnexpectedTaskStatus task
      | .waitingForSettings => do
          setStatus task .running
          modify (fun self => { self with executions := self.executions ++ [task] })

/-- `caseOf` of a settled execution: nothing is sent for a cancelled task. -/
def sendUnlessCancelled (task : Nat) (sendEnd : Exec (TaskRunner Data) Unit)
    : Exec (TaskRunner Data) Unit := do
  let self ← get
  match (self.taskState task).status with
  | .waitingForSettings => throwUnexpectedTaskStatus task
  | .abortingCancelled => pure ()
  | .abortingTimeout => sendEnd
  | .running => sendEnd

def sendData (task : Nat) (data : Data) : Exec (TaskRunner Data) Unit := do
  let self ← get
  send environment (.taskdone task (self.taskState task).taskId data)

def taskExecutionSucceeded (task : Nat) (data : Data) : Exec (TaskRunner Data) Unit :=
  tryFinally (sendUnlessCancelled task (sendData environment task data))
    (finishTask environment opts task)

def taskExecutionFailed (task : Nat) (error : JsError) : Exec (TaskRunner Data) Unit :=
  tryFinally (sendUnlessCancelled task (sendError environment task error))
    (finishTask environment opts task)

/-- What follows on the promise of `executeTask`: `.catch` is for both, a rejection of the
promise and an error in what follows on its fulfilment.
-/
def executionSettled (task : Nat) (outcome : Except JsError Data)
    : Exec (TaskRunner Data) Unit := do
  modify (fun self => { self with executions := self.executions.erase task })
  match outcome with
  | .ok data =>
      tryCatch (taskExecutionSucceeded environment opts task data)
        (taskExecutionFailed environment opts task)
  | .error error => taskExecutionFailed environment opts task error

/-- A timer fires once. -/
def timerFired (task : Nat) : Exec (TaskRunner Data) Unit := do
  let self ← get
  let taskState := self.taskState task
  set (self.setTaskState task { taskState with timeoutTimer := false })
  taskTimedOut environment opts taskState.taskId

def handle : Action Data → Exec (TaskRunner Data) Unit
  | .runnerregistered => startTaskOffers
  | .drain => stopTaskOffers
  | .offerInterval => sendOffers environment opts
  | .taskofferaccept offerId taskId => offerAccepted environment opts offerId taskId
  | .taskcancel taskId _ => taskCancelled environment opts taskId
  | .tasksettings taskId => receivedSettings taskId
  | .timeout task => timerFired environment opts task
  | .settled task outcome => executionSettled environment opts task outcome

/-- Whether something can happen: timers fire when they are set, and an execution settles
once.
-/
def possible (self : TaskRunner Data) : Action Data → Bool
  | .offerInterval => self.offerInterval
  | .timeout task => (self.taskState task).timeoutTimer
  | .settled task _ => task ∈ self.executions
  | _ => true

/-- An error that a handler throws is not caught, and what it has done stays done. -/
def step (self : TaskRunner Data) (action : Action Data) : Option (TaskRunner Data) :=
  if self.possible action then some ((handle environment opts action).after self) else none

end

end TaskRunner

end N8n.Runner
