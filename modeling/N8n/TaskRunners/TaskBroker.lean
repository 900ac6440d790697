import N8n.Library.Dict

/-! The broker between task requesters and task runners
(`packages/cli/src/task-runners/task-broker/task-broker.service.ts`). An asynchronous method
is cut at its awaits, and a step of the machine runs from one await to the next. Logging is
left out.
-/

namespace N8n.TaskRunners

/-- Counts up; `nanoid` never answers an id twice. -/
abbrev TaskId := Nat

inductive TaskRunnerMode where
  | internal
  | external
  deriving DecidableEq, Repr

structure TaskRunnersConfig where
  mode : TaskRunnerMode
  taskTimeout : Nat
  isSelfHosted : Bool
  deriving DecidableEq, Repr

/-- An offer that does not expire has `validFor` -1. -/
structure TaskOffer where
  offerId : String
  runnerId : String
  taskType : String
  validFor : Int
  validUntil : Int
  deriving DecidableEq, Repr

/-- A request object. Its two fields that change, `timeout` and `acceptInProgress`, are kept
in the broker under the reference.
-/
structure TaskRequest where
  reference : Nat
  requestId : String
  requesterId : String
  taskType : String
  deriving DecidableEq, Repr

structure Task where
  id : TaskId
  runnerId : String
  requesterId : String
  taskType : String
  timeout : Option Nat
  deriving DecidableEq, Repr

/-- `Data` is what settings, results, parameters and errors hold. -/
inductive TaskError (Data : Type) where
  | reported (error : Data)
  | disconnected (message : String)
  | unexpected (message : String)
  | executionTimeout (config : TaskRunnersConfig)

/-! ### Messages -/

/-- What runners ask of a requester, and requesters answer. -/
inductive DataKind where
  | taskData
  | nodeTypes
  | rpc
  deriving DecidableEq, Repr

namespace BrokerMessage

inductive ToRunner (Data : Type) where
  | runnerregistered
  | taskofferaccept (offerId : String) (taskId : TaskId)
  | taskcancel (taskId : TaskId) (reason : String)
  | tasksettings (taskId : TaskId) (settings : Data)
  | response (kind : DataKind) (taskId : TaskId) (requestId : String) (data : Data)

inductive ToRequester (Data : Type) where
  | taskready (requestId : String) (taskId : TaskId)
  | requestexpired (requestId reason : String)
  | taskdone (taskId : TaskId) (data : Data)
  | taskerror (taskId : TaskId) (error : TaskError Data)
  | request (kind : DataKind) (taskId : TaskId) (requestId : String) (params : Data)

end BrokerMessage

open BrokerMessage

/-- A message that has been sent. -/
inductive Message (Data : Type) where
  | toRunner (runnerId : String) (message : ToRunner Data)
  | toRequester (requesterId : String) (message : ToRequester Data)

inductive RunnerMessage (Data : Type) where
  | taskaccepted (taskId : TaskId)
  | taskrejected (taskId : TaskId) (reason : String)
  | taskdeferred (taskId : TaskId)
  | taskoffer (taskType offerId : String) (validFor : Int)
  | taskdone (taskId : TaskId) (data : Data)
  | taskerror (taskId : TaskId) (error : Data)
  | request (kind : DataKind) (taskId : TaskId) (requestId : String) (params : Data)

inductive RequesterMessage (Data : Type) where
  | tasksettings (taskId : TaskId) (settings : Data)
  | taskcancel (taskId : TaskId) (reason : String)
  | taskrequest (taskType requestId : String)
  | response (kind : DataKind) (taskId : TaskId) (requestId : String) (data : Data)

/-! ### Suspended methods -/

/-- How the promise that waits for the runner is settled. -/
inductive RunnerOutcome where
  | accepted
  | rejected (reason : String)
  | deferred
  | timedOut
  deriving DecidableEq, Repr

/-- How the promise that waits for the requester is settled. -/
inductive RequesterOutcome (Data : Type) where
  | settings (settings : Data)
  | rejected (reason : String)
  | timedOut

/-- The await at which a call of `acceptOffer` stands. -/
inductive AcceptPhase (Data : Type) where
  | awaitingRunner (outcome : Option RunnerOutcome)
  | awaitingRequester (outcome : Option (RequesterOutcome Data))
  | gettingRunner (runnerId : String) (settings : Data)
  | sendingSettings

structure AcceptOffer (Data : Type) where
  offer : TaskOffer
  request : TaskRequest
  phase : AcceptPhase Data

/-- What another method does after the await at which it stands. -/
inductive Suspended (Data : Type) where
  | deleteTask (taskId : TaskId)
  | taskErrorHandler (taskId : TaskId) (error : TaskError Data)
  | messageRunner (runnerId : String) (message : ToRunner Data)

inductive Timer where
  | requestTimeout (requestId : String)
  | taskTimeout (taskId : TaskId)
  deriving DecidableEq, Repr

/-- The fields of the service, and below them what the runtime keeps for it: the fields
`timeout` and `acceptInProgress` of the request objects, the suspended methods, the running
timers, the next number for an id, a timer or a reference, and the messages sent.
-/
structure TaskBroker (Data : Type) where
  config : TaskRunnersConfig
  knownRunners : List String
  requesters : List String
  tasks : Dict TaskId Task
  isDraining : Bool
  runnerAcceptRejects : List TaskId
  requesterAcceptRejects : List TaskId
  pendingTaskOffers : List TaskOffer
  pendingTaskRequests : List TaskRequest
  requestTimeouts : Dict Nat Nat
  acceptInProgress : List Nat
  acceptOffers : Dict TaskId (AcceptOffer Data)
  suspended : List (Suspended Data)
  timers : Dict Nat Timer
  nextNumber : Nat
  sent : List (Message Data)

namespace TaskBroker

variable {Data : Type}

def new (config : TaskRunnersConfig) : TaskBroker Data where
  config
  knownRunners := []
  requesters := []
  tasks := .empty
  isDraining := false
  runnerAcceptRejects := []
  requesterAcceptRejects := []
  pendingTaskOffers := []
  pendingTaskRequests := []
  requestTimeouts := .empty
  acceptInProgress := []
  acceptOffers := .empty
  suspended := []
  timers := .empty
  nextNumber := 0
  sent := []

def clearTimeout (self : TaskBroker Data) (timeout : Option Nat) : TaskBroker Data :=
  match timeout with
  | none => self
  | some timer => { self with timers := self.timers.delete timer }

/-- `setTimeout`; the new timer is `self.nextNumber`. -/
def setTimeout (self : TaskBroker Data) (timer : Timer) : TaskBroker Data :=
  { self with
    timers := self.timers.set self.nextNumber timer
    nextNumber := self.nextNumber + 1
  }

/-- A runner that is not known gets no message. -/
def messageRunner (self : TaskBroker Data) (runnerId : String) (message : ToRunner Data)
    : TaskBroker Data :=
  if runnerId ∈ self.knownRunners then
    { self with sent := self.sent ++ [.toRunner runnerId message] }
  else self

def messageRequester (self : TaskBroker Data) (requesterId : String)
    (message : ToRequester Data)
    : TaskBroker Data :=
  if requesterId ∈ self.requesters then
    { self with sent := self.sent ++ [.toRequester requesterId message] }
  else self

def suspend (self : TaskBroker Data) (method : Suspended Data) : TaskBroker Data :=
  { self with suspended := self.suspended ++ [method] }

/-! ### Requests -/

/-- The first pending request with the id. -/
def findRequest (self : TaskBroker Data) (requestId : String) : Option TaskRequest :=
  self.pendingTaskRequests.find? (fun request => request.requestId = requestId)

/-- Removes the first pending request with the id. -/
def spliceRequest (self : TaskBroker Data) (requestId : String) : TaskBroker Data :=
  { self with
    pendingTaskRequests :=
      self.pendingTaskRequests.eraseP (fun request => request.requestId = requestId)
  }

def handleRequestTimeout (self : TaskBroker Data) (requestId : String) : TaskBroker Data :=
  match self.findRequest requestId with
  | none => self
  | some request =>
      let self := self.spliceRequest requestId
      let self := self.clearTimeout (self.requestTimeouts.get? request.reference)
      self.messageRequester request.requesterId
        (.requestexpired request.requestId "timeout")

def expireTasks (self : TaskBroker Data) (now : Int) : TaskBroker Data :=
  { self with
    pendingTaskOffers :=
      self.pendingTaskOffers.filter (fun offer =>
        offer.validFor = -1 ∨ ¬offer.validUntil < now)
  }

/-- `acceptOffer` up to its first await. -/
def acceptOffer (self : TaskBroker Data) (offer : TaskOffer) (request : TaskRequest)
    : TaskBroker Data :=
  let taskId := self.nextNumber
  let self :=
    { self with
      nextNumber := self.nextNumber + 1
      runnerAcceptRejects := self.runnerAcceptRejects ++ [taskId]
      acceptOffers := self.acceptOffers.set taskId ⟨offer, request, .awaitingRunner none⟩
    }
  self.messageRunner offer.runnerId (.taskofferaccept offer.offerId taskId)

/-- One turn of the loop over the pending requests. -/
def settleRequest (self : TaskBroker Data) (request : TaskRequest) : TaskBroker Data :=
  if request.reference ∈ self.acceptInProgress then self
  else
    match self.pendingTaskOffers.find? (fun offer => offer.taskType = request.taskType) with
    | none => self
    | some offer =>
        let self :=
          { self with
            acceptInProgress := self.acceptInProgress ++ [request.reference]
            pendingTaskOffers :=
              self.pendingTaskOffers.eraseP (fun offer =>
                offer.taskType = request.taskType)
          }
        self.acceptOffer offer request

def settleTasks (self : TaskBroker Data) (now : Int) : TaskBroker Data :=
  let self := self.expireTasks now
  self.pendingTaskRequests.foldl settleRequest self

def taskRequested (self : TaskBroker Data) (request : TaskRequest) (now : Int)
    : TaskBroker Data :=
  if self.isDraining then
    let self := self.clearTimeout (self.requestTimeouts.get? request.reference)
    self.messageRequester request.requesterId (.requestexpired request.requestId "draining")
  else
    let self := { self with pendingTaskRequests := self.pendingTaskRequests ++ [request] }
    self.settleTasks now

/-- The request that a message asks for, with a timer of its own. -/
def requestTask (self : TaskBroker Data) (requesterId taskType requestId : String)
    (now : Int)
    : TaskBroker Data :=
  let timer := self.nextNumber
  let self := self.setTimeout (.requestTimeout requestId)
  let reference := self.nextNumber
  let self :=
    { self with
      nextNumber := self.nextNumber + 1
      requestTimeouts := self.requestTimeouts.set reference timer
    }
  self.taskRequested { reference, requestId, requesterId, taskType } now

def taskOffered (self : TaskBroker Data) (offer : TaskOffer) (now : Int) : TaskBroker Data :=
  let self := { self with pendingTaskOffers := self.pendingTaskOffers ++ [offer] }
  self.settleTasks now

/-! ### Tasks -/

/-- The await at its end does not matter: nothing follows it. -/
def cancelTask (self : TaskBroker Data) (taskId : TaskId) (reason : String)
    : TaskBroker Data :=
  match self.tasks.get? taskId with
  | none => self
  | some task =>
      let self := { self with tasks := self.tasks.delete taskId }
      self.messageRunner task.runnerId (.taskcancel taskId reason)

def failTask (self : TaskBroker Data) (taskId : TaskId) (error : TaskError Data)
    : TaskBroker Data :=
  match self.tasks.get? taskId with
  | none => self
  | some task =>
      let self := { self with tasks := self.tasks.delete taskId }
      self.messageRequester task.requesterId (.taskerror taskId error)

/-- Answers the runner's id, if neither the task nor the runner is missing. -/
def getRunnerOrFailTask (self : TaskBroker Data) (taskId : TaskId)
    : Option String × TaskBroker Data :=
  match self.tasks.get? taskId with
  | none => (none, self)
  | some task =>
      if task.runnerId ∈ self.knownRunners then (some task.runnerId, self)
      else
        (none,
          self.failTask taskId
            (.unexpected
              ("Cannot find runner, failed to find runner (" ++ task.runnerId ++ ")")))

/-- `taskDoneHandler` up to its await; the task is deleted after it. -/
def taskDoneHandler (self : TaskBroker Data) (taskId : TaskId) (data : Data)
    : TaskBroker Data :=
  match self.tasks.get? taskId with
  | none => self
  | some task =>
      let self := self.clearTimeout task.timeout
      let self := self.messageRequester task.requesterId (.taskdone task.id data)
      self.suspend (.deleteTask task.id)

def taskErrorHandler (self : TaskBroker Data) (taskId : TaskId) (error : TaskError Data)
    : TaskBroker Data :=
  match self.tasks.get? taskId with
  | none => self
  | some task =>
      let self := self.clearTimeout task.timeout
      let self := self.messageRequester task.requesterId (.taskerror task.id error)
      self.suspend (.deleteTask task.id)

/-- In mode `external` the error follows after the runner has been told. -/
def handleTaskTimeout (self : TaskBroker Data) (taskId : TaskId) : TaskBroker Data :=
  match self.tasks.get? taskId with
  | none => self
  | some task =>
      match self.config.mode with
      | .internal => self.taskErrorHandler taskId (.executionTimeout self.config)
      | .external =>
          let self :=
            self.messageRunner task.runnerId
              (.taskcancel taskId "Task execution timed out")
          self.suspend (.taskErrorHandler taskId (.executionTimeout self.config))

/-! ### Promises of `acceptOffer` -/

def setPhase (self : TaskBroker Data) (taskId : TaskId) (accept : AcceptOffer Data)
    (phase : AcceptPhase Data)
    : TaskBroker Data :=
  { self with acceptOffers := self.acceptOffers.set taskId { accept with phase } }

/-- Settles the promise that waits for the runner, unless it is settled or abandoned. -/
def settleRunner (self : TaskBroker Data) (taskId : TaskId) (outcome : RunnerOutcome)
    : TaskBroker Data :=
  match self.acceptOffers.get? taskId with
  | some ⟨offer, request, .awaitingRunner none⟩ =>
      self.setPhase taskId ⟨offer, request, .awaitingRunner none⟩
        (.awaitingRunner (some outcome))
  | _ => self

def settleRequester (self : TaskBroker Data) (taskId : TaskId)
    (outcome : RequesterOutcome Data)
    : TaskBroker Data :=
  match self.acceptOffers.get? taskId with
  | some ⟨offer, request, .awaitingRequester none⟩ =>
      self.setPhase taskId ⟨offer, request, .awaitingRequester none⟩
        (.awaitingRequester (some outcome))
  | _ => self

/-- `handleRunnerAccept`, `handleRunnerReject` and `handleRunnerDeferred`. -/
def handleRunnerOutcome (self : TaskBroker Data) (taskId : TaskId) (outcome : RunnerOutcome)
    : TaskBroker Data :=
  if taskId ∈ self.runnerAcceptRejects then
    let self := self.settleRunner taskId outcome
    { self with runnerAcceptRejects := self.runnerAcceptRejects.erase taskId }
  else self

def handleRunnerAccept (self : TaskBroker Data) (taskId : TaskId) : TaskBroker Data :=
  self.handleRunnerOutcome taskId .accepted

def handleRunnerReject (self : TaskBroker Data) (taskId : TaskId) (reason : String)
    : TaskBroker Data :=
  self.handleRunnerOutcome taskId (.rejected reason)

def handleRunnerDeferred (self : TaskBroker Data) (taskId : TaskId) : TaskBroker Data :=
  self.handleRunnerOutcome taskId .deferred

def handleRequesterOutcome (self : TaskBroker Data) (taskId : TaskId)
    (outcome : RequesterOutcome Data)
    : TaskBroker Data :=
  if taskId ∈ self.requesterAcceptRejects then
    let self := self.settleRequester taskId outcome
    { self with requesterAcceptRejects := self.requesterAcceptRejects.erase taskId }
  else self

def handleRequesterAccept (self : TaskBroker Data) (taskId : TaskId) (settings : Data)
    : TaskBroker Data :=
  self.handleRequesterOutcome taskId (.settings settings)

def handleRequesterReject (self : TaskBroker Data) (taskId : TaskId) (reason : String)
    : TaskBroker Data :=
  self.handleRequesterOutcome taskId (.rejected reason)

/-! ### `acceptOffer` after its awaits -/

/-- The call has returned or thrown. -/
def endAccept (self : TaskBroker Data) (taskId : TaskId) : TaskBroker Data :=
  { self with acceptOffers := self.acceptOffers.delete taskId }

/-- The `catch` of the first part: `request.acceptInProgress = false`. -/
def releaseRequest (self : TaskBroker Data) (request : TaskRequest) : TaskBroker Data :=
  { self with
    acceptInProgress :=
      self.acceptInProgress.filter (fun reference => reference ≠ request.reference)
  }

/-- The request waits again for an offer, with a new timer. -/
def deferRequest (self : TaskBroker Data) (request : TaskRequest) : TaskBroker Data :=
  let self := self.clearTimeout (self.requestTimeouts.get? request.reference)
  let timer := self.nextNumber
  let self := self.setTimeout (.requestTimeout request.requestId)
  { self with
    requestTimeouts := self.requestTimeouts.set request.reference timer
    pendingTaskRequests := self.pendingTaskRequests ++ [request]
  }

/-- `tasks.set(taskId, task)` for the task that a runner has accepted. -/
def registerTask (self : TaskBroker Data) (taskId : TaskId) (accept : AcceptOffer Data)
    : TaskBroker Data :=
  let { offer, request, .. } := accept
  let self := self.clearTimeout (self.requestTimeouts.get? request.reference)
  { self with
    tasks :=
      self.tasks.set taskId
        {
          id := taskId
          runnerId := offer.runnerId
          requesterId := request.requesterId
          taskType := offer.taskType
          timeout := none
        }
  }

/-- Tells the requester that the task is ready, and waits for its settings. -/
def announceTask (self : TaskBroker Data) (taskId : TaskId) (accept : AcceptOffer Data)
    : TaskBroker Data :=
  let { request, .. } := accept
  let self :=
    { self with requesterAcceptRejects := self.requesterAcceptRejects ++ [taskId] }
  let self := self.setPhase taskId accept (.awaitingRequester none)
  self.messageRequester request.requesterId (.taskready request.requestId taskId)

/-- A runner has accepted. A request that is not pending any more is only reported. -/
def taskAccepted (self : TaskBroker Data) (taskId : TaskId) (accept : AcceptOffer Data)
    : TaskBroker Data :=
  let self := self.registerTask taskId accept
  match self.findRequest accept.request.requestId with
  | none => self.endAccept taskId
  | some _ => (self.spliceRequest accept.request.requestId).announceTask taskId accept

def resumeAfterRunner (self : TaskBroker Data) (taskId : TaskId) (accept : AcceptOffer Data)
    (outcome : RunnerOutcome)
    : TaskBroker Data :=
  match outcome with
  | .accepted => self.taskAccepted taskId accept
  | .deferred =>
      let self := self.releaseRequest accept.request
      (self.deferRequest accept.request).endAccept taskId
  | .rejected _ => (self.releaseRequest accept.request).endAccept taskId
  | .timedOut => (self.releaseRequest accept.request).endAccept taskId

/-- `sendTaskSettings` first waits for the runner; without one the call throws, and the
`catch` finds no task to cancel.
-/
def resumeAfterRequester (self : TaskBroker Data) (taskId : TaskId)
    (accept : AcceptOffer Data) (outcome : RequesterOutcome Data)
    : TaskBroker Data :=
  match outcome with
  | .settings settings =>
      match self.getRunnerOrFailTask taskId with
      | (none, self) => self.endAccept taskId
      | (some runnerId, self) => self.setPhase taskId accept (.gettingRunner runnerId settings)
  | .rejected reason => (self.cancelTask taskId reason).endAccept taskId
  | .timedOut => (self.cancelTask taskId "Unknown reason").endAccept taskId

/-- `sendTaskSettings` after it has found the runner. -/
def sendTaskSettings (self : TaskBroker Data) (taskId : TaskId) (accept : AcceptOffer Data)
    (runnerId : String) (settings : Data)
    : TaskBroker Data :=
  match self.tasks.get? taskId with
  | none => self.endAccept taskId
  | some task =>
      let timer := self.nextNumber
      let self := self.setTimeout (.taskTimeout taskId)
      let self :=
        { self with tasks := self.tasks.set taskId { task with timeout := some timer } }
      let self := self.setPhase taskId accept .sendingSettings
      self.messageRunner runnerId (.tasksettings taskId settings)

/-- A call of `acceptOffer` runs on from its await, if what it awaits is settled. -/
def resumeAccept (self : TaskBroker Data) (taskId : TaskId) : Option (TaskBroker Data) :=
  match self.acceptOffers.get? taskId with
  | none => none
  | some accept =>
      match accept.phase with
      | .awaitingRunner none => none
      | .awaitingRunner (some outcome) => some (self.resumeAfterRunner taskId accept outcome)
      | .awaitingRequester none => none
      | .awaitingRequester (some outcome) =>
          some (self.resumeAfterRequester taskId accept outcome)
      | .gettingRunner runnerId settings =>
          some (self.sendTaskSettings taskId accept runnerId settings)
      | .sendingSettings => some (self.endAccept taskId)

/-- Sending the message at which a call of `acceptOffer` stands has thrown. -/
def failAccept (self : TaskBroker Data) (taskId : TaskId) : Option (TaskBroker Data) :=
  match self.acceptOffers.get? taskId with
  | none => none
  | some accept =>
      match accept.phase with
      | .awaitingRunner _ => some ((self.releaseRequest accept.request).endAccept taskId)
      | .awaitingRequester _ =>
          some ((self.cancelTask taskId "Unknown reason").endAccept taskId)
      | .gettingRunner _ _ => none
      | .sendingSettings => some ((self.cancelTask taskId "Unknown reason").endAccept taskId)

def runSuspended (self : TaskBroker Data) (method : Suspended Data) : TaskBroker Data :=
  match method with
  | .deleteTask taskId => { self with tasks := self.tasks.delete taskId }
  | .taskErrorHandler taskId error => self.taskErrorHandler taskId error
  | .messageRunner runnerId message => self.messageRunner runnerId message

/-! ### Registration and incoming messages -/

def registerRunner (self : TaskBroker Data) (runnerId : String) : TaskBroker Data :=
  let self :=
    { self with
      knownRunners :=
        if runnerId ∈ self.knownRunners then self.knownRunners
        else self.knownRunners ++ [runnerId]
    }
  self.messageRunner runnerId .runnerregistered

/-- Fails the task of a runner that has left. -/
def failRunnerTask (runnerId message : String) (self : TaskBroker Data) (task : Task)
    : TaskBroker Data :=
  if task.runnerId = runnerId then
    let self := self.failTask task.id (.disconnected message)
    self.handleRunnerReject task.id
      ("The Task Runner (" ++ runnerId ++ ") has disconnected: " ++ message)
  else self

def deregisterRunner (self : TaskBroker Data) (runnerId message : String)
    : TaskBroker Data :=
  let self :=
    { self with
      knownRunners := self.knownRunners.erase runnerId
      pendingTaskOffers :=
        self.pendingTaskOffers.filter (fun offer => offer.runnerId ≠ runnerId)
    }
  self.tasks.values.foldl (failRunnerTask runnerId message) self

def registerRequester (self : TaskBroker Data) (requesterId : String) : TaskBroker Data :=
  { self with
    requesters :=
      if requesterId ∈ self.requesters then self.requesters
      else self.requesters ++ [requesterId]
  }

def deregisterRequester (self : TaskBroker Data) (requesterId : String)
    : TaskBroker Data :=
  { self with requesters := self.requesters.erase requesterId }

/-- `handleDataRequest`, `handleNodeTypesRequest` and `handleRpcRequest`. -/
def handleRequest (self : TaskBroker Data) (kind : DataKind) (taskId : TaskId)
    (requestId : String) (params : Data)
    : TaskBroker Data :=
  match self.tasks.get? taskId with
  | none => self
  | some task =>
      self.messageRequester task.requesterId (.request kind taskId requestId params)

/-- `handleRequesterDataResponse`, `handleRequesterNodeTypesResponse` and
`handleRequesterRpcResponse`: they wait until the runner is found.
-/
def handleRequesterResponse (self : TaskBroker Data) (kind : DataKind) (taskId : TaskId)
    (requestId : String) (data : Data)
    : TaskBroker Data :=
  match self.getRunnerOrFailTask taskId with
  | (none, self) => self
  | (some runnerId, self) =>
      self.suspend (.messageRunner runnerId (.response kind taskId requestId data))

def onRunnerMessage (self : TaskBroker Data) (runnerId : String)
    (message : RunnerMessage Data) (now : Int)
    : TaskBroker Data :=
  if runnerId ∈ self.knownRunners then
    match message with
    | .taskaccepted taskId => self.handleRunnerAccept taskId
    | .taskrejected taskId reason => self.handleRunnerReject taskId reason
    | .taskdeferred taskId => self.handleRunnerDeferred taskId
    | .taskoffer taskType offerId validFor =>
        self.taskOffered
          {
            runnerId
            taskType
            offerId
            validFor
            validUntil := if validFor = -1 then 0 else now + validFor * 1000000
          }
          now
    | .taskdone taskId data => self.taskDoneHandler taskId data
    | .taskerror taskId error => self.taskErrorHandler taskId (.reported error)
    | .request kind taskId requestId params => self.handleRequest kind taskId requestId params
  else self

def onRequesterMessage (self : TaskBroker Data) (requesterId : String)
    (message : RequesterMessage Data) (now : Int)
    : TaskBroker Data :=
  match message with
  | .tasksettings taskId settings => self.handleRequesterAccept taskId settings
  | .taskcancel taskId reason => self.cancelTask taskId reason
  | .taskrequest taskType requestId => self.requestTask requesterId taskType requestId now
  | .response kind taskId requestId data =>
      self.handleRequesterResponse kind taskId requestId data

/-! ### The steps -/

/-- What can happen between two awaits. `now` is the clock that the handlers read. -/
inductive Event (Data : Type) where
  | registerRunner (runnerId : String)
  | deregisterRunner (runnerId message : String)
  | registerRequester (requesterId : String)
  | deregisterRequester (requesterId : String)
  | runnerMessage (runnerId : String) (message : RunnerMessage Data) (now : Int)
  | requesterMessage (requesterId : String) (message : RequesterMessage Data) (now : Int)
  | requesterReject (taskId : TaskId) (reason : String)
  | timer (timer : Nat)
  | runnerAcceptTimeout (taskId : TaskId)
  | requesterAcceptTimeout (taskId : TaskId)
  | resumeAccept (taskId : TaskId)
  | failAccept (taskId : TaskId)
  | resumeSuspended (index : Nat)
  | failSuspended (index : Nat)
  | setDraining (isDraining : Bool)

/-- A timer fires once. -/
def fireTimer (self : TaskBroker Data) (timer : Nat) : Option (TaskBroker Data) :=
  match self.timers.get? timer with
  | none => none
  | some what =>
      let self := { self with timers := self.timers.delete timer }
      match what with
      | .requestTimeout requestId => some (self.handleRequestTimeout requestId)
      | .taskTimeout taskId => some (self.handleTaskTimeout taskId)

def resumeSuspended (self : TaskBroker Data) (index : Nat) : Option (TaskBroker Data) :=
  match self.suspended[index]? with
  | none => none
  | some method =>
      let self := { self with suspended := self.suspended.eraseIdx index }
      some (self.runSuspended method)

/-- The message at which the method stands could not be sent. -/
def failSuspended (self : TaskBroker Data) (index : Nat) : Option (TaskBroker Data) :=
  if index < self.suspended.length then
    some { self with suspended := self.suspended.eraseIdx index }
  else none

def step (self : TaskBroker Data) (event : Event Data) : Option (TaskBroker Data) :=
  match event with
  | .registerRunner runnerId => some (self.registerRunner runnerId)
  | .deregisterRunner runnerId message => some (self.deregisterRunner runnerId message)
  | .registerRequester requesterId => some (self.registerRequester requesterId)
  | .deregisterRequester requesterId => some (self.deregisterRequester requesterId)
  | .runnerMessage runnerId message now => some (self.onRunnerMessage runnerId message now)
  | .requesterMessage requesterId message now =>
      some (self.onRequesterMessage requesterId message now)
  | .requesterReject taskId reason => some (self.handleRequesterReject taskId reason)
  | .timer timer => self.fireTimer timer
  | .runnerAcceptTimeout taskId => some (self.settleRunner taskId .timedOut)
  | .requesterAcceptTimeout taskId => some (self.settleRequester taskId .timedOut)
  | .resumeAccept taskId => self.resumeAccept taskId
  | .failAccept taskId => self.failAccept taskId
  | .resumeSuspended index => self.resumeSuspended index
  | .failSuspended index => self.failSuspended index
  | .setDraining isDraining => some { self with isDraining }

end TaskBroker

end N8n.TaskRunners
