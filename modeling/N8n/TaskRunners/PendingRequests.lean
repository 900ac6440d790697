import N8n.Library.Ledger
import N8n.Library.Runs
import N8n.TaskRunners.TaskMethods

/-! The pending requests of the broker over whole runs. Only a deferral puts a request back
that is pending already, or whose end its requester has been told.
-/

namespace N8n.TaskRunners

open Runs

/-- The request that a message tells its requester the end of. -/
def Message.ends? {Data : Type} : Message Data → Option String
  | .toRequester _ (.requestexpired requestId _) => some requestId
  | .toRequester _ (.taskready requestId _) => some requestId
  | _ => none

variable {requesterId : String} {taskId : TaskId}

namespace TaskBroker

variable {Data : Type} (self : TaskBroker Data)

/-- The ids of the pending requests, and those whose end has been sent. -/
def ledger : Ledger String where
  pending := self.pendingTaskRequests.map TaskRequest.requestId
  ended := self.sent.filterMap Message.ends?

@[simp] theorem clearTimeout_ledger (timeout : Option Nat)
    : (self.clearTimeout timeout).ledger = self.ledger := by
  cases timeout <;> rfl

@[simp] theorem suspend_ledger (method : Suspended Data)
    : (self.suspend method).ledger = self.ledger := rfl

@[simp] theorem setPhase_ledger (taskId : TaskId) (accept : AcceptOffer Data)
    (phase : AcceptPhase Data)
    : (self.setPhase taskId accept phase).ledger = self.ledger := rfl

@[simp] theorem endAccept_ledger (taskId : TaskId)
    : (self.endAccept taskId).ledger = self.ledger := rfl

@[simp] theorem messageRunner_ledger (runnerId : String)
    (message : BrokerMessage.ToRunner Data)
    : (self.messageRunner runnerId message).ledger = self.ledger := by
  unfold messageRunner
  split
  · simp [ledger, Message.ends?]
  · rfl

theorem messageRequester_ledger {message : BrokerMessage.ToRequester Data}
    (quiet : (Message.toRequester requesterId message).ends? = none)
    : (self.messageRequester requesterId message).ledger = self.ledger := by
  unfold messageRequester
  split
  · simp [ledger, quiet]
  · rfl

theorem ledger_carries
    : Carries (fun message : Message Data => message.ends? = none)
        (fun before after => after.ledger = before.ledger) where
  refl _ := rfl
  trans first second := second.trans first
  aboutTask message about := by
    cases message with
    | toRunner _ _ => rfl
    | toRequester _ message => cases message <;> first | rfl | exact about.elim
  clearTimeout := clearTimeout_ledger
  suspend self method _ := suspend_ledger self method
  deleteTask _ _ := rfl
  messageRunner self runnerId message _ := messageRunner_ledger self runnerId message
  messageRequester self _ _ quiet := messageRequester_ledger self quiet

@[simp] theorem acceptOffer_ledger (offer : TaskOffer) (request : TaskRequest)
    : (self.acceptOffer offer request).ledger = self.ledger := by
  unfold acceptOffer
  exact messageRunner_ledger _ _ _

@[simp] theorem settleRequest_ledger (request : TaskRequest)
    : (self.settleRequest request).ledger = self.ledger := by
  unfold settleRequest
  split
  · rfl
  · split
    · rfl
    · exact acceptOffer_ledger _ _ _

@[simp] theorem settleTasks_ledger (now : Int)
    : (self.settleTasks now).ledger = self.ledger :=
  ledger_carries.foldl (self.expireTasks now) settleRequest_ledger _

@[simp] theorem taskOffered_ledger (offer : TaskOffer) (now : Int)
    : (self.taskOffered offer now).ledger = self.ledger :=
  settleTasks_ledger _ _

@[simp] theorem cancelTask_ledger (taskId : TaskId) (reason : String)
    : (self.cancelTask taskId reason).ledger = self.ledger :=
  ledger_carries.cancelTask self taskId reason

@[simp] theorem failTask_ledger (taskId : TaskId) (error : TaskError Data)
    : (self.failTask taskId error).ledger = self.ledger :=
  ledger_carries.failTask self taskId error

@[simp] theorem getRunnerOrFailTask_ledger (taskId : TaskId)
    : (self.getRunnerOrFailTask taskId).2.ledger = self.ledger :=
  ledger_carries.getRunnerOrFailTask self taskId

@[simp] theorem taskDoneHandler_ledger (taskId : TaskId) (data : Data)
    : (self.taskDoneHandler taskId data).ledger = self.ledger :=
  ledger_carries.taskDoneHandler self taskId data

@[simp] theorem taskErrorHandler_ledger (taskId : TaskId) (error : TaskError Data)
    : (self.taskErrorHandler taskId error).ledger = self.ledger :=
  ledger_carries.taskErrorHandler self taskId error

@[simp] theorem handleTaskTimeout_ledger (taskId : TaskId)
    : (self.handleTaskTimeout taskId).ledger = self.ledger :=
  ledger_carries.handleTaskTimeout self taskId

@[simp] theorem settleRunner_ledger (taskId : TaskId) (outcome : RunnerOutcome)
    : (self.settleRunner taskId outcome).ledger = self.ledger := by
  unfold settleRunner
  split <;> rfl

@[simp] theorem settleRequester_ledger (taskId : TaskId) (outcome : RequesterOutcome Data)
    : (self.settleRequester taskId outcome).ledger = self.ledger := by
  unfold settleRequester
  split <;> rfl

@[simp] theorem handleRunnerOutcome_ledger (taskId : TaskId) (outcome : RunnerOutcome)
    : (self.handleRunnerOutcome taskId outcome).ledger = self.ledger := by
  unfold handleRunnerOutcome
  split
  · exact settleRunner_ledger _ _ _
  · rfl

@[simp] theorem handleRequesterOutcome_ledger (taskId : TaskId)
    (outcome : RequesterOutcome Data)
    : (self.handleRequesterOutcome taskId outcome).ledger = self.ledger := by
  unfold handleRequesterOutcome
  split
  · exact settleRequester_ledger _ _ _
  · rfl

@[simp] theorem runSuspended_ledger (method : Suspended Data)
    : (self.runSuspended method).ledger = self.ledger := by
  refine ledger_carries.runSuspended self ?_
  cases method <;> trivial

@[simp] theorem deregisterRunner_ledger (runnerId message : String)
    : (self.deregisterRunner runnerId message).ledger = self.ledger := by
  have each (self : TaskBroker Data) (task : Task)
      : (failRunnerTask runnerId message self task).ledger = self.ledger := by
    unfold failRunnerTask
    split
    · exact (handleRunnerOutcome_ledger _ _ _).trans (failTask_ledger _ _ _)
    · rfl
  exact ledger_carries.foldl _ each _

@[simp] theorem handleRequest_ledger (kind : DataKind) (taskId : TaskId)
    (requestId : String) (params : Data)
    : (self.handleRequest kind taskId requestId params).ledger = self.ledger :=
  ledger_carries.handleRequest self kind taskId requestId params

@[simp] theorem handleRequesterResponse_ledger (kind : DataKind) (taskId : TaskId)
    (requestId : String) (data : Data)
    : (self.handleRequesterResponse kind taskId requestId data).ledger = self.ledger :=
  ledger_carries.handleRequesterResponse self kind taskId requestId data

@[simp] theorem sendTaskSettings_ledger (taskId : TaskId) (accept : AcceptOffer Data)
    (runnerId : String) (settings : Data)
    : (self.sendTaskSettings taskId accept runnerId settings).ledger = self.ledger := by
  unfold sendTaskSettings
  split
  · rfl
  · exact messageRunner_ledger _ _ _

@[simp] theorem resumeAfterRequester_ledger (taskId : TaskId) (accept : AcceptOffer Data)
    (outcome : RequesterOutcome Data)
    : (self.resumeAfterRequester taskId accept outcome).ledger = self.ledger := by
  have found := getRunnerOrFailTask_ledger self taskId
  cases outcome with
  | settings settings =>
      unfold resumeAfterRequester
      simp only
      split
      · next result same => rwa [same] at found
      · next runnerId result same => rwa [same] at found
  | _ => exact cancelTask_ledger _ _ _

/-- A runner's message never touches the requests. -/
@[simp] theorem onRunnerMessage_ledger (runnerId : String) (message : RunnerMessage Data)
    (now : Int)
    : (self.onRunnerMessage runnerId message now).ledger = self.ledger := by
  unfold onRunnerMessage
  split
  · cases message with
    | taskoffer taskType offerId validFor => exact taskOffered_ledger _ _ _
    | taskdone taskId data => exact taskDoneHandler_ledger _ _ _
    | taskerror taskId error => exact taskErrorHandler_ledger _ _ _
    | request kind taskId requestId params => exact handleRequest_ledger _ _ _ _ _
    | _ => exact handleRunnerOutcome_ledger _ _ _
  · rfl

theorem spliceRequest_ledger (requestId : String)
    : (self.spliceRequest requestId).ledger
      = ⟨self.ledger.pending.erase requestId, self.ledger.ended⟩ := by
  rw [ledger, spliceRequest, Ledger.map_eraseP_eq]
  rfl

/-- The end of a request is told, if its requester is known. -/
theorem messageRequester_ends {requestId : String} {message : BrokerMessage.ToRequester Data}
    (ends : (Message.toRequester requesterId message).ends? = some requestId)
    : (self.messageRequester requesterId message).ledger
      = if requesterId ∈ self.requesters then
          ⟨self.ledger.pending, self.ledger.ended ++ [requestId]⟩
        else self.ledger := by
  unfold messageRequester
  split
  · simp [ledger, ends]
  · rfl

/-- A request is taken from the list, and its end is told or not. -/
theorem spliced_move (requestId : String) {result spliced : TaskBroker Data} {known : Prop}
    [Decidable known]
    (splices
      : spliced.ledger = ⟨self.ledger.pending.erase requestId, self.ledger.ended⟩)
    (told
      : result.ledger
        = if known then ⟨spliced.ledger.pending, spliced.ledger.ended ++ [requestId]⟩
          else spliced.ledger)
    : self.ledger.Move result.ledger := by
  rw [splices] at told
  rw [told]
  split
  · exact .closed requestId
  · exact .dropped requestId

theorem handleRequestTimeout_move (requestId : String)
    : self.ledger.Move (self.handleRequestTimeout requestId).ledger := by
  unfold handleRequestTimeout
  split
  · exact .keep
  · next request found =>
      have same : request.requestId = requestId := by simpa using List.find?_some found
      refine spliced_move self requestId ?_ (messageRequester_ends _ ?_)
      · rw [clearTimeout_ledger]
        exact spliceRequest_ledger self requestId
      · exact congrArg some same

/-- A request may come: its id is new, or it is only told that the broker is draining. -/
def IsFresh (requesterId requestId : String) : Prop :=
  if self.isDraining then requesterId ∈ self.requesters → requestId ∉ self.ledger.pending
  else requestId ∉ self.ledger.pending ∧ requestId ∉ self.ledger.ended

theorem taskRequested_draining {request : TaskRequest} (now : Int)
    (draining : self.isDraining = true)
    : (self.taskRequested request now).ledger
      = if request.requesterId ∈ self.requesters then
          ⟨self.ledger.pending, self.ledger.ended ++ [request.requestId]⟩
        else self.ledger := by
  have requesters
      : (self.clearTimeout (self.requestTimeouts.get? request.reference)).requesters
        = self.requesters := by
    cases self.requestTimeouts.get? request.reference <;> rfl
  rw [taskRequested, if_pos draining]
  refine (messageRequester_ends _ rfl).trans ?_
  rw [requesters, clearTimeout_ledger]

theorem taskRequested_open {request : TaskRequest} (now : Int)
    (running : self.isDraining = false)
    : (self.taskRequested request now).ledger
      = ⟨self.ledger.pending ++ [request.requestId], self.ledger.ended⟩ := by
  rw [taskRequested, if_neg (by simp [running]), settleTasks_ledger]
  simp [ledger]

/-- A request leaves the ledger well kept exactly if it may come. -/
theorem taskRequested_wellKept_iff (request : TaskRequest) (now : Int)
    (kept : self.ledger.WellKept)
    : (self.taskRequested request now).ledger.WellKept
      ↔ self.IsFresh request.requesterId request.requestId := by
  unfold IsFresh
  cases draining : self.isDraining with
  | true =>
      rw [taskRequested_draining self now draining]
      simp only [if_true]
      split
      · next known => exact kept.ended_iff.trans (by simp [known])
      · next unknown => exact iff_of_true kept (fun known => absurd known unknown)
  | false =>
      rw [taskRequested_open self now draining]
      exact kept.opened_iff

@[simp] theorem registerTask_ledger (taskId : TaskId) (accept : AcceptOffer Data)
    : (self.registerTask taskId accept).ledger = self.ledger :=
  clearTimeout_ledger self (self.requestTimeouts.get? accept.request.reference)

theorem taskAccepted_move (taskId : TaskId) (accept : AcceptOffer Data)
    : self.ledger.Move (self.taskAccepted taskId accept).ledger := by
  unfold taskAccepted
  simp only
  split
  · rw [endAccept_ledger, registerTask_ledger]
    exact .keep
  · refine spliced_move self accept.request.requestId ?_ (messageRequester_ends _ rfl)
    rw [setPhase_ledger]
    exact (spliceRequest_ledger _ accept.request.requestId).trans
      (by rw [registerTask_ledger])

/-- A deferral puts the request back, whatever has become of it. -/
theorem deferRequest_ledger (request : TaskRequest)
    : (self.deferRequest request).ledger
      = ⟨self.ledger.pending ++ [request.requestId], self.ledger.ended⟩ := by
  have same := clearTimeout_ledger self (self.requestTimeouts.get? request.reference)
  rw [← same]
  simp [deferRequest, ledger, setTimeout]

theorem requestTask_wellKept_iff (requesterId taskType requestId : String) (now : Int)
    (kept : self.ledger.WellKept)
    : (self.requestTask requesterId taskType requestId now).ledger.WellKept
      ↔ self.IsFresh requesterId requestId :=
  taskRequested_wellKept_iff
    { self.setTimeout (.requestTimeout requestId) with
      nextNumber := (self.setTimeout (.requestTimeout requestId)).nextNumber + 1
      requestTimeouts :=
        (self.setTimeout (.requestTimeout requestId)).requestTimeouts.set
          (self.setTimeout (.requestTimeout requestId)).nextNumber self.nextNumber
    }
    _ now kept

/-- A deferral that takes effect finds its request neither pending nor ended, and a request
comes with an id of its own.
-/
def OpensOnce : Event Data → Prop
  | .resumeAccept taskId =>
      ∀ accept, self.acceptOffers.get? taskId = some accept
        → accept.phase = .awaitingRunner (some .deferred)
        → accept.request.requestId ∉ self.ledger.pending
          ∧ accept.request.requestId ∉ self.ledger.ended
  | .requesterMessage requesterId (.taskrequest _ requestId) _ =>
      self.IsFresh requesterId requestId
  | _ => True

variable {self} {next : TaskBroker Data}

theorem fireTimer_move {timer : Nat} (taken : self.fireTimer timer = some next)
    : self.ledger.Move next.ledger := by
  unfold fireTimer at taken
  split at taken
  · contradiction
  · split at taken
    · cases taken
      exact handleRequestTimeout_move { self with timers := self.timers.delete timer } _
    · cases taken
      rw [handleTaskTimeout_ledger]
      exact .keep

theorem failAccept_ledger (taken : self.failAccept taskId = some next)
    : next.ledger = self.ledger := by
  unfold failAccept at taken
  split at taken
  · contradiction
  · split at taken
    · cases taken
      rfl
    · cases taken
      exact cancelTask_ledger _ _ _
    · contradiction
    · cases taken
      exact cancelTask_ledger _ _ _

theorem opensOnce_resumeAccept_iff {accept : AcceptOffer Data}
    (found : self.acceptOffers.get? taskId = some accept)
    : self.OpensOnce (.resumeAccept taskId)
      ↔ (accept.phase = .awaitingRunner (some .deferred)
        → accept.request.requestId ∉ self.ledger.pending
          ∧ accept.request.requestId ∉ self.ledger.ended) := by
  simp only [OpensOnce, found]
  exact ⟨fun all => all accept rfl, fun here other same => Option.some.inj same ▸ here⟩

/-- After its await a call of `acceptOffer` spoils the ledger only by a deferral. -/
theorem resumeAccept_wellKept_iff (kept : self.ledger.WellKept)
    (taken : self.resumeAccept taskId = some next)
    : next.ledger.WellKept ↔ self.OpensOnce (.resumeAccept taskId) := by
  unfold resumeAccept at taken
  split at taken
  · contradiction
  · next accept found =>
      rw [opensOnce_resumeAccept_iff found]
      split at taken
      · contradiction
      · next outcome phase =>
          cases taken
          rw [phase]
          cases outcome with
          | accepted =>
              exact iff_of_true (kept.move (taskAccepted_move self taskId accept)) (by simp)
          | deferred =>
              have pushed := deferRequest_ledger (self.releaseRequest accept.request)
                accept.request
              rw [resumeAfterRunner, endAccept_ledger, pushed]
              exact kept.opened_iff.trans (by simp)
          | _ => exact iff_of_true kept (by simp)
      · contradiction
      · next outcome phase =>
          cases taken
          rw [resumeAfterRequester_ledger, phase]
          exact iff_of_true kept (by simp)
      · next runnerId settings phase =>
          cases taken
          rw [sendTaskSettings_ledger, phase]
          exact iff_of_true kept (by simp)
      · next phase =>
          cases taken
          rw [phase]
          exact iff_of_true kept (by simp)

theorem onRequesterMessage_wellKept_iff {message : RequesterMessage Data} {now : Int}
    (kept : self.ledger.WellKept)
    : (self.onRequesterMessage requesterId message now).ledger.WellKept
      ↔ self.OpensOnce (.requesterMessage requesterId message now) := by
  cases message with
  | tasksettings taskId settings =>
      have same := handleRequesterOutcome_ledger self taskId (.settings settings)
      exact iff_of_true (same ▸ kept) trivial
  | taskcancel taskId reason =>
      exact iff_of_true (cancelTask_ledger self taskId reason ▸ kept) trivial
  | taskrequest taskType requestId =>
      exact requestTask_wellKept_iff self requesterId taskType requestId now kept
  | response kind taskId requestId data =>
      have same := handleRequesterResponse_ledger self kind taskId requestId data
      exact iff_of_true (same ▸ kept) trivial

theorem resumeSuspended_ledger {index : Nat}
    (taken : self.resumeSuspended index = some next)
    : next.ledger = self.ledger := by
  unfold resumeSuspended at taken
  split at taken
  · contradiction
  · cases taken
    rw [runSuspended_ledger]
    rfl

theorem failSuspended_ledger {index : Nat} (taken : self.failSuspended index = some next)
    : next.ledger = self.ledger := by
  unfold failSuspended at taken
  split at taken
  · cases taken
    rfl
  · contradiction

/-- What a step does to the ledger, one case for each kind of event. -/
theorem step_wellKept_iff {event : Event Data} (kept : self.ledger.WellKept)
    (taken : self.step event = some next)
    : next.ledger.WellKept ↔ self.OpensOnce event := by
  have unchanged (same : next.ledger = self.ledger) (opens : self.OpensOnce event)
      : next.ledger.WellKept ↔ self.OpensOnce event :=
    iff_of_true (same ▸ kept) opens
  cases event with
  | timer timer => exact iff_of_true (kept.move (fireTimer_move taken)) trivial
  | resumeAccept taskId => exact resumeAccept_wellKept_iff kept taken
  | failAccept taskId => exact unchanged (failAccept_ledger taken) trivial
  | requesterMessage requesterId message now =>
      cases taken
      exact onRequesterMessage_wellKept_iff kept
  | runnerMessage runnerId message now =>
      cases taken
      exact unchanged (onRunnerMessage_ledger self runnerId message now) trivial
  | registerRunner runnerId =>
      cases taken
      exact unchanged (messageRunner_ledger _ runnerId .runnerregistered) trivial
  | deregisterRunner runnerId message =>
      cases taken
      exact unchanged (deregisterRunner_ledger self runnerId message) trivial
  | requesterReject taskId reason =>
      cases taken
      exact unchanged (handleRequesterOutcome_ledger self taskId (.rejected reason)) trivial
  | runnerAcceptTimeout taskId =>
      cases taken
      exact unchanged (settleRunner_ledger self taskId .timedOut) trivial
  | requesterAcceptTimeout taskId =>
      cases taken
      exact unchanged (settleRequester_ledger self taskId .timedOut) trivial
  | resumeSuspended index => exact unchanged (resumeSuspended_ledger taken) trivial
  | failSuspended index => exact unchanged (failSuspended_ledger taken) trivial
  | _ =>
      cases taken
      exact unchanged rfl trivial

/-- In every state of a run each request is pending at most once, and not after its end has
been told, exactly if no deferral that takes effect finds its request pending or ended, and
no requester uses the id of such a request.
-/
theorem requests_wellKept_iff (config : TaskRunnersConfig) (events : List (Event Data))
    : Throughout step (fun broker => broker.ledger.WellKept) (new config) events
      ↔ Along step OpensOnce (new config) events := by
  have start : (new config : TaskBroker Data).ledger.WellKept := Ledger.WellKept.empty
  constructor
  · intro kept
    apply along_of_throughout (fun _ => True) (fun _ _ _ _ _ => trivial) _ trivial kept
    exact fun broker event next _ before taken after =>
      (step_wellKept_iff before taken).mp after
  · intro opens
    have preserved (broker : TaskBroker Data) (event : Event Data) (next : TaskBroker Data)
        (before : broker.ledger.WellKept) (opens : broker.OpensOnce event)
        (taken : broker.step event = some next)
        : next.ledger.WellKept := (step_wellKept_iff before taken).mpr opens
    exact throughout_of_preserved preserved start opens

/-- A request is matched with an offer, and the runner defers the task. -/
def deferringEvents : List (Event Unit) :=
  [
    .registerRunner "runner",
    .registerRequester "requester",
    .requesterMessage "requester" (.taskrequest "javascript" "request") 0,
    .runnerMessage "runner" (.taskoffer "javascript" "offer" 5000) 0,
    .runnerMessage "runner" (.taskdeferred 2) 0,
    .resumeAccept 2
  ]

/-- After the deferral the request is pending twice. -/
theorem deferringEvents_duplicate
    : ¬Throughout step (fun broker => broker.ledger.WellKept) (new ⟨.internal, 300, true⟩)
        deferringEvents := by
  have twice
      : (run step (new ⟨.internal, 300, true⟩) deferringEvents).map
            (fun broker => broker.ledger.pending)
          = some ["request", "request"] := by
    decide +kernel
  obtain ⟨reached, ran, pending⟩ := Option.map_eq_some_iff.mp twice
  intro kept
  have once := (kept.last ran).once
  rw [pending] at once
  exact absurd once (by decide)

end TaskBroker

end N8n.TaskRunners
