import N8n.Library.Departures
import N8n.TaskRunners.OrphanTasks

/-! What requesters are told about the end of their tasks over whole runs. A handler that has
told it deletes the task only after its await, so another handler may tell it again in
between.
-/

namespace N8n.TaskRunners

open Runs

/-- The task whose end a message tells its requester. -/
def Message.terminal? {Data : Type} : Message Data → Option TaskId
  | .toRequester _ (.taskdone taskId _) => some taskId
  | .toRequester _ (.taskerror taskId _) => some taskId
  | _ => none

/-- The task that a suspended method is still to delete. -/
def Suspended.deletes? {Data : Type} : Suspended Data → Option TaskId
  | .deleteTask taskId => some taskId
  | _ => none

/-- The fields that the ends of tasks depend on. -/
structure EndRecords (Data : Type) where
  tasks : Dict TaskId Task
  suspended : List (Suspended Data)
  told : List TaskId

def EndRecords.departures {Data : Type} (self : EndRecords Data) : Departures TaskId where
  live := {taskId | (self.tasks.get? taskId).isSome}
  leaving := {taskId | taskId ∈ self.suspended.filterMap Suspended.deletes?}
  told := self.told

namespace TaskBroker

variable {Data : Type} (self : TaskBroker Data)

/-- The tasks whose end has been told, as often as it was. -/
def endsTold : List TaskId := self.sent.filterMap Message.terminal?

def endRecords : EndRecords Data where
  tasks := self.tasks
  suspended := self.suspended
  told := self.endsTold

/-- A handler has told the end of the task and is still to delete the task. -/
def AwaitsDeletion (taskId : TaskId) : Prop :=
  taskId ∈ self.suspended.filterMap Suspended.deletes?

instance (taskId : TaskId) : Decidable (self.AwaitsDeletion taskId) :=
  inferInstanceAs (Decidable (taskId ∈ _))

/-! ### Methods that leave the ends of tasks alone -/

@[simp] theorem clearTimeout_endRecords (timeout : Option Nat)
    : (self.clearTimeout timeout).endRecords = self.endRecords := by
  cases timeout <;> rfl

@[simp] theorem setPhase_endRecords (taskId : TaskId) (accept : AcceptOffer Data)
    (phase : AcceptPhase Data)
    : (self.setPhase taskId accept phase).endRecords = self.endRecords := rfl

@[simp] theorem endAccept_endRecords (taskId : TaskId)
    : (self.endAccept taskId).endRecords = self.endRecords := rfl

@[simp] theorem messageRunner_endRecords (runnerId : String)
    (message : BrokerMessage.ToRunner Data)
    : (self.messageRunner runnerId message).endRecords = self.endRecords := by
  unfold messageRunner
  split
  · simp [endRecords, endsTold, Message.terminal?]
  · rfl

variable {message : BrokerMessage.ToRequester Data}

theorem messageRequester_endRecords {requesterId : String}
    (quiet : (Message.toRequester requesterId message).terminal? = none)
    : (self.messageRequester requesterId message).endRecords = self.endRecords := by
  unfold messageRequester
  split
  · simp [endRecords, endsTold, quiet]
  · rfl

@[simp] theorem acceptOffer_endRecords (offer : TaskOffer) (request : TaskRequest)
    : (self.acceptOffer offer request).endRecords = self.endRecords := by
  unfold acceptOffer
  exact messageRunner_endRecords _ _ _

@[simp] theorem settleTasks_endRecords (now : Int)
    : (self.settleTasks now).endRecords = self.endRecords := by
  have turns (requests : List TaskRequest) (start : TaskBroker Data)
      : (requests.foldl settleRequest start).endRecords = start.endRecords := by
    induction requests generalizing start with
    | nil => rfl
    | cons request rest ih =>
        rw [List.foldl_cons, ih]
        unfold settleRequest
        split
        · rfl
        · split
          · rfl
          · exact acceptOffer_endRecords _ _ _
  exact turns _ _

@[simp] theorem taskRequested_endRecords (request : TaskRequest) (now : Int)
    : (self.taskRequested request now).endRecords = self.endRecords := by
  unfold taskRequested
  split
  · exact (messageRequester_endRecords _ rfl).trans (clearTimeout_endRecords _ _)
  · exact settleTasks_endRecords _ _

@[simp] theorem handleRequestTimeout_endRecords (requestId : String)
    : (self.handleRequestTimeout requestId).endRecords = self.endRecords := by
  unfold handleRequestTimeout
  split
  · rfl
  · exact (messageRequester_endRecords _ rfl).trans (clearTimeout_endRecords _ _)

@[simp] theorem deferRequest_endRecords (request : TaskRequest)
    : (self.deferRequest request).endRecords = self.endRecords :=
  clearTimeout_endRecords self (self.requestTimeouts.get? request.reference)

@[simp] theorem settleRunner_endRecords (taskId : TaskId) (outcome : RunnerOutcome)
    : (self.settleRunner taskId outcome).endRecords = self.endRecords := by
  unfold settleRunner
  split <;> rfl

@[simp] theorem settleRequester_endRecords (taskId : TaskId)
    (outcome : RequesterOutcome Data)
    : (self.settleRequester taskId outcome).endRecords = self.endRecords := by
  unfold settleRequester
  split <;> rfl

@[simp] theorem handleRunnerOutcome_endRecords (taskId : TaskId) (outcome : RunnerOutcome)
    : (self.handleRunnerOutcome taskId outcome).endRecords = self.endRecords := by
  unfold handleRunnerOutcome
  split
  · exact settleRunner_endRecords _ _ _
  · rfl

@[simp] theorem handleRequesterOutcome_endRecords (taskId : TaskId)
    (outcome : RequesterOutcome Data)
    : (self.handleRequesterOutcome taskId outcome).endRecords = self.endRecords := by
  unfold handleRequesterOutcome
  split
  · exact settleRequester_endRecords _ _ _
  · rfl

@[simp] theorem handleRequest_endRecords (kind : DataKind) (taskId : TaskId)
    (requestId : String) (params : Data)
    : (self.handleRequest kind taskId requestId params).endRecords = self.endRecords := by
  unfold handleRequest
  split
  · rfl
  · exact messageRequester_endRecords _ rfl

/-! ### Methods that end tasks -/

/-- Tasks stay under their ids, and their ends are told one after the other. -/
def Passes (before after : EndRecords Data) : Prop :=
  before.tasks.KeyedBy Task.id
  → after.tasks.KeyedBy Task.id ∧ before.departures.Moves after.departures

theorem Passes.refl (records : EndRecords Data) : Passes records records :=
  fun keyed => ⟨keyed, .refl⟩

theorem Passes.of_eq {before after : EndRecords Data} (same : after = before)
    : Passes before after :=
  same ▸ .refl before

theorem Passes.trans {first middle last : EndRecords Data} (early : Passes first middle)
    (late : Passes middle last)
    : Passes first last := by
  intro keyed
  obtain ⟨keyed, moves⟩ := early keyed
  obtain ⟨keyed, later⟩ := late keyed
  exact ⟨keyed, moves.trans later⟩

/-- A task is removed without a word. -/
theorem delete_passes (records : EndRecords Data) (taskId : TaskId)
    : Passes records { records with tasks := records.tasks.delete taskId } := by
  intro keyed
  refine ⟨keyed.delete taskId, .single (.quiet ⟨?_, fun _ leaves _ => leaves⟩ rfl)⟩
  exact fun other alive => Dict.isSome_of_delete alive

/-- The task is in the map, and its requester is registered. -/
def requesterKnown (taskId : TaskId) : Bool :=
  (self.tasks.get? taskId).any (fun task => task.requesterId ∈ self.requesters)

/-- If the end of the task can be told, no handler that has told it is still to delete it. -/
def Tellable (taskId : TaskId) : Prop :=
  self.requesterKnown taskId = true → ¬self.AwaitsDeletion taskId

instance (taskId : TaskId) : Decidable (self.Tellable taskId) :=
  inferInstanceAs (Decidable (_ → _))

theorem cancelTask_passes (taskId : TaskId) (reason : String)
    : Passes self.endRecords (self.cancelTask taskId reason).endRecords := by
  unfold cancelTask
  split
  · exact .refl _
  · rw [messageRunner_endRecords]
    exact delete_passes self.endRecords taskId

variable {taskId : TaskId}

theorem messageRequester_told {requesterId : String}
    (terminal : (Message.toRequester requesterId message).terminal? = some taskId)
    : (self.messageRequester requesterId message).endRecords
      = if requesterId ∈ self.requesters then
          { self.endRecords with told := self.endRecords.told ++ [taskId] }
        else self.endRecords := by
  unfold messageRequester
  split
  · simp [endRecords, endsTold, terminal]
  · rfl

/-- A failed task is deleted before its end is told. -/
theorem failTask_passes (error : TaskError Data) (tellable : self.Tellable taskId)
    : Passes self.endRecords (self.failTask taskId error).endRecords := by
  unfold failTask
  split
  · exact .refl _
  · next task found =>
      rw [messageRequester_told { self with tasks := self.tasks.delete taskId } rfl]
      split
      · next known =>
          intro keyed
          have deleted := delete_passes self.endRecords taskId keyed
          refine ⟨deleted.1, .single (.tells ?_ taskId ?_ ?_ rfl ?_)⟩
          · refine ⟨fun other alive => ?_, fun _ leaves _ => leaves⟩
            exact Departures.Moves.live deleted.2 other alive
          · exact Option.isSome_of_eq_some found
          · exact tellable (by simp [requesterKnown, found, known])
          · intro alive
            rw [EndRecords.departures, Set.mem_ofPred_eq, endRecords, Dict.get?_delete,
              if_pos rfl] at alive
            contradiction
      · exact delete_passes self.endRecords taskId

/-- The runner of the task has left. -/
def LostRunner (taskId : TaskId) : Prop :=
  (self.tasks.get? taskId).any (fun task => task.runnerId ∉ self.knownRunners) = true

instance (taskId : TaskId) : Decidable (self.LostRunner taskId) :=
  inferInstanceAs (Decidable (_ = true))

theorem getRunnerOrFailTask_passes (tellable : self.LostRunner taskId → self.Tellable taskId)
    : Passes self.endRecords (self.getRunnerOrFailTask taskId).2.endRecords := by
  unfold getRunnerOrFailTask
  split
  · exact .refl _
  · next task found =>
      split
      · exact .refl _
      · next lost =>
          apply failTask_passes self _ (tellable _)
          simpa [LostRunner, found] using lost

theorem suspend_endRecords (method : Suspended Data)
    : (self.suspend method).endRecords
      = { self.endRecords with suspended := self.endRecords.suspended ++ [method] } := rfl

/-- A method that deletes no task may be suspended. -/
theorem suspend_passes {method : Suspended Data} (other : method.deletes? = none)
    : Passes self.endRecords (self.suspend method).endRecords := by
  intro keyed
  refine ⟨keyed, .single (.quiet ⟨fun _ alive => alive, fun taskId leaves _ => ?_⟩ rfl)⟩
  simpa [EndRecords.departures, suspend_endRecords, other] using leaves

/-- A handler tells the end of the task, and is to delete it after its await. -/
theorem report_passes {task : Task} (found : self.tasks.get? taskId = some task)
    (terminal : (Message.toRequester task.requesterId message).terminal? = some task.id)
    (tellable : self.Tellable taskId)
    : Passes self.endRecords
        (((self.clearTimeout task.timeout).messageRequester task.requesterId message).suspend
          (.deleteTask task.id)).endRecords := by
  have cleared := clearTimeout_endRecords self task.timeout
  have requesters : (self.clearTimeout task.timeout).requesters = self.requesters := by
    cases task.timeout <;> rfl
  have told := messageRequester_told (self.clearTimeout task.timeout) terminal
  rw [cleared, requesters] at told
  intro keyed
  obtain rfl : taskId = task.id := keyed found
  have leaves : task.id ∈ (self.suspended ++ [Suspended.deleteTask task.id]).filterMap
      Suspended.deletes? := by
    simp [Suspended.deletes?]
  have more (other : TaskId) (earlier : self.AwaitsDeletion other)
      : other ∈ (self.suspended ++ [Suspended.deleteTask task.id]).filterMap
          Suspended.deletes? := by
    rw [List.filterMap_append]
    exact List.mem_append_left _ earlier
  rw [suspend_endRecords, told]
  split
  · next known =>
      refine ⟨keyed, .single (.tells ⟨fun _ alive => alive, ?_⟩ task.id ?_ ?_ rfl ?_)⟩
      · exact fun other earlier _ => more other earlier
      · exact Option.isSome_of_eq_some found
      · exact tellable (by simp [requesterKnown, found, known])
      · exact fun _ => leaves
  · refine ⟨keyed, .single (.quiet ⟨fun _ alive => alive, ?_⟩ rfl)⟩
    exact fun other earlier _ => more other earlier

theorem taskDoneHandler_passes (data : Data) (tellable : self.Tellable taskId)
    : Passes self.endRecords (self.taskDoneHandler taskId data).endRecords := by
  unfold taskDoneHandler
  split
  · exact .refl _
  · next task found => exact report_passes self found rfl tellable

theorem taskErrorHandler_passes (error : TaskError Data) (tellable : self.Tellable taskId)
    : Passes self.endRecords (self.taskErrorHandler taskId error).endRecords := by
  unfold taskErrorHandler
  split
  · exact .refl _
  · next task found => exact report_passes self found rfl tellable

/-- In mode `external` the time-out only stops the runner, for now. -/
theorem handleTaskTimeout_passes (tellable : self.config.mode = .internal → self.Tellable taskId)
    : Passes self.endRecords (self.handleTaskTimeout taskId).endRecords := by
  unfold handleTaskTimeout
  split
  · exact .refl _
  · split
    · next internal => exact taskErrorHandler_passes self _ (tellable internal)
    · apply Passes.trans (Passes.of_eq (messageRunner_endRecords self _ _))
      exact suspend_passes _ rfl

theorem handleRequesterResponse_passes (kind : DataKind) (requestId : String) (data : Data)
    (tellable : self.LostRunner taskId → self.Tellable taskId)
    : Passes self.endRecords
        (self.handleRequesterResponse kind taskId requestId data).endRecords := by
  have found := getRunnerOrFailTask_passes self tellable
  unfold handleRequesterResponse
  split
  · next result same => rwa [same] at found
  · next runnerId result same =>
      rw [same] at found
      exact found.trans (suspend_passes _ rfl)

/-! ### Methods that end several tasks -/

/-- No task, requester or deletion is new. -/
structure Fewer (before after : TaskBroker Data) : Prop where
  tasks
    : ∀ taskId task, after.tasks.get? taskId = some task
        → before.tasks.get? taskId = some task
  requesters : ∀ requesterId ∈ after.requesters, requesterId ∈ before.requesters
  suspended : ∀ taskId, after.AwaitsDeletion taskId → before.AwaitsDeletion taskId

theorem Fewer.refl : Fewer self self := ⟨fun _ _ => id, fun _ => id, fun _ => id⟩

theorem Fewer.trans {first middle last : TaskBroker Data} (early : Fewer first middle)
    (late : Fewer middle last)
    : Fewer first last where
  tasks taskId task found := early.tasks taskId task (late.tasks taskId task found)
  requesters requesterId known :=
    early.requesters requesterId (late.requesters requesterId known)
  suspended taskId awaits := early.suspended taskId (late.suspended taskId awaits)

theorem Fewer.tellable {before after : TaskBroker Data} (fewer : Fewer before after)
    {taskId : TaskId} (tellable : before.Tellable taskId)
    : after.Tellable taskId := by
  intro known awaits
  apply tellable _ (fewer.suspended taskId awaits)
  obtain ⟨task, found, registered⟩ := (Option.any_eq_true _ _).mp known
  rw [requesterKnown, fewer.tasks taskId task found]
  simpa using fewer.requesters _ (by simpa using registered)

theorem messageRequester_fewer (requesterId : String)
    (message : BrokerMessage.ToRequester Data)
    : Fewer self (self.messageRequester requesterId message) := by
  unfold messageRequester
  split
  · exact ⟨fun _ _ => id, fun _ => id, fun _ => id⟩
  · exact .refl self

theorem failTask_fewer (taskId : TaskId) (error : TaskError Data)
    : Fewer self (self.failTask taskId error) := by
  unfold failTask
  split
  · exact .refl self
  · apply Fewer.trans _ (messageRequester_fewer _ _ _)
    exact ⟨fun _ _ found => Dict.get?_of_delete found, fun _ => id, fun _ => id⟩

theorem handleRunnerOutcome_fewer (taskId : TaskId) (outcome : RunnerOutcome)
    : Fewer self (self.handleRunnerOutcome taskId outcome) := by
  unfold handleRunnerOutcome settleRunner
  split
  · split
    · exact ⟨fun _ _ => id, fun _ => id, fun _ => id⟩
    · exact ⟨fun _ _ => id, fun _ => id, fun _ => id⟩
  · exact .refl self

theorem failRunnerTask_fewer (runnerId message : String) (task : Task)
    : Fewer self (failRunnerTask runnerId message self task) := by
  unfold failRunnerTask
  split
  · exact (failTask_fewer self task.id _).trans (handleRunnerOutcome_fewer _ _ _)
  · exact .refl self

variable {runnerId : String}

theorem failRunnerTask_passes (message : String) {task : Task}
    (tellable : task.runnerId = runnerId → self.Tellable task.id)
    : Passes self.endRecords (failRunnerTask runnerId message self task).endRecords := by
  unfold failRunnerTask
  split
  · next same =>
      apply (failTask_passes self (.disconnected message) (tellable same)).trans
      exact Passes.of_eq (handleRunnerOutcome_endRecords _ _ _)
  · exact .refl _

/-- The tasks of the runner fail one after the other. -/
theorem failRunnerTasks_passes (message : String) {tasks : List Task}
    (tellable : ∀ task ∈ tasks, task.runnerId = runnerId → self.Tellable task.id)
    : Passes self.endRecords (tasks.foldl (failRunnerTask runnerId message) self).endRecords := by
  induction tasks generalizing self with
  | nil => exact .refl _
  | cons task rest ih =>
      obtain ⟨first, others⟩ := List.forall_mem_cons.mp tellable
      apply (failRunnerTask_passes self message first).trans
      apply ih
      intro other member same
      exact (failRunnerTask_fewer self runnerId message task).tellable (others other member same)

theorem deregisterRunner_passes (message : String)
    (tellable : ∀ task ∈ self.tasks.values, task.runnerId = runnerId → self.Tellable task.id)
    : Passes self.endRecords (self.deregisterRunner runnerId message).endRecords := by
  unfold deregisterRunner
  exact failRunnerTasks_passes
    { self with
      knownRunners := self.knownRunners.erase runnerId
      pendingTaskOffers :=
        self.pendingTaskOffers.filter (fun offer => offer.runnerId ≠ runnerId)
    }
    message tellable

/-! ### Methods that run on -/

/-- A suspended method leaves. What it was to delete is gone. -/
theorem leave_passes (index : Nat) (tasks : Dict TaskId Task)
    (keyed : self.tasks.KeyedBy Task.id → tasks.KeyedBy Task.id)
    (fewer : ∀ taskId, (tasks.get? taskId).isSome → (self.tasks.get? taskId).isSome)
    (gone
      : ∀ taskId ∈ self.suspended[index]?.bind Suspended.deletes?, tasks.get? taskId = none)
    : Passes self.endRecords ⟨tasks, self.suspended.eraseIdx index, self.endsTold⟩ := by
  intro before
  refine ⟨keyed before, .single (.quiet ⟨fewer, fun taskId leaves alive => ?_⟩ rfl)⟩
  obtain ⟨method, member, deletes⟩ := List.mem_filterMap.mp leaves
  obtain ⟨place, bound, rfl⟩ := List.getElem_of_mem member
  have here : self.suspended[place]? = some self.suspended[place] :=
    List.getElem?_eq_getElem bound
  have other : place ≠ index := by
    rintro rfl
    have missing := gone taskId (by rw [here]; exact deletes)
    rw [EndRecords.departures, Set.mem_ofPred_eq, missing] at alive
    contradiction
  refine List.mem_filterMap.mpr ⟨self.suspended[place], ?_, deletes⟩
  exact List.mem_eraseIdx_iff_getElem?.mpr ⟨place, other, here⟩

theorem suspended_fewer (index : Nat)
    : Fewer self { self with suspended := self.suspended.eraseIdx index } := by
  refine ⟨fun _ _ => id, fun _ => id, fun taskId awaits => ?_⟩
  obtain ⟨method, member, deletes⟩ := List.mem_filterMap.mp awaits
  exact List.mem_filterMap.mpr ⟨method, List.mem_of_mem_eraseIdx member, deletes⟩

theorem sendTaskSettings_passes (taskId : TaskId) (accept : AcceptOffer Data)
    (runnerId : String) (settings : Data)
    : Passes self.endRecords
        (self.sendTaskSettings taskId accept runnerId settings).endRecords := by
  unfold sendTaskSettings
  split
  · exact .of_eq (endAccept_endRecords self taskId)
  · next task found =>
      simp only [messageRunner_endRecords, setPhase_endRecords]
      intro keyed
      obtain rfl : taskId = task.id := keyed found
      refine ⟨keyed.set { task with timeout := some self.nextNumber }, .single (.quiet ?_ rfl)⟩
      refine ⟨fun other alive => ?_, fun _ leaves _ => leaves⟩
      simp only [EndRecords.departures, endRecords, Set.mem_ofPred_eq] at alive ⊢
      rw [Dict.get?_set] at alive
      split at alive
      · next same => exact same ▸ Option.isSome_of_eq_some found
      · exact alive

theorem resumeAfterRequester_passes (accept : AcceptOffer Data) {outcome : RequesterOutcome Data}
    (tellable
      : ∀ settings, outcome = .settings settings → self.LostRunner taskId
          → self.Tellable taskId)
    : Passes self.endRecords
        (self.resumeAfterRequester taskId accept outcome).endRecords := by
  cases outcome with
  | settings settings =>
      have found := getRunnerOrFailTask_passes self (tellable settings rfl)
      unfold resumeAfterRequester
      simp only
      split
      · next result same => rwa [same] at found
      · next runnerId result same => rwa [same] at found
  | rejected reason => exact cancelTask_passes self taskId reason
  | timedOut => exact cancelTask_passes self taskId "Unknown reason"

theorem taskAccepted_endRecords (taskId : TaskId) (accept : AcceptOffer Data)
    : ∃ task : Task,
        task.id = taskId
        ∧ (self.taskAccepted taskId accept).endRecords
          = { self.endRecords with tasks := self.tasks.set taskId task } := by
  have cleared := clearTimeout_endRecords self
    (self.requestTimeouts.get? accept.request.reference)
  have tasks := clearTimeout_tasks self
    (self.requestTimeouts.get? accept.request.reference)
  refine
    ⟨⟨taskId, accept.offer.runnerId, accept.request.requesterId, accept.offer.taskType, none⟩,
      rfl, ?_⟩
  have registered
      : (self.registerTask taskId accept).endRecords
        = { self.endRecords with
            tasks :=
              self.tasks.set taskId
                ⟨taskId, accept.offer.runnerId, accept.request.requesterId,
                  accept.offer.taskType, none⟩
          } := by
    rw [← cleared, ← tasks]
    rfl
  unfold taskAccepted
  simp only
  split
  · exact registered
  · unfold announceTask
    exact (messageRequester_endRecords _ rfl).trans registered

/-! ### What one step does -/

/-- The tasks whose end the event makes a handler tell, if their requesters are registered. -/
def endsReported : Event Data → List TaskId
  | .deregisterRunner runnerId _ =>
      (self.tasks.values.filter (fun task => task.runnerId = runnerId)).map Task.id
  | .runnerMessage runnerId (.taskdone taskId _) _ =>
      if runnerId ∈ self.knownRunners then [taskId] else []
  | .runnerMessage runnerId (.taskerror taskId _) _ =>
      if runnerId ∈ self.knownRunners then [taskId] else []
  | .requesterMessage _ (.response _ taskId _ _) _ =>
      if self.LostRunner taskId then [taskId] else []
  | .timer timer =>
      match self.timers.get? timer with
      | some (.taskTimeout taskId) =>
          if self.config.mode = .internal then [taskId] else []
      | _ => []
  | .resumeAccept taskId =>
      match (self.acceptOffers.get? taskId).map AcceptOffer.phase with
      | some (.awaitingRequester (some (.settings _))) =>
          if self.LostRunner taskId then [taskId] else []
      | _ => []
  | .resumeSuspended index =>
      match self.suspended[index]? with
      | some (.taskErrorHandler taskId _) => [taskId]
      | _ => []
  | _ => []

/-- The callback of a requester that has been told an end does not reject, unless the task is
gone: the handler would not delete it.
-/
def KeepsDeletion : Event Data → Prop
  | .failSuspended index =>
      ∀ taskId ∈ self.suspended[index]?.bind Suspended.deletes?,
        self.tasks.get? taskId = none
  | _ => True

/-- No end is told while an earlier handler that has told it is still to delete the task. -/
def TellsApart (event : Event Data) : Prop :=
  (∀ taskId ∈ self.endsReported event, self.Tellable taskId) ∧ self.KeepsDeletion event

instance (taskId : TaskId) : Decidable (self.tasks.get? taskId = none) :=
  decidable_of_iff ((self.tasks.get? taskId).isNone = true) Option.isNone_iff_eq_none

instance (event : Event Data) : Decidable (self.KeepsDeletion event) := by
  unfold KeepsDeletion
  split <;> infer_instance

instance (event : Event Data) : Decidable (self.TellsApart event) :=
  inferInstanceAs (Decidable (_ ∧ _))

/-- The ends of tasks move, or an acceptance puts a task into the map. -/
inductive StepEnds (before after : TaskBroker Data) : Prop
  | passes (passes : Passes before.endRecords after.endRecords)
  | registers (accept : AcceptOffer Data) (task : Task)
    (found : before.acceptOffers.get? task.id = some accept)
    (awaits : accept.phase.awaitsRunner = true)
    (same
      : after.endRecords
        = { before.endRecords with tasks := before.tasks.set task.id task })

section Steps

variable {self} {next : TaskBroker Data}

theorem StepEnds.same {after : TaskBroker Data} (same : after.endRecords = self.endRecords)
    : StepEnds self after :=
  .passes (.of_eq same)

theorem resumeAccept_ends {taskId : TaskId} (apart : self.TellsApart (.resumeAccept taskId))
    (taken : self.resumeAccept taskId = some next)
    : StepEnds self next := by
  unfold resumeAccept at taken
  split at taken
  · contradiction
  · next accept found =>
      split at taken
      · contradiction
      · next outcome phase =>
          cases taken
          cases outcome with
          | accepted =>
              obtain ⟨task, rfl, same⟩ := taskAccepted_endRecords self taskId accept
              exact .registers accept task found (by rw [phase]; rfl) same
          | deferred =>
              exact .same (deferRequest_endRecords (self.releaseRequest accept.request) _)
          | _ => exact .same rfl
      · contradiction
      · next outcome phase =>
          cases taken
          refine .passes (resumeAfterRequester_passes self accept ?_)
          rintro settings rfl lost
          exact apart.1 taskId (by simp [endsReported, found, phase, lost])
      · next runnerId settings phase =>
          cases taken
          exact .passes (sendTaskSettings_passes self taskId accept runnerId settings)
      · cases taken
        exact .same rfl

theorem failAccept_ends {taskId : TaskId} (taken : self.failAccept taskId = some next)
    : StepEnds self next := by
  unfold failAccept at taken
  split at taken
  · contradiction
  · split at taken
    · cases taken
      exact .same rfl
    · cases taken
      exact .passes (cancelTask_passes self taskId "Unknown reason")
    · contradiction
    · cases taken
      exact .passes (cancelTask_passes self taskId "Unknown reason")

theorem fireTimer_ends {timer : Nat} (apart : self.TellsApart (.timer timer))
    (taken : self.fireTimer timer = some next)
    : StepEnds self next := by
  unfold fireTimer at taken
  split at taken
  · contradiction
  · next what found =>
      split at taken
      · cases taken
        exact .same (handleRequestTimeout_endRecords _ _)
      · next taskId =>
          cases taken
          apply StepEnds.passes
          apply handleTaskTimeout_passes { self with timers := self.timers.delete timer }
          intro internal
          exact apart.1 taskId (by simpa [endsReported, found] using internal)

theorem resumeSuspended_ends {index : Nat} (apart : self.TellsApart (.resumeSuspended index))
    (taken : self.resumeSuspended index = some next)
    : StepEnds self next := by
  unfold resumeSuspended at taken
  split at taken
  · contradiction
  · next method found =>
      cases taken
      cases method with
      | deleteTask taskId =>
          refine .passes (leave_passes self index (self.tasks.delete taskId) ?_ ?_ ?_)
          · exact fun keyed => keyed.delete taskId
          · exact fun other alive => Dict.isSome_of_delete alive
          · intro other deletes
            rw [found] at deletes
            cases deletes
            simp [Dict.get?_delete]
      | taskErrorHandler taskId error =>
          have left :=
            leave_passes self index self.tasks id (fun _ => id)
              (by simp [found, Suspended.deletes?])
          have tellable := apart.1 taskId (by simp [endsReported, found])
          have fails :=
            taskErrorHandler_passes { self with suspended := self.suspended.eraseIdx index }
              error ((suspended_fewer self index).tellable tellable)
          exact .passes (left.trans fails)
      | messageRunner runnerId message =>
          have left :=
            leave_passes self index self.tasks id (fun _ => id)
              (by simp [found, Suspended.deletes?])
          have sends :=
            messageRunner_endRecords { self with suspended := self.suspended.eraseIdx index }
              runnerId message
          exact .passes (left.trans (.of_eq sends))

theorem failSuspended_ends {index : Nat} (apart : self.TellsApart (.failSuspended index))
    (taken : self.failSuspended index = some next)
    : StepEnds self next := by
  unfold failSuspended at taken
  split at taken
  · cases taken
    exact .passes (leave_passes self index self.tasks id (fun _ => id) apart.2)
  · contradiction

theorem onRunnerMessage_ends {runnerId : String} {message : RunnerMessage Data} {now : Int}
    (apart : self.TellsApart (.runnerMessage runnerId message now))
    : StepEnds self (self.onRunnerMessage runnerId message now) := by
  unfold onRunnerMessage
  split
  · next known =>
      cases message with
      | taskoffer taskType offerId validFor => exact .same (settleTasks_endRecords _ _)
      | taskdone taskId data =>
          have tellable := apart.1 taskId (by simp [endsReported, known])
          exact .passes (taskDoneHandler_passes self data tellable)
      | taskerror taskId error =>
          have tellable := apart.1 taskId (by simp [endsReported, known])
          exact .passes (taskErrorHandler_passes self (.reported error) tellable)
      | request kind taskId requestId params =>
          exact .same (handleRequest_endRecords _ _ _ _ _)
      | _ =>
          exact .same (handleRunnerOutcome_endRecords _ _ _)
  · exact .same rfl

theorem onRequesterMessage_ends {requesterId : String} {message : RequesterMessage Data}
    {now : Int} (apart : self.TellsApart (.requesterMessage requesterId message now))
    : StepEnds self (self.onRequesterMessage requesterId message now) := by
  cases message with
  | tasksettings taskId settings => exact .same (handleRequesterOutcome_endRecords _ _ _)
  | taskcancel taskId reason => exact .passes (cancelTask_passes self taskId reason)
  | taskrequest taskType requestId => exact .same (taskRequested_endRecords _ _ _)
  | response kind taskId requestId data =>
      refine .passes (handleRequesterResponse_passes self kind requestId data ?_)
      exact fun lost => apart.1 taskId (by simp [endsReported, lost])

/-- What one step can do to the ends of tasks, one case for each kind of event. -/
theorem step_ends {event : Event Data} (apart : self.TellsApart event)
    (taken : self.step event = some next)
    : StepEnds self next := by
  cases event with
  | resumeAccept taskId => exact resumeAccept_ends apart taken
  | failAccept taskId => exact failAccept_ends taken
  | timer timer => exact fireTimer_ends apart taken
  | resumeSuspended index => exact resumeSuspended_ends apart taken
  | failSuspended index => exact failSuspended_ends apart taken
  | requesterMessage requesterId message now =>
      cases taken
      exact onRequesterMessage_ends apart
  | runnerMessage runnerId message now =>
      cases taken
      exact onRunnerMessage_ends apart
  | deregisterRunner runnerId message =>
      cases taken
      refine .passes (deregisterRunner_passes self message ?_)
      intro task member same
      exact apart.1 task.id (List.mem_map_of_mem (by simpa [member] using same))
  | requesterReject taskId reason =>
      cases taken
      exact .same (handleRequesterOutcome_endRecords _ _ _)
  | runnerAcceptTimeout taskId =>
      cases taken
      exact .same (settleRunner_endRecords _ _ _)
  | requesterAcceptTimeout taskId =>
      cases taken
      exact .same (settleRequester_endRecords _ _ _)
  | registerRunner runnerId =>
      cases taken
      exact .same (messageRunner_endRecords { self with knownRunners := _ } _ _)
  | _ =>
      cases taken
      exact .same rfl

end Steps

/-! ### The invariant of a run -/

/-- A call that waits for its runner waited before, or is new. -/
structure RunnersAwait (before after : TaskBroker Data) : Prop where
  number : before.nextNumber ≤ after.nextNumber
  origin
    : ∀ taskId accept, after.acceptOffers.get? taskId = some accept
        → accept.phase.awaitsRunner = true
        → before.nextNumber ≤ taskId
          ∨ ∃ earlier, before.acceptOffers.get? taskId = some earlier
              ∧ earlier.phase.awaitsRunner = true

section RunnersAwait

variable {before after : TaskBroker Data}

theorem Frame.runnersAwait (frame : Frame before after) : RunnersAwait before after where
  number := frame.number
  origin := by
    intro taskId accept found awaits
    rcases frame.origin taskId accept found with ⟨earlier, old, advances⟩ | ⟨new, _, _⟩
    · exact .inr ⟨earlier, old, advances.runner awaits⟩
    · exact .inl new

theorem RunnersAwait.endAccept (waits : RunnersAwait before after) (taskId : TaskId)
    : RunnersAwait before (after.endAccept taskId) where
  number := waits.number
  origin := by
    intro other accept found awaits
    rw [endAccept_get?] at found
    split at found
    · contradiction
    · exact waits.origin other accept found awaits

theorem Registers.runnersAwait {taskId : TaskId} (registers : Registers taskId before after)
    : RunnersAwait before after where
  number := registers.number.ge
  origin := by
    intro other accept found awaits
    by_cases same : other = taskId
    · rw [registers.own accept (same ▸ found)] at awaits
      contradiction
    · exact .inr ⟨accept, registers.others other same ▸ found, awaits⟩

theorem step_runnersAwait {event : Event Data} (taken : before.step event = some after)
    : RunnersAwait before after := by
  cases step_shape taken with
  | frame frame => exact frame.runnersAwait
  | ends taskId middle frame same => exact same ▸ frame.runnersAwait.endAccept taskId
  | accepted taskId accept found phase same =>
      exact same ▸ (taskAccepted_registers before taskId accept).runnersAwait
  | settings taskId settings requesterId now same =>
      rw [same]
      rcases handleRequesterAccept_cases before taskId settings with
        quiet | ⟨_, _, _, registers⟩
      · exact quiet.frame.runnersAwait
      · exact registers.runnersAwait

/-- Each end has been told once, and none for a task that is still to be accepted. -/
structure Informed (broker : TaskBroker Data) : Prop where
  keyed : broker.tasks.KeyedBy Task.id
  kept : broker.endRecords.departures.WellKept
  numbered : Numbered broker
  given : ∀ taskId ∈ broker.endsTold, taskId < broker.nextNumber
  early
    : ∀ taskId accept, broker.acceptOffers.get? taskId = some accept
        → accept.phase.awaitsRunner = true
        → taskId ∉ broker.endsTold

theorem Informed.new (config : TaskRunnersConfig)
    : Informed (new config : TaskBroker Data) where
  keyed := Dict.KeyedBy.empty
  kept := ⟨List.nodup_nil, nofun⟩
  numbered := (Sound.new config).numbered
  given := nofun
  early := nofun

/-- What is told after a step was told before it, or its task was in the map. -/
theorem Informed.of_told (informed : Informed before) (numbered : Numbered after)
    (waits : RunnersAwait before after) (keyed : after.tasks.KeyedBy Task.id)
    (kept : after.endRecords.departures.WellKept)
    (told
      : ∀ taskId ∈ after.endsTold,
          taskId ∈ before.endsTold ∨ (before.tasks.get? taskId).isSome)
    : Informed after where
  keyed := keyed
  kept := kept
  numbered := numbered
  given := by
    intro taskId isTold
    rcases told taskId isTold with earlier | alive
    · exact (informed.given taskId earlier).trans_le waits.number
    · exact (informed.numbered.tasks taskId alive).trans_le waits.number
  early := by
    intro taskId accept found awaits isTold
    rcases waits.origin taskId accept found awaits with new | ⟨call, waited, awaited⟩
    · rcases told taskId isTold with earlier | alive
      · exact absurd (informed.given taskId earlier) (Nat.not_lt_of_le new)
      · exact absurd (informed.numbered.tasks taskId alive) (Nat.not_lt_of_le new)
    · rcases told taskId isTold with earlier | alive
      · exact informed.early taskId call waited awaited earlier
      · rw [(informed.numbered.early taskId call waited awaited).2] at alive
        contradiction

theorem Informed.step {event : Event Data} (informed : Informed before)
    (apart : before.TellsApart event) (taken : before.step event = some after)
    : Informed after := by
  have numbered := informed.numbered.step taken
  have waits := step_runnersAwait taken
  cases step_ends apart taken with
  | passes passes =>
      obtain ⟨keyed, moves⟩ := passes informed.keyed
      exact informed.of_told numbered waits keyed (informed.kept.moves moves) moves.told
  | registers accept task found awaits same =>
      have tasks : after.tasks = before.tasks.set task.id task := congrArg EndRecords.tasks same
      have told : after.endsTold = before.endsTold := congrArg EndRecords.told same
      apply informed.of_told numbered waits
      · exact tasks ▸ informed.keyed.set task
      · apply informed.kept.grow (informed.early task.id accept found awaits)
        · intro other alive
          rw [same] at alive
          simp only [EndRecords.departures, Set.mem_ofPred_eq, Dict.get?_set] at alive
          split at alive
          · exact .inl ‹_›
          · exact .inr alive
        · exact fun other leaves => same ▸ leaves
        · exact told
      · exact fun taskId isTold => .inl (told ▸ isTold)

end RunnersAwait

/-! ### Runs -/

/-- In every state of a run whose handlers tell ends apart, no end has been told twice. -/
theorem endsTold_once (config : TaskRunnersConfig) (events : List (Event Data))
    (apart : Along step TellsApart (new config) events)
    : Throughout step (fun broker => broker.endsTold.Nodup) (new config) events := by
  have informed : Throughout step Informed (new config) events :=
    throughout_of_preserved (fun _ _ _ => Informed.step) (Informed.new config) apart
  exact informed.mono fun broker informed => informed.kept.once

/-- A runner is given a task, and its requester sends the settings. -/
def startedEvents : List (Event Unit) :=
  [
    .registerRunner "runner",
    .registerRequester "requester",
    .requesterMessage "requester" (.taskrequest "javascript" "request") 0,
    .runnerMessage "runner" (.taskoffer "javascript" "offer" 5000) 0,
    .runnerMessage "runner" (.taskaccepted 2) 0,
    .resumeAccept 2,
    .requesterMessage "requester" (.tasksettings 2 ()) 0,
    .resumeAccept 2,
    .resumeAccept 2,
    .resumeAccept 2
  ]

/-- The task is done, and is deleted before its runner leaves. -/
theorem endsTold_once_deleted
    : Throughout step (fun broker => broker.endsTold.Nodup) (new ⟨.internal, 300, true⟩)
        (startedEvents
          ++ [
            .runnerMessage "runner" (.taskdone 2 ()) 0,
            .resumeSuspended 0,
            .deregisterRunner "runner" "closed"
          ]) :=
  endsTold_once _ _ (by decide +kernel)

/-- The runner leaves before the task that it has done is deleted. -/
def overlappingEvents : List (Event Unit) :=
  startedEvents
    ++ [.runnerMessage "runner" (.taskdone 2 ()) 0, .deregisterRunner "runner" "closed"]

/-- The requester is told that the task is done, and that it has failed. -/
theorem overlappingEvents_twice
    : ¬Throughout step (fun broker => broker.endsTold.Nodup) (new ⟨.internal, 300, true⟩)
        overlappingEvents := by
  have twice
      : (run step (new ⟨.internal, 300, true⟩) overlappingEvents).map endsTold
          = some [2, 2] := by
    decide +kernel
  obtain ⟨reached, ran, told⟩ := Option.map_eq_some_iff.mp twice
  intro once
  have nodup : reached.endsTold.Nodup := once.last ran
  rw [told] at nodup
  exact absurd nodup (by decide)

end TaskBroker

end N8n.TaskRunners
