import N8n.Library.Runs
import N8n.TaskRunners.TaskMethods

/-! The tasks of the broker over whole runs. A task is announced to its requester, or its
call of `acceptOffer` still runs; only an acceptance that finds its request expired leaves a
task behind.
-/

namespace N8n.TaskRunners

open Runs

/-- The task that a message announces to its requester. -/
def Message.announces? {Data : Type} : Message Data → Option TaskId
  | .toRequester _ (.taskready _ taskId) => some taskId
  | _ => none

namespace AcceptPhase

variable {Data : Type}

def awaitsRunner : AcceptPhase Data → Bool
  | .awaitingRunner _ => true
  | _ => false

/-- A requester has sent settings for the task of the call. -/
def hasSettings : AcceptPhase Data → Bool
  | .awaitingRequester (some (.settings _)) => true
  | .gettingRunner _ _ => true
  | .sendingSettings => true
  | _ => false

end AcceptPhase

namespace TaskBroker

variable {Data : Type}

def announced (self : TaskBroker Data) : List TaskId :=
  self.sent.filterMap Message.announces?

/-- Every task has been announced, or a call of `acceptOffer` still takes care of it. -/
def NoOrphans (self : TaskBroker Data) : Prop :=
  ∀ taskId, (self.tasks.get? taskId).isSome
    → taskId ∈ self.announced ∨ (self.acceptOffers.get? taskId).isSome

/-- A call that ends while it waits for a requester which has not been contacted removes its
task, and tells the runner.
-/
def GivesUp (before after : TaskBroker Data) : Prop :=
  ∀ taskId accept outcome,
    before.acceptOffers.get? taskId = some accept
    → accept.phase = .awaitingRequester outcome
    → after.acceptOffers.get? taskId = none
    → taskId ∉ after.announced
    → after.tasks.get? taskId = none
      ∧ ∀ task, before.tasks.get? taskId = some task → task.runnerId ∈ before.knownRunners
        → ∃ reason, .toRunner task.runnerId (.taskcancel taskId reason) ∈ after.sent

/-! ### Methods that leave the calls of `acceptOffer` alone -/

structure Quiet (before after : TaskBroker Data) : Prop where
  acceptOffers : after.acceptOffers = before.acceptOffers
  announced : after.announced = before.announced
  tasks : ∀ taskId, (after.tasks.get? taskId).isSome → (before.tasks.get? taskId).isSome
  number : before.nextNumber ≤ after.nextNumber

theorem Quiet.refl (self : TaskBroker Data) : Quiet self self :=
  ⟨rfl, rfl, fun _ => id, Nat.le_refl _⟩

theorem Quiet.trans {first middle last : TaskBroker Data} (early : Quiet first middle)
    (late : Quiet middle last)
    : Quiet first last where
  acceptOffers := late.acceptOffers.trans early.acceptOffers
  announced := late.announced.trans early.announced
  tasks := fun taskId present => early.tasks taskId (late.tasks taskId present)
  number := early.number.trans late.number

section Quiet

variable (self : TaskBroker Data)

theorem clearTimeout_quiet (timeout : Option Nat) : Quiet self (self.clearTimeout timeout) := by
  cases timeout with
  | none => exact .refl self
  | some timer => exact ⟨rfl, rfl, fun _ => id, Nat.le_refl _⟩

theorem setTimeout_quiet (timer : Timer) : Quiet self (self.setTimeout timer) :=
  ⟨rfl, rfl, fun _ => id, Nat.le_succ _⟩

theorem suspend_quiet (method : Suspended Data) : Quiet self (self.suspend method) :=
  ⟨rfl, rfl, fun _ => id, Nat.le_refl _⟩

theorem spliceRequest_quiet (requestId : String)
    : Quiet self (self.spliceRequest requestId) :=
  ⟨rfl, rfl, fun _ => id, Nat.le_refl _⟩

theorem releaseRequest_quiet (request : TaskRequest)
    : Quiet self (self.releaseRequest request) :=
  ⟨rfl, rfl, fun _ => id, Nat.le_refl _⟩

theorem deleteTask_quiet (taskId : TaskId)
    : Quiet self { self with tasks := self.tasks.delete taskId } where
  acceptOffers := rfl
  announced := rfl
  tasks _ present := Dict.isSome_of_delete present
  number := Nat.le_refl _

theorem messageRunner_quiet (runnerId : String) (message : BrokerMessage.ToRunner Data)
    : Quiet self (self.messageRunner runnerId message) := by
  unfold messageRunner
  split
  · exact ⟨rfl, by simp [announced, Message.announces?], fun _ => id, Nat.le_refl _⟩
  · exact .refl self

theorem messageRequester_quiet {requesterId : String}
    {message : BrokerMessage.ToRequester Data}
    (silent : (Message.toRequester requesterId message).announces? = none)
    : Quiet self (self.messageRequester requesterId message) := by
  unfold messageRequester
  split
  · exact ⟨rfl, by simp [announced, silent], fun _ => id, Nat.le_refl _⟩
  · exact .refl self

theorem deferRequest_quiet (request : TaskRequest) : Quiet self (self.deferRequest request) := by
  have cleared := clearTimeout_quiet self (self.requestTimeouts.get? request.reference)
  exact cleared.trans ⟨rfl, rfl, fun _ => id, Nat.le_succ _⟩

theorem handleRequestTimeout_quiet (requestId : String)
    : Quiet self (self.handleRequestTimeout requestId) := by
  unfold handleRequestTimeout
  split
  · exact .refl self
  · apply (spliceRequest_quiet self requestId).trans
    apply (clearTimeout_quiet _ _).trans
    exact messageRequester_quiet _ rfl

theorem quiet_carries
    : Carries (fun message : Message Data => message.announces? = none) Quiet where
  refl := .refl
  trans := .trans
  aboutTask message about := by
    cases message with
    | toRunner _ _ => rfl
    | toRequester _ message => cases message <;> first | rfl | exact about.elim
  clearTimeout := clearTimeout_quiet
  suspend self method _ := suspend_quiet self method
  deleteTask := deleteTask_quiet
  messageRunner self runnerId message _ := messageRunner_quiet self runnerId message
  messageRequester self _ _ silent := messageRequester_quiet self silent

end Quiet

/-! ### Methods that start calls of `acceptOffer` or settle their promises -/

/-- A call in the second phase may stand where one in the first phase stood: it does not go
back to its runner, and settings have not come in between.
-/
structure Advances (first last : AcceptPhase Data) : Prop where
  runner : last.awaitsRunner = true → first.awaitsRunner = true
  settings : last.hasSettings = true → first.hasSettings = true

theorem Advances.same (phase : AcceptPhase Data) : Advances phase phase := ⟨id, id⟩

theorem Advances.trans {first middle last : AcceptPhase Data} (early : Advances first middle)
    (late : Advances middle last)
    : Advances first last :=
  ⟨early.runner ∘ late.runner, early.settings ∘ late.settings⟩

/-- No call of `acceptOffer` ends, and one that is new waits for its runner. -/
structure Frame (before after : TaskBroker Data) : Prop where
  kept
    : ∀ taskId, (before.acceptOffers.get? taskId).isSome
        → (after.acceptOffers.get? taskId).isSome
  origin
    : ∀ taskId accept, after.acceptOffers.get? taskId = some accept
        → (∃ earlier,
            before.acceptOffers.get? taskId = some earlier
            ∧ Advances earlier.phase accept.phase)
          ∨ (before.nextNumber ≤ taskId ∧ taskId < after.nextNumber
            ∧ Advances (.awaitingRunner none) accept.phase)
  announced : after.announced = before.announced
  tasks : ∀ taskId, (after.tasks.get? taskId).isSome → (before.tasks.get? taskId).isSome
  number : before.nextNumber ≤ after.nextNumber

theorem Quiet.frame {before after : TaskBroker Data} (quiet : Quiet before after)
    : Frame before after where
  kept := fun taskId present => quiet.acceptOffers.symm ▸ present
  origin := by
    intro taskId accept found
    rw [quiet.acceptOffers] at found
    exact .inl ⟨accept, found, .same accept.phase⟩
  announced := quiet.announced
  tasks := quiet.tasks
  number := quiet.number

theorem Frame.trans {first middle last : TaskBroker Data} (early : Frame first middle)
    (late : Frame middle last)
    : Frame first last where
  kept := fun taskId present => late.kept taskId (early.kept taskId present)
  origin := by
    intro taskId accept found
    rcases late.origin taskId accept found with ⟨earlier, before, advances⟩ | ⟨new, old, advances⟩
    · rcases early.origin taskId earlier before with ⟨first, found, starts⟩ | ⟨new, old, starts⟩
      · exact .inl ⟨first, found, starts.trans advances⟩
      · exact .inr ⟨new, old.trans_le late.number, starts.trans advances⟩
    · exact .inr ⟨early.number.trans new, old, advances⟩
  announced := late.announced.trans early.announced
  tasks := fun taskId present => early.tasks taskId (late.tasks taskId present)
  number := early.number.trans late.number

theorem Frame.foldl {Item : Type} {turn : TaskBroker Data → Item → TaskBroker Data}
    (each : ∀ self item, Frame self (turn self item)) (self : TaskBroker Data)
    (items : List Item)
    : Frame self (items.foldl turn self) := by
  induction items generalizing self with
  | nil => exact (Quiet.refl self).frame
  | cons item rest ih => exact (each self item).trans (ih (turn self item))

section Frame

variable (self : TaskBroker Data)

theorem setPhase_frame {taskId : TaskId} {accept : AcceptOffer Data}
    {phase : AcceptPhase Data} (found : self.acceptOffers.get? taskId = some accept)
    (advances : Advances accept.phase phase)
    : Frame self (self.setPhase taskId accept phase) where
  kept := by
    intro other present
    rw [setPhase, Dict.get?_set]
    split
    · rfl
    · exact present
  origin := by
    intro other later present
    rw [setPhase, Dict.get?_set] at present
    split at present
    · next same =>
        cases present
        exact .inl ⟨accept, same ▸ found, advances⟩
    · exact .inl ⟨later, present, .same later.phase⟩
  announced := rfl
  tasks := fun _ => id
  number := Nat.le_refl _

theorem settleRunner_frame (taskId : TaskId) (outcome : RunnerOutcome)
    : Frame self (self.settleRunner taskId outcome) := by
  unfold settleRunner
  split
  · next found => exact setPhase_frame self found ⟨fun _ => rfl, nofun⟩
  · exact (Quiet.refl self).frame

theorem settleRequester_frame (taskId : TaskId) {outcome : RequesterOutcome Data}
    (advances : Advances (.awaitingRequester none) (.awaitingRequester (some outcome)))
    : Frame self (self.settleRequester taskId outcome) := by
  unfold settleRequester
  split
  · next found => exact setPhase_frame self found advances
  · exact (Quiet.refl self).frame

theorem handleRunnerOutcome_frame (taskId : TaskId) (outcome : RunnerOutcome)
    : Frame self (self.handleRunnerOutcome taskId outcome) := by
  unfold handleRunnerOutcome
  split
  · apply (settleRunner_frame self taskId outcome).trans
    exact Quiet.frame ⟨rfl, rfl, fun _ => id, Nat.le_refl _⟩
  · exact (Quiet.refl self).frame

theorem handleRequesterReject_frame (taskId : TaskId) (reason : String)
    : Frame self (self.handleRequesterReject taskId reason) := by
  have advances
      : Advances (.awaitingRequester none : AcceptPhase Data)
          (.awaitingRequester (some (.rejected reason))) := ⟨nofun, nofun⟩
  unfold handleRequesterReject handleRequesterOutcome
  split
  · apply (settleRequester_frame self taskId advances).trans
    exact Quiet.frame ⟨rfl, rfl, fun _ => id, Nat.le_refl _⟩
  · exact (Quiet.refl self).frame

theorem acceptOffer_frame (offer : TaskOffer) (request : TaskRequest)
    : Frame self (self.acceptOffer offer request) := by
  have started
      : Frame self
          { self with
            nextNumber := self.nextNumber + 1
            runnerAcceptRejects := self.runnerAcceptRejects ++ [self.nextNumber]
            acceptOffers :=
              self.acceptOffers.set self.nextNumber ⟨offer, request, .awaitingRunner none⟩
          } := {
    kept := by
      intro other present
      rw [Dict.get?_set]
      split
      · rfl
      · exact present
    origin := by
      intro other later present
      rw [Dict.get?_set] at present
      split at present
      · next same =>
          cases present
          exact .inr ⟨same.ge, same ▸ Nat.lt_succ_self _, .same _⟩
      · exact .inl ⟨later, present, .same later.phase⟩
    announced := rfl
    tasks := fun _ => id
    number := Nat.le_succ _
  }
  exact started.trans (messageRunner_quiet _ _ _).frame

theorem settleRequest_frame (request : TaskRequest)
    : Frame self (self.settleRequest request) := by
  unfold settleRequest
  split
  · exact (Quiet.refl self).frame
  · split
    · exact (Quiet.refl self).frame
    · apply Frame.trans _ (acceptOffer_frame _ _ _)
      exact Quiet.frame ⟨rfl, rfl, fun _ => id, Nat.le_refl _⟩

theorem settleTasks_frame (now : Int) : Frame self (self.settleTasks now) := by
  unfold settleTasks
  apply Frame.trans _ (Frame.foldl settleRequest_frame _ _)
  exact Quiet.frame ⟨rfl, rfl, fun _ => id, Nat.le_refl _⟩

theorem taskRequested_frame (request : TaskRequest) (now : Int)
    : Frame self (self.taskRequested request now) := by
  unfold taskRequested
  split
  · exact ((clearTimeout_quiet self _).trans (messageRequester_quiet _ rfl)).frame
  · apply Frame.trans _ (settleTasks_frame _ _)
    exact Quiet.frame ⟨rfl, rfl, fun _ => id, Nat.le_refl _⟩

theorem requestTask_frame (requesterId taskType requestId : String) (now : Int)
    : Frame self (self.requestTask requesterId taskType requestId now) := by
  unfold requestTask
  apply Frame.trans _ (taskRequested_frame _ _ _)
  apply Frame.trans (setTimeout_quiet self (.requestTimeout requestId)).frame
  exact Quiet.frame ⟨rfl, rfl, fun _ => id, Nat.le_succ _⟩

theorem taskOffered_frame (offer : TaskOffer) (now : Int)
    : Frame self (self.taskOffered offer now) := by
  unfold taskOffered
  apply Frame.trans _ (settleTasks_frame _ _)
  exact Quiet.frame ⟨rfl, rfl, fun _ => id, Nat.le_refl _⟩

theorem deregisterRunner_frame (runnerId message : String)
    : Frame self (self.deregisterRunner runnerId message) := by
  unfold deregisterRunner
  have each (self : TaskBroker Data) (task : Task)
      : Frame self (failRunnerTask runnerId message self task) := by
    unfold failRunnerTask
    split
    · exact (quiet_carries.failTask self task.id _).frame.trans (handleRunnerOutcome_frame _ _ _)
    · exact (Quiet.refl self).frame
  apply Frame.trans _ (Frame.foldl each _ _)
  exact Quiet.frame ⟨rfl, rfl, fun _ => id, Nat.le_refl _⟩

theorem onRunnerMessage_frame (runnerId : String) (message : RunnerMessage Data) (now : Int)
    : Frame self (self.onRunnerMessage runnerId message now) := by
  unfold onRunnerMessage
  split
  · cases message with
    | taskoffer taskType offerId validFor => exact taskOffered_frame _ _ _
    | taskdone taskId data => exact (quiet_carries.taskDoneHandler _ _ _).frame
    | taskerror taskId error => exact (quiet_carries.taskErrorHandler _ _ _).frame
    | request kind taskId requestId params => exact (quiet_carries.handleRequest _ _ _ _ _).frame
    | _ => exact handleRunnerOutcome_frame _ _ _
  · exact (Quiet.refl self).frame

end Frame

/-! ### The invariant of a run -/

/-- The ids in use have been given, and as long as its runner has not answered, a task is
neither announced nor in the map.
-/
structure Numbered (broker : TaskBroker Data) : Prop where
  calls : ∀ taskId accept, broker.acceptOffers.get? taskId = some accept
      → taskId < broker.nextNumber
  announced : ∀ taskId ∈ broker.announced, taskId < broker.nextNumber
  tasks : ∀ taskId, (broker.tasks.get? taskId).isSome → taskId < broker.nextNumber
  early
    : ∀ taskId accept, broker.acceptOffers.get? taskId = some accept
        → accept.phase.awaitsRunner = true
        → taskId ∉ broker.announced ∧ broker.tasks.get? taskId = none

/-- Only announced tasks have settings. -/
def SettledAnnounced (self : TaskBroker Data) : Prop :=
  ∀ taskId accept, self.acceptOffers.get? taskId = some accept
    → accept.phase.hasSettings = true
    → taskId ∈ self.announced

section Invariant

variable {before after : TaskBroker Data}

theorem Numbered.frame (numbered : Numbered before) (frame : Frame before after)
    : Numbered after where
  calls := by
    intro taskId accept found
    rcases frame.origin taskId accept found with ⟨earlier, old, _⟩ | ⟨_, bound, _⟩
    · exact (numbered.calls taskId earlier old).trans_le frame.number
    · exact bound
  announced := by
    intro taskId member
    rw [frame.announced] at member
    exact (numbered.announced taskId member).trans_le frame.number
  tasks := fun taskId present =>
    (numbered.tasks taskId (frame.tasks taskId present)).trans_le frame.number
  early := by
    intro taskId accept found awaits
    have unknown : taskId ∉ before.announced ∧ before.tasks.get? taskId = none := by
      rcases frame.origin taskId accept found with ⟨earlier, old, advances⟩ | ⟨new, _, _⟩
      · exact numbered.early taskId earlier old (advances.runner awaits)
      · refine ⟨fun member => ?_, ?_⟩
        · exact absurd (numbered.announced taskId member) (Nat.not_lt_of_le new)
        · apply Option.not_isSome_iff_eq_none.mp
          exact fun present => absurd (numbered.tasks taskId present) (Nat.not_lt_of_le new)
    refine ⟨frame.announced ▸ unknown.1, ?_⟩
    apply Option.not_isSome_iff_eq_none.mp
    intro present
    have earlier := frame.tasks taskId present
    rw [unknown.2] at earlier
    contradiction

theorem SettledAnnounced.frame (settled : SettledAnnounced before)
    (frame : Frame before after)
    : SettledAnnounced after := by
  intro taskId accept found settings
  rw [frame.announced]
  rcases frame.origin taskId accept found with ⟨earlier, old, advances⟩ | ⟨_, _, advances⟩
  · exact settled taskId earlier old (advances.settings settings)
  · exact nomatch advances.settings settings

theorem NoOrphans.frame (noOrphans : NoOrphans before) (frame : Frame before after)
    : NoOrphans after := by
  intro taskId present
  rw [frame.announced]
  exact (noOrphans taskId (frame.tasks taskId present)).imp_right (frame.kept taskId)

theorem Frame.givesUp (frame : Frame before after) : GivesUp before after := by
  intro taskId accept outcome found _ ended
  have present := frame.kept taskId (Option.isSome_of_eq_some found)
  rw [ended] at present
  contradiction

variable (self : TaskBroker Data) (taskId : TaskId)

theorem endAccept_get? (other : TaskId)
    : (self.endAccept taskId).acceptOffers.get? other
      = if other = taskId then none else self.acceptOffers.get? other :=
  Dict.get?_delete _ _ _

variable {self : TaskBroker Data}

theorem Numbered.endAccept (numbered : Numbered self)
    : Numbered (self.endAccept taskId) where
  calls := by
    intro other accept found
    rw [endAccept_get?] at found
    split at found
    · contradiction
    · exact numbered.calls other accept found
  announced := numbered.announced
  tasks := numbered.tasks
  early := by
    intro other accept found
    rw [endAccept_get?] at found
    split at found
    · contradiction
    · exact numbered.early other accept found

theorem SettledAnnounced.endAccept (settled : SettledAnnounced self)
    : SettledAnnounced (self.endAccept taskId) := by
  intro other accept found
  rw [endAccept_get?] at found
  split at found
  · contradiction
  · exact settled other accept found

/-- A call may end whose task is announced or gone. -/
theorem NoOrphans.endAccept {taskId : TaskId} (noOrphans : NoOrphans self)
    (done : (self.tasks.get? taskId).isSome → taskId ∈ self.announced)
    : NoOrphans (self.endAccept taskId) := by
  intro other present
  rw [endAccept_get?]
  by_cases same : other = taskId
  · exact .inl (same ▸ done (same ▸ present))
  · rw [if_neg same]
    exact noOrphans other present

/-- A method that ends one call leaves it without a task, which its runner is told. -/
theorem givesUp_endAccept {middle : TaskBroker Data} (frame : Frame before middle)
    (gone : middle.tasks.get? taskId = none)
    (told
      : ∀ task, before.tasks.get? taskId = some task → task.runnerId ∈ before.knownRunners
          → ∃ reason, .toRunner task.runnerId (.taskcancel taskId reason) ∈ middle.sent)
    : GivesUp before (middle.endAccept taskId) := by
  intro other accept outcome found phase ended unannounced
  rw [endAccept_get?] at ended
  split at ended
  · next same =>
      rw [same]
      exact ⟨gone, told⟩
  · have present := frame.kept other (Option.isSome_of_eq_some found)
    rw [ended] at present
    contradiction

/-- Only a call that waits for its requester has a task to give up. -/
theorem givesUp_of_phase {before middle : TaskBroker Data} (frame : Frame before middle)
    {accept : AcceptOffer Data} (found : before.acceptOffers.get? taskId = some accept)
    (phase : ∀ outcome, accept.phase ≠ .awaitingRequester outcome)
    : GivesUp before (middle.endAccept taskId) := by
  intro other waiting outcome here waits ended
  rw [endAccept_get?] at ended
  split at ended
  · next same =>
      rw [same, found] at here
      cases here
      exact absurd waits (phase outcome)
  · have present := frame.kept other (Option.isSome_of_eq_some here)
    rw [ended] at present
    contradiction

end Invariant

/-! ### Calls that end -/

section Ends

variable (self : TaskBroker Data) (taskId : TaskId)

@[simp] theorem messageRunner_tasks (runnerId : String)
    (message : BrokerMessage.ToRunner Data)
    : (self.messageRunner runnerId message).tasks = self.tasks := by
  unfold messageRunner
  split <;> rfl

@[simp] theorem messageRequester_tasks (requesterId : String)
    (message : BrokerMessage.ToRequester Data)
    : (self.messageRequester requesterId message).tasks = self.tasks := by
  unfold messageRequester
  split <;> rfl

theorem cancelTask_gone (reason : String)
    : (self.cancelTask taskId reason).tasks.get? taskId = none := by
  unfold cancelTask
  split
  · next missing => exact missing
  · rw [messageRunner_tasks]
    simp [Dict.get?_delete]

theorem cancelTask_told (reason : String) {task : Task}
    (found : self.tasks.get? taskId = some task)
    (known : task.runnerId ∈ self.knownRunners)
    : .toRunner task.runnerId (.taskcancel taskId reason)
      ∈ (self.cancelTask taskId reason).sent := by
  simp [cancelTask, found, messageRunner, known]

theorem failTask_gone (error : TaskError Data)
    : (self.failTask taskId error).tasks.get? taskId = none := by
  unfold failTask
  split
  · next missing => exact missing
  · rw [messageRequester_tasks]
    simp [Dict.get?_delete]

/-- Without a runner the task is gone, and nobody is to be told. -/
theorem getRunnerOrFailTask_none {result : TaskBroker Data}
    (none : self.getRunnerOrFailTask taskId = (none, result))
    : result.tasks.get? taskId = .none
      ∧ ∀ task, self.tasks.get? taskId = some task → task.runnerId ∉ self.knownRunners := by
  unfold getRunnerOrFailTask at none
  split at none
  · next missing =>
      obtain rfl := (Prod.mk.inj none).2
      exact ⟨missing, by simp [missing]⟩
  · next task found =>
      split at none
      · cases none
      · next unknown =>
          obtain rfl := (Prod.mk.inj none).2
          refine ⟨failTask_gone _ _ _, ?_⟩
          intro other same
          rw [found] at same
          exact Option.some.inj same ▸ unknown

end Ends

/-! ### Calls that run on -/

/-- What is known before each step of a run. -/
structure Sound (broker : TaskBroker Data) : Prop where
  numbered : Numbered broker
  settled : SettledAnnounced broker
  noOrphans : NoOrphans broker

/-- The call, whose task may be put into the map, does not wait for its runner any more. -/
structure Registers (taskId : TaskId) (before after : TaskBroker Data) : Prop where
  others
    : ∀ other, other ≠ taskId → after.acceptOffers.get? other = before.acceptOffers.get? other
  own
    : ∀ accept, after.acceptOffers.get? taskId = some accept
        → accept.phase.awaitsRunner = false
  announced : ∀ other ∈ after.announced, other = taskId ∨ other ∈ before.announced
  kept : ∀ other ∈ before.announced, other ∈ after.announced
  tasks
    : ∀ other, (after.tasks.get? other).isSome
        → other = taskId ∨ (before.tasks.get? other).isSome
  number : after.nextNumber = before.nextNumber

section Registers

variable {before after : TaskBroker Data} {taskId : TaskId}

theorem Numbered.registers (numbered : Numbered before) (given : taskId < before.nextNumber)
    (registers : Registers taskId before after)
    : Numbered after where
  calls := by
    intro other accept found
    rw [registers.number]
    by_cases same : other = taskId
    · exact same ▸ given
    · exact numbered.calls other accept (registers.others other same ▸ found)
  announced := by
    intro other member
    rw [registers.number]
    rcases registers.announced other member with same | old
    · exact same ▸ given
    · exact numbered.announced other old
  tasks := by
    intro other present
    rw [registers.number]
    rcases registers.tasks other present with same | old
    · exact same ▸ given
    · exact numbered.tasks other old
  early := by
    intro other accept found awaits
    by_cases same : other = taskId
    · rw [registers.own accept (same ▸ found)] at awaits
      contradiction
    · obtain ⟨unannounced, missing⟩ :=
        numbered.early other accept (registers.others other same ▸ found) awaits
      refine ⟨fun member => ?_, Option.not_isSome_iff_eq_none.mp fun present => ?_⟩
      · exact (registers.announced other member).elim same unannounced
      · refine (registers.tasks other present).elim same fun old => ?_
        rw [missing] at old
        contradiction

theorem SettledAnnounced.registers (settled : SettledAnnounced before)
    (registers : Registers taskId before after)
    (own
      : ∀ accept, after.acceptOffers.get? taskId = some accept
          → accept.phase.hasSettings = true
          → taskId ∈ after.announced)
    : SettledAnnounced after := by
  intro other accept found settings
  by_cases same : other = taskId
  · exact same ▸ own accept (same ▸ found) settings
  · apply registers.kept
    exact settled other accept (registers.others other same ▸ found) settings

theorem NoOrphans.registers (noOrphans : NoOrphans before)
    (registers : Registers taskId before after)
    (waits : (after.acceptOffers.get? taskId).isSome)
    : NoOrphans after := by
  intro other present
  by_cases same : other = taskId
  · exact .inr (same ▸ waits)
  · rw [registers.others other same]
    have old := (registers.tasks other present).resolve_left same
    exact (noOrphans other old).imp_left (registers.kept other)

/-- The one call that changes goes on. -/
theorem Registers.givesUp_of_waits (registers : Registers taskId before after)
    (waits : (after.acceptOffers.get? taskId).isSome)
    : GivesUp before after := by
  intro other waiting outcome here phase ended
  by_cases same : other = taskId
  · rw [← same, ended] at waits
    contradiction
  · rw [registers.others other same, here] at ended
    contradiction

/-- The one call whose task is registered still waits for its runner. -/
theorem Registers.givesUp (registers : Registers taskId before after)
    {accept : AcceptOffer Data} (found : before.acceptOffers.get? taskId = some accept)
    (awaits : accept.phase.awaitsRunner = true)
    : GivesUp before after := by
  intro other waiting outcome here phase ended
  by_cases same : other = taskId
  · rw [same, found] at here
    cases here
    rw [phase] at awaits
    contradiction
  · rw [registers.others other same, here] at ended
    contradiction

end Registers

section Accepted

variable (self : TaskBroker Data) (taskId : TaskId) (accept : AcceptOffer Data)

@[simp] theorem clearTimeout_tasks (timeout : Option Nat)
    : (self.clearTimeout timeout).tasks = self.tasks := by
  cases timeout <;> rfl

theorem registerTask_findRequest (requestId : String)
    : (self.registerTask taskId accept).findRequest requestId = self.findRequest requestId := by
  unfold registerTask clearTimeout
  simp only
  split <;> rfl

theorem registerTask_nextNumber
    : (self.registerTask taskId accept).nextNumber = self.nextNumber := by
  unfold registerTask clearTimeout
  simp only
  split <;> rfl

theorem registerTask_acceptOffers
    : (self.registerTask taskId accept).acceptOffers = self.acceptOffers :=
  (clearTimeout_quiet self _).acceptOffers

theorem registerTask_announced
    : (self.registerTask taskId accept).announced = self.announced :=
  (clearTimeout_quiet self _).announced

theorem registerTask_tasks (other : TaskId)
    : ((self.registerTask taskId accept).tasks.get? other).isSome
      ↔ other = taskId ∨ (self.tasks.get? other).isSome := by
  unfold registerTask
  simp only [clearTimeout_tasks, Dict.get?_set]
  split <;> simp_all

/-- A task whose request is not pending is registered, and its call ends. -/
theorem registers_missing
    : Registers taskId self ((self.registerTask taskId accept).endAccept taskId) where
  others := by
    intro other differs
    rw [endAccept_get?, if_neg differs, registerTask_acceptOffers]
  own := by
    intro waiting found
    rw [endAccept_get?, if_pos rfl] at found
    contradiction
  announced := fun other member => .inr (registerTask_announced self taskId accept ▸ member)
  kept := fun other member => (registerTask_announced self taskId accept).symm ▸ member
  tasks := fun other => (registerTask_tasks self taskId accept other).mp
  number := registerTask_nextNumber self taskId accept

theorem announceTask_acceptOffers
    : (self.announceTask taskId accept).acceptOffers
      = self.acceptOffers.set taskId { accept with phase := .awaitingRequester none } := by
  unfold announceTask messageRequester
  simp only
  split <;> rfl

theorem announceTask_announced (other : TaskId)
    : (other ∈ (self.announceTask taskId accept).announced
        → other = taskId ∨ other ∈ self.announced)
      ∧ (other ∈ self.announced → other ∈ (self.announceTask taskId accept).announced) := by
  unfold announceTask messageRequester
  simp only
  split
  · simp only [announced, List.filterMap_append, List.mem_append]
    exact ⟨fun member => member.symm.imp_left (by simp [Message.announces?]), .inl⟩
  · exact ⟨.inr, id⟩

/-- A task whose request is pending is registered, and announced if its requester is known. -/
theorem registers_pending (requestId : String)
    : Registers taskId self
        (((self.registerTask taskId accept).spliceRequest requestId).announceTask taskId
          accept) where
  others := by
    intro other differs
    rw [announceTask_acceptOffers, Dict.get?_set, if_neg differs]
    exact congrArg (fun calls => calls.get? other) (registerTask_acceptOffers self taskId accept)
  own := by
    intro waiting found
    rw [announceTask_acceptOffers, Dict.get?_set, if_pos rfl] at found
    cases found
    rfl
  announced := by
    intro other member
    rw [← registerTask_announced self taskId accept]
    exact
      (announceTask_announced ((self.registerTask taskId accept).spliceRequest requestId)
        taskId accept other).1 member
  kept := by
    intro other member
    rw [← registerTask_announced self taskId accept] at member
    exact
      (announceTask_announced ((self.registerTask taskId accept).spliceRequest requestId)
        taskId accept other).2 member
  tasks := by
    intro other present
    rw [announceTask, messageRequester_tasks] at present
    exact (registerTask_tasks self taskId accept other).mp present
  number := by
    have same := registerTask_nextNumber self taskId accept
    unfold announceTask messageRequester
    simp only
    split <;> exact same

theorem taskAccepted_registers : Registers taskId self (self.taskAccepted taskId accept) := by
  unfold taskAccepted
  simp only
  split
  · exact registers_missing self taskId accept
  · exact registers_pending self taskId accept _

/-- The call goes on exactly if its request is still pending. -/
theorem taskAccepted_isSome_iff
    : ((self.taskAccepted taskId accept).acceptOffers.get? taskId).isSome
      ↔ (self.findRequest accept.request.requestId).isSome := by
  unfold taskAccepted
  simp only [registerTask_findRequest]
  split
  · next missing => simp [endAccept_get?, missing]
  · next request found =>
      rw [announceTask_acceptOffers, Dict.get?_set, if_pos rfl, found]
      simp

theorem taskAccepted_settings {waiting : AcceptOffer Data}
    (here : (self.taskAccepted taskId accept).acceptOffers.get? taskId = some waiting)
    : waiting.phase.hasSettings = false := by
  unfold taskAccepted at here
  simp only at here
  split at here
  · rw [endAccept_get?, if_pos rfl] at here
    contradiction
  · rw [announceTask_acceptOffers, Dict.get?_set, if_pos rfl] at here
    exact Option.some.inj here ▸ rfl

/-- Without its request the task stays, and nobody hears of it. -/
theorem taskAccepted_orphan (missing : self.findRequest accept.request.requestId = none)
    (unannounced : taskId ∉ self.announced)
    : ¬NoOrphans (self.taskAccepted taskId accept) := by
  intro noOrphans
  have ended : self.taskAccepted taskId accept
      = (self.registerTask taskId accept).endAccept taskId := by
    unfold taskAccepted
    simp only [registerTask_findRequest, missing]
  rw [ended] at noOrphans
  have present := (registerTask_tasks self taskId accept taskId).mpr (.inl rfl)
  rcases noOrphans taskId present with announced | call
  · exact unannounced (registerTask_announced self taskId accept ▸ announced)
  · rw [endAccept_get?, if_pos rfl] at call
    contradiction

end Accepted

/-! ### What one step does -/

/-- An acceptance finds its request still pending. -/
def AcceptsPending (self : TaskBroker Data) : Event Data → Prop
  | .resumeAccept taskId =>
      ∀ accept, self.acceptOffers.get? taskId = some accept
        → accept.phase = .awaitingRunner (some .accepted)
        → (self.findRequest accept.request.requestId).isSome
  | _ => True

/-- Settings come only for tasks that have been announced. -/
def SettlesAnnounced (self : TaskBroker Data) : Event Data → Prop
  | .requesterMessage _ (.tasksettings taskId _) _ => taskId ∈ self.announced
  | _ => True

section Steps

variable {self next : TaskBroker Data} {taskId : TaskId} {accept : AcceptOffer Data}

theorem setPhase_settled_frame {phase : AcceptPhase Data}
    (found : self.acceptOffers.get? taskId = some accept)
    (settled : accept.phase.hasSettings = true) (waits : phase.awaitsRunner = false)
    : Frame self (self.setPhase taskId accept phase) :=
  setPhase_frame self found
    ⟨fun awaits => (Bool.false_ne_true (waits.symm.trans awaits)).elim, fun _ => settled⟩

variable {runnerId : String}

theorem getRunnerOrFailTask_some {result : TaskBroker Data}
    (same : self.getRunnerOrFailTask taskId = (some runnerId, result))
    : result = self := by
  unfold getRunnerOrFailTask at same
  split at same
  · cases same
  · split at same
    · exact (Prod.mk.inj same).2.symm
    · cases same

theorem sendTaskSettings_frame {task : Task} {settings : Data}
    (registered : self.tasks.get? taskId = some task)
    (found : self.acceptOffers.get? taskId = some accept)
    (settled : accept.phase.hasSettings = true)
    : Frame self (self.sendTaskSettings taskId accept runnerId settings) := by
  unfold sendTaskSettings
  rw [registered]
  simp only
  have timed
      : Quiet self
          { self.setTimeout (.taskTimeout taskId) with
            tasks :=
              self.tasks.set taskId { task with timeout := some self.nextNumber }
          } := {
    acceptOffers := rfl
    announced := rfl
    tasks := by
      intro other present
      rw [Dict.get?_set] at present
      split at present
      · next same => simp [same, registered]
      · exact present
    number := Nat.le_succ _
  }
  apply timed.frame.trans
  apply Frame.trans _ (messageRunner_quiet _ _ _).frame
  exact setPhase_settled_frame found settled rfl

/-- What an event can do: nothing that matters to the calls, end a call, or one of the two
things that depend on the state.
-/
inductive StepShape (before after : TaskBroker Data) : Event Data → Prop
  | frame {event : Event Data} (frame : Frame before after) : StepShape before after event
  | ends {event : Event Data} (taskId : TaskId) (middle : TaskBroker Data)
    (frame : Frame before middle) (same : after = middle.endAccept taskId)
    (done
      : Numbered before → SettledAnnounced before → (middle.tasks.get? taskId).isSome
        → taskId ∈ middle.announced)
    (givesUp : GivesUp before after)
    : StepShape before after event
  | accepted (taskId : TaskId) (accept : AcceptOffer Data)
    (found : before.acceptOffers.get? taskId = some accept)
    (phase : accept.phase = .awaitingRunner (some .accepted))
    (same : after = before.taskAccepted taskId accept)
    : StepShape before after (.resumeAccept taskId)
  | settings (taskId : TaskId) (settings : Data) (requesterId : String) (now : Int)
    (same : after = before.handleRequesterAccept taskId settings)
    : StepShape before after (.requesterMessage requesterId (.tasksettings taskId settings) now)

variable {event : Event Data}

/-- A call that is given up: its task is cancelled. -/
theorem StepShape.cancelled (self : TaskBroker Data) (taskId : TaskId) (reason : String)
    : StepShape self ((self.cancelTask taskId reason).endAccept taskId) event := by
  have frame := (quiet_carries.cancelTask self taskId reason).frame
  have gone := cancelTask_gone self taskId reason
  refine .ends taskId _ frame rfl (fun _ _ present => ?_) ?_
  · rw [gone] at present
    contradiction
  · apply givesUp_endAccept taskId frame gone
    exact fun task found known => ⟨reason, cancelTask_told self taskId reason found known⟩

section

variable (found : self.acceptOffers.get? taskId = some accept)

include found

theorem StepShape.released {outcome : Option RunnerOutcome} {middle : TaskBroker Data}
    (phase : accept.phase = .awaitingRunner outcome) (quiet : Quiet self middle)
    : StepShape self (middle.endAccept taskId) event := by
  refine .ends taskId middle quiet.frame rfl (fun numbered _ present => ?_) ?_
  · have missing := (numbered.early taskId accept found (by rw [phase]; rfl)).2
    have old := quiet.tasks taskId present
    rw [missing] at old
    contradiction
  · exact givesUp_of_phase taskId quiet.frame found (by simp [phase])

theorem resumeAfterRunner_shape {outcome : RunnerOutcome}
    (phase : accept.phase = .awaitingRunner (some outcome))
    : StepShape self (self.resumeAfterRunner taskId accept outcome)
        (.resumeAccept taskId) := by
  have released := releaseRequest_quiet self accept.request
  cases outcome with
  | accepted => exact .accepted taskId accept found phase rfl
  | deferred => exact .released found phase (released.trans (deferRequest_quiet _ _))
  | _ => exact .released found phase released

theorem resumeAfterRequester_shape {outcome : RequesterOutcome Data}
    (phase : accept.phase = .awaitingRequester (some outcome))
    : StepShape self (self.resumeAfterRequester taskId accept outcome)
        (.resumeAccept taskId) := by
  cases outcome with
  | rejected reason => exact .cancelled self taskId reason
  | timedOut => exact .cancelled self taskId "Unknown reason"
  | settings settings =>
      have quiet := quiet_carries.getRunnerOrFailTask self taskId
      unfold resumeAfterRequester
      simp only
      split
      · next result none =>
          rw [none] at quiet
          obtain ⟨gone, unknown⟩ := getRunnerOrFailTask_none self taskId none
          refine .ends taskId result quiet.frame rfl (fun _ _ present => ?_) ?_
          · rw [gone] at present
            contradiction
          · apply givesUp_endAccept taskId quiet.frame gone
            exact fun task registered known => absurd known (unknown task registered)
      · next runnerId result same =>
          obtain rfl := getRunnerOrFailTask_some same
          exact .frame (setPhase_settled_frame found (by rw [phase]; rfl) rfl)

theorem sendTaskSettings_shape {settings : Data}
    (phase : accept.phase = .gettingRunner runnerId settings)
    : StepShape self (self.sendTaskSettings taskId accept runnerId settings)
        (.resumeAccept taskId) := by
  cases registered : self.tasks.get? taskId with
  | some task => exact .frame (sendTaskSettings_frame registered found (by rw [phase]; rfl))
  | none =>
      have unchanged := (Quiet.refl self).frame
      rw [sendTaskSettings, registered]
      refine .ends taskId self unchanged rfl (fun _ _ present => ?_) ?_
      · rw [registered] at present
        contradiction
      · exact givesUp_of_phase taskId unchanged found (by simp [phase])

end

theorem resumeAccept_shape (taken : self.resumeAccept taskId = some next)
    : StepShape self next (.resumeAccept taskId) := by
  unfold resumeAccept at taken
  split at taken
  · contradiction
  · next accept found =>
      split at taken
      · contradiction
      · next outcome phase =>
          cases taken
          exact resumeAfterRunner_shape found phase
      · contradiction
      · next outcome phase =>
          cases taken
          exact resumeAfterRequester_shape found phase
      · next runnerId settings phase =>
          cases taken
          exact sendTaskSettings_shape found phase
      · next phase =>
          cases taken
          have unchanged := (Quiet.refl self).frame
          refine .ends taskId self unchanged rfl (fun _ settled _ => ?_) ?_
          · exact settled taskId accept found (by rw [phase]; rfl)
          · exact givesUp_of_phase taskId unchanged found (by simp [phase])

theorem failAccept_shape (taken : self.failAccept taskId = some next)
    : StepShape self next (.failAccept taskId) := by
  unfold failAccept at taken
  split at taken
  · contradiction
  · next accept found =>
      split at taken
      · next outcome phase =>
          cases taken
          exact .released found phase (releaseRequest_quiet self accept.request)
      · cases taken
        exact .cancelled self taskId "Unknown reason"
      · contradiction
      · cases taken
        exact .cancelled self taskId "Unknown reason"

theorem fireTimer_frame {timer : Nat} (taken : self.fireTimer timer = some next)
    : Frame self next := by
  have unset : Quiet self { self with timers := self.timers.delete timer } :=
    ⟨rfl, rfl, fun _ => id, Nat.le_refl _⟩
  unfold fireTimer at taken
  split at taken
  · contradiction
  · split at taken
    · cases taken
      exact (unset.trans (handleRequestTimeout_quiet _ _)).frame
    · cases taken
      exact (unset.trans (quiet_carries.handleTaskTimeout _ _)).frame

theorem resumeSuspended_frame {index : Nat} (taken : self.resumeSuspended index = some next)
    : Frame self next := by
  unfold resumeSuspended at taken
  split at taken
  · contradiction
  · cases taken
    have silent (method : Suspended Data) : method.Sends (·.announces? = none) := by
      cases method <;> trivial
    apply Frame.trans _ (quiet_carries.runSuspended _ (silent _)).frame
    exact Quiet.frame ⟨rfl, rfl, fun _ => id, Nat.le_refl _⟩

theorem failSuspended_frame {index : Nat} (taken : self.failSuspended index = some next)
    : Frame self next := by
  unfold failSuspended at taken
  split at taken
  · cases taken
    exact Quiet.frame ⟨rfl, rfl, fun _ => id, Nat.le_refl _⟩
  · contradiction

theorem onRequesterMessage_shape (self : TaskBroker Data) (requesterId : String)
    (message : RequesterMessage Data) (now : Int)
    : StepShape self (self.onRequesterMessage requesterId message now)
        (.requesterMessage requesterId message now) := by
  cases message with
  | tasksettings taskId settings => exact .settings taskId settings requesterId now rfl
  | taskcancel taskId reason => exact .frame (quiet_carries.cancelTask self taskId reason).frame
  | taskrequest taskType requestId => exact .frame (requestTask_frame self _ _ _ _)
  | response kind taskId requestId data =>
      exact .frame (quiet_carries.handleRequesterResponse self _ _ _ _).frame

/-- What one step can do to the calls and the tasks, one case for each kind of event. -/
theorem step_shape (taken : self.step event = some next)
    : StepShape self next event := by
  have fieldsOnly {after : TaskBroker Data} (same : some after = some next)
      (quiet : Quiet self after)
      : StepShape self next event := by
    cases same
    exact .frame quiet.frame
  cases event with
  | resumeAccept taskId => exact resumeAccept_shape taken
  | failAccept taskId => exact failAccept_shape taken
  | timer timer => exact .frame (fireTimer_frame taken)
  | resumeSuspended index => exact .frame (resumeSuspended_frame taken)
  | failSuspended index => exact .frame (failSuspended_frame taken)
  | requesterMessage requesterId message now =>
      cases taken
      exact onRequesterMessage_shape self requesterId message now
  | runnerMessage runnerId message now =>
      cases taken
      exact .frame (onRunnerMessage_frame self runnerId message now)
  | deregisterRunner runnerId message =>
      cases taken
      exact .frame (deregisterRunner_frame self runnerId message)
  | requesterReject taskId reason =>
      cases taken
      exact .frame (handleRequesterReject_frame self taskId reason)
  | runnerAcceptTimeout taskId =>
      cases taken
      exact .frame (settleRunner_frame self taskId .timedOut)
  | requesterAcceptTimeout taskId =>
      cases taken
      exact .frame (settleRequester_frame self taskId ⟨nofun, nofun⟩)
  | registerRunner runnerId =>
      cases taken
      apply StepShape.frame
      apply Frame.trans _ (messageRunner_quiet _ _ _).frame
      exact Quiet.frame ⟨rfl, rfl, fun _ => id, Nat.le_refl _⟩
  | _ =>
      exact fieldsOnly taken ⟨rfl, rfl, fun _ => id, Nat.le_refl _⟩

/-- Settings settle the promise of a call that waits for them, or change nothing. -/
theorem handleRequesterAccept_cases (self : TaskBroker Data) (taskId : TaskId)
    (settings : Data)
    : Quiet self (self.handleRequesterAccept taskId settings)
      ∨ (self.acceptOffers.get? taskId).isSome
        ∧ ((self.handleRequesterAccept taskId settings).acceptOffers.get? taskId).isSome
        ∧ (self.handleRequesterAccept taskId settings).announced = self.announced
        ∧ Registers taskId self (self.handleRequesterAccept taskId settings) := by
  unfold handleRequesterAccept handleRequesterOutcome settleRequester
  split
  · split
    · next offer request found =>
        refine .inr ⟨Option.isSome_of_eq_some found, ?_, rfl, ?_⟩
        · simp [setPhase]
        · refine {
            others := fun other differs => ?_
            own := fun waiting here => ?_
            announced := fun other => .inr
            kept := fun other => id
            tasks := fun other => .inr
            number := rfl
          }
          · simp only [setPhase]
            rw [Dict.get?_set, if_neg differs]
          · simp only [setPhase] at here
            rw [Dict.get?_set, if_pos rfl] at here
            cases here
            rfl
    · exact .inl ⟨rfl, rfl, fun _ => id, Nat.le_refl _⟩
  · exact .inl (.refl self)

theorem Numbered.step {event : Event Data} (numbered : Numbered self)
    (taken : self.step event = some next)
    : Numbered next := by
  cases step_shape taken with
  | frame frame => exact numbered.frame frame
  | ends taskId middle frame same => exact same ▸ (numbered.frame frame).endAccept taskId
  | accepted taskId accept found phase same =>
      rw [same]
      exact numbered.registers (numbered.calls taskId accept found)
        (taskAccepted_registers self taskId accept)
  | settings taskId settings requesterId now same =>
      rw [same]
      rcases handleRequesterAccept_cases self taskId settings with
        quiet | ⟨present, _, _, registers⟩
      · exact numbered.frame quiet.frame
      · obtain ⟨accept, found⟩ := Option.isSome_iff_exists.mp present
        exact numbered.registers (numbered.calls taskId accept found) registers

theorem Sound.step {event : Event Data} (sound : Sound self)
    (pending : self.AcceptsPending event) (known : self.SettlesAnnounced event)
    (taken : self.step event = some next)
    : Sound next := by
  refine ⟨sound.numbered.step taken, ?_, ?_⟩
  · cases step_shape taken with
    | frame frame => exact sound.settled.frame frame
    | ends taskId middle frame same => exact same ▸ (sound.settled.frame frame).endAccept taskId
    | accepted taskId accept found phase same =>
        rw [same]
        apply sound.settled.registers (taskAccepted_registers self taskId accept)
        intro waiting here settings
        exact absurd settings (by simp [taskAccepted_settings self taskId accept here])
    | settings taskId settings requesterId now same =>
        rw [same]
        rcases handleRequesterAccept_cases self taskId settings with
          quiet | ⟨_, _, announced, registers⟩
        · exact sound.settled.frame quiet.frame
        · exact sound.settled.registers registers (fun _ _ _ => announced.symm ▸ known)
  · cases step_shape taken with
    | frame frame => exact sound.noOrphans.frame frame
    | ends taskId middle frame same done =>
        rw [same]
        exact (sound.noOrphans.frame frame).endAccept (done sound.numbered sound.settled)
    | accepted taskId accept found phase same =>
        rw [same]
        apply sound.noOrphans.registers (taskAccepted_registers self taskId accept)
        exact (taskAccepted_isSome_iff self taskId accept).mpr (pending accept found phase)
    | settings taskId settings requesterId now same =>
        rw [same]
        rcases handleRequesterAccept_cases self taskId settings with
          quiet | ⟨_, waits, _, registers⟩
        · exact sound.noOrphans.frame quiet.frame
        · exact sound.noOrphans.registers registers waits

theorem GivesUp.step {event : Event Data} (taken : self.step event = some next)
    : GivesUp self next := by
  cases step_shape taken with
  | frame frame => exact frame.givesUp
  | ends taskId middle frame same done givesUp => exact givesUp
  | accepted taskId accept found phase same =>
      rw [same]
      exact (taskAccepted_registers self taskId accept).givesUp found (by rw [phase]; rfl)
  | settings taskId settings requesterId now same =>
      rw [same]
      rcases handleRequesterAccept_cases self taskId settings with
        quiet | ⟨_, waits, _, registers⟩
      · exact quiet.frame.givesUp
      · exact registers.givesUp_of_waits waits

end Steps

/-! ### Runs -/

theorem Sound.new (config : TaskRunnersConfig) : Sound (new config : TaskBroker Data) where
  numbered := {
    calls := fun _ _ found => absurd found (by simp [TaskBroker.new])
    announced := fun _ member => absurd member List.not_mem_nil
    tasks := fun _ present => absurd present (by simp [TaskBroker.new])
    early := fun _ _ found => absurd found (by simp [TaskBroker.new])
  }
  settled _ _ found := absurd found (by simp [TaskBroker.new])
  noOrphans _ present := absurd present (by simp [TaskBroker.new])

/-- In every state of a run no task is left without its requester knowing, and no step gives
one up without telling its runner, exactly if each acceptance by a runner finds its request
still pending.
-/
theorem noOrphans_iff (config : TaskRunnersConfig) (events : List (Event Data))
    (known : Along step SettlesAnnounced (new config) events)
    : Throughout step
          (fun broker =>
            broker.NoOrphans
            ∧ ∀ event next, broker.step event = some next → GivesUp broker next)
          (new config) events
      ↔ Along step AcceptsPending (new config) events := by
  constructor
  · intro good
    apply along_of_throughout Numbered (fun _ _ _ => Numbered.step) _
      (Sound.new config).numbered good
    intro broker event next numbered before taken after
    cases event with
    | resumeAccept taskId =>
        intro accept found phase
        by_contra missing
        have awaits : accept.phase.awaitsRunner = true := by rw [phase]; rfl
        have accepted : next = broker.taskAccepted taskId accept := by
          simp only [step, resumeAccept, found, phase] at taken
          exact (Option.some.inj taken).symm
        have unannounced := (numbered.early taskId accept found awaits).1
        apply taskAccepted_orphan broker taskId accept
          (Option.not_isSome_iff_eq_none.mp missing) unannounced
        exact accepted ▸ after.1
    | _ => trivial
  · intro pending
    have sound : Throughout step Sound (new config) events := by
      have preserved (broker : TaskBroker Data) (event : Event Data)
          (next : TaskBroker Data) (sound : Sound broker)
          (allowed : broker.AcceptsPending event ∧ broker.SettlesAnnounced event)
          (taken : broker.step event = some next)
          : Sound next := sound.step allowed.1 allowed.2 taken
      exact throughout_of_preserved preserved (Sound.new config) (pending.and known)
    apply sound.mono
    exact fun broker sound => ⟨sound.noOrphans, fun event next => GivesUp.step⟩

/-- A request expires after a runner has been told that its offer is accepted, and before
the runner has answered.
-/
def racingEvents : List (Event Unit) :=
  [
    .registerRunner "runner",
    .registerRequester "requester",
    .requesterMessage "requester" (.taskrequest "javascript" "request") 0,
    .runnerMessage "runner" (.taskoffer "javascript" "offer" 5000) 0,
    .timer 0,
    .runnerMessage "runner" (.taskaccepted 2) 0,
    .resumeAccept 2
  ]

theorem noOrphans_iff_racing
    : Throughout step
          (fun broker =>
            broker.NoOrphans
            ∧ ∀ event next, broker.step event = some next → GivesUp broker next)
          (new ⟨.internal, 300, true⟩) racingEvents
      ↔ Along step AcceptsPending (new ⟨.internal, 300, true⟩) racingEvents :=
  noOrphans_iff _ racingEvents (by simp [racingEvents, Along, SettlesAnnounced])

/-- The task is in the map, its requester has only been told that the request has expired,
and no call takes care of it.
-/
theorem racingEvents_orphan
    : ¬Throughout step
        (fun broker =>
          broker.NoOrphans
          ∧ ∀ event next, broker.step event = some next → GivesUp broker next)
        (new ⟨.internal, 300, true⟩) racingEvents := by
  have left
      : (run step (new ⟨.internal, 300, true⟩) racingEvents).map (fun broker =>
            ((broker.tasks.get? 2).isSome, broker.announced,
              (broker.acceptOffers.get? 2).isSome))
          = some (true, [], false) := by
    decide +kernel
  obtain ⟨reached, ran, same⟩ := Option.map_eq_some_iff.mp left
  simp only [Prod.mk.injEq] at same
  obtain ⟨registered, unannounced, ended⟩ := same
  intro good
  rcases (good.last ran).1 2 registered with announced | call
  · rw [unannounced] at announced
    exact absurd announced List.not_mem_nil
  · rw [ended] at call
    exact Bool.false_ne_true call

end TaskBroker

end N8n.TaskRunners
