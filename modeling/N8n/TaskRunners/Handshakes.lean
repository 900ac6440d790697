import Mathlib.Data.List.Perm.Subperm
import N8n.Library.Selection
import N8n.TaskRunners.OrphanTasks

/-! The offers of runners over whole runs. An offer is taken from the list before its runner
is told that it is accepted, and a request that a call of `acceptOffer` holds is not given
another offer.
-/

namespace N8n.TaskRunners

open Runs Library

/-- The runner, the offer and the task of a message that accepts an offer. -/
def Message.accepts? {Data : Type} : Message Data → Option (String × String × TaskId)
  | .toRunner runnerId (.taskofferaccept offerId taskId) => some (runnerId, offerId, taskId)
  | _ => none

def Suspended.accepts? {Data : Type} : Suspended Data → Option (String × String × TaskId)
  | .messageRunner runnerId message => (Message.toRunner runnerId message).accepts?
  | _ => none

/-- An offer id is the choice of its runner. -/
def TaskOffer.key (offer : TaskOffer) : String × String := (offer.runnerId, offer.offerId)

def TaskOffer.Unexpired (offer : TaskOffer) (now : Int) : Prop :=
  offer.validFor = -1 ∨ ¬offer.validUntil < now

/-- The offer of the call was for its request, at the time of the match. -/
structure AcceptOffer.Fits {Data : Type} (call : AcceptOffer Data) (now : Int) : Prop where
  taskType : call.offer.taskType = call.request.taskType
  unexpired : call.offer.Unexpired now

/-- Two phases of one call. -/
structure AcceptOffer.SameDeal {Data : Type} (earlier later : AcceptOffer Data) : Prop where
  offer : earlier.offer = later.offer
  request : earlier.request = later.request

variable {Data : Type}

theorem AcceptOffer.SameDeal.refl (call : AcceptOffer Data)
    : SameDeal call call := ⟨rfl, rfl⟩

theorem AcceptOffer.SameDeal.trans {first middle last : AcceptOffer Data}
    (early : SameDeal first middle) (late : SameDeal middle last)
    : SameDeal first last :=
  ⟨early.offer.trans late.offer, early.request.trans late.request⟩

/-- What the matching of offers with requests depends on. -/
structure DealRecords (Data : Type) where
  pendingTaskOffers : List TaskOffer
  pendingTaskRequests : List TaskRequest
  acceptInProgress : List Nat
  acceptOffers : Dict TaskId (AcceptOffer Data)
  suspended : List (Suspended Data)
  accepted : List (String × String × TaskId)

namespace TaskBroker

variable {Data : Type}

/-- The acceptances that runners have been sent. -/
def accepted (self : TaskBroker Data) : List (String × String × TaskId) :=
  self.sent.filterMap Message.accepts?

/-- The requests of the handshakes in flight. -/
def inFlight (self : TaskBroker Data) : List TaskRequest :=
  self.acceptOffers.values.map AcceptOffer.request

def dealRecords (self : TaskBroker Data) : DealRecords Data where
  pendingTaskOffers := self.pendingTaskOffers
  pendingTaskRequests := self.pendingTaskRequests
  acceptInProgress := self.acceptInProgress
  acceptOffers := self.acceptOffers
  suspended := self.suspended
  accepted := self.accepted

/-- No offer meets a request. Calls may end, and offers may leave. -/
structure Rests (before after : TaskBroker Data) : Prop where
  offers : after.pendingTaskOffers.Sublist before.pendingTaskOffers
  requests
    : ∀ request ∈ after.pendingTaskRequests,
        request ∈ before.pendingTaskRequests ∨ request ∈ before.inFlight
  calls
    : ∀ taskId call, after.acceptOffers.get? taskId = some call
        → ∃ earlier, before.acceptOffers.get? taskId = some earlier ∧ earlier.SameDeal call
  held
    : ∀ taskId call, after.acceptOffers.get? taskId = some call
        → call.request.reference ∈ before.acceptInProgress
        → call.request.reference ∈ after.acceptInProgress
  suspended
    : ∀ method ∈ after.suspended, method ∈ before.suspended ∨ method.accepts? = none
  accepted : after.accepted = before.accepted
  number : before.nextNumber ≤ after.nextNumber

variable {request : TaskRequest}

theorem mem_inFlight_iff {self : TaskBroker Data}
    : request ∈ self.inFlight
      ↔ ∃ taskId call, self.acceptOffers.get? taskId = some call ∧ call.request = request := by
  simp only [inFlight, List.mem_map, Dict.mem_values_iff]
  constructor
  · rintro ⟨call, ⟨taskId, found⟩, same⟩
    exact ⟨taskId, call, found, same⟩
  · rintro ⟨taskId, call, found, same⟩
    exact ⟨call, ⟨taskId, found⟩, same⟩

variable {before after : TaskBroker Data}

theorem Rests.of_same (same : after.dealRecords = before.dealRecords)
    (number : before.nextNumber ≤ after.nextNumber)
    : Rests before after := by
  obtain ⟨offers, requests, busy, calls, suspended, accepted⟩ := DealRecords.mk.inj same
  refine ⟨offers ▸ .refl _, ?_, ?_, ?_, ?_, accepted, number⟩
  · exact fun request pending => .inl (requests ▸ pending)
  · exact fun taskId call found => ⟨call, calls ▸ found, .refl call⟩
  · exact fun taskId call found held => busy.symm ▸ held
  · exact fun method waits => .inl (suspended ▸ waits)

theorem Rests.refl (self : TaskBroker Data) : Rests self self :=
  .of_same rfl (Nat.le_refl _)

theorem Rests.inFlight (rests : Rests before after) (here : request ∈ after.inFlight)
    : request ∈ before.inFlight := by
  obtain ⟨taskId, call, found, rfl⟩ := mem_inFlight_iff.mp here
  obtain ⟨earlier, old, same⟩ := rests.calls taskId call found
  exact mem_inFlight_iff.mpr ⟨taskId, earlier, old, same.request⟩

variable {first middle last : TaskBroker Data}

theorem Rests.trans (early : Rests first middle) (late : Rests middle last)
    : Rests first last where
  offers := late.offers.trans early.offers
  requests := by
    intro request pending
    rcases late.requests request pending with earlier | held
    · exact early.requests request earlier
    · exact .inr (early.inFlight held)
  calls := by
    intro taskId call found
    obtain ⟨between, here, ends⟩ := late.calls taskId call found
    obtain ⟨earlier, old, starts⟩ := early.calls taskId between here
    exact ⟨earlier, old, starts.trans ends⟩
  held := by
    intro taskId call found held
    apply late.held taskId call found
    obtain ⟨between, here, same⟩ := late.calls taskId call found
    have kept := early.held taskId between here
    rw [same.request] at kept
    exact kept held
  suspended := by
    intro method waits
    rcases late.suspended method waits with earlier | silent
    · exact early.suspended method earlier
    · exact .inr silent
  accepted := late.accepted.trans early.accepted
  number := early.number.trans late.number

/-! ### Methods that match nothing -/

section Rests

variable (self : TaskBroker Data)

theorem clearTimeout_rests (timeout : Option Nat) : Rests self (self.clearTimeout timeout) := by
  cases timeout with
  | none => exact .refl self
  | some timer => exact .of_same rfl (Nat.le_refl _)

theorem setTimeout_rests (timer : Timer) : Rests self (self.setTimeout timer) :=
  .of_same rfl (Nat.le_succ _)

variable {method : Suspended Data}

theorem suspend_rests (silent : method.accepts? = none)
    : Rests self (self.suspend method) := by
  refine { Rests.refl self with suspended := fun other waits => ?_ }
  rcases List.mem_append.mp waits with old | new
  · exact .inl old
  · exact .inr (List.mem_singleton.mp new ▸ silent)

theorem spliceRequest_rests (requestId : String)
    : Rests self (self.spliceRequest requestId) :=
  { Rests.refl self with
    requests := fun _ pending => .inl (List.mem_of_mem_eraseP pending)
  }

theorem messageRunner_rests {runnerId : String} {message : BrokerMessage.ToRunner Data}
    (silent : (Message.toRunner runnerId message).accepts? = none)
    : Rests self (self.messageRunner runnerId message) := by
  unfold messageRunner
  split
  · exact .of_same (by simp [dealRecords, accepted, silent]) (Nat.le_refl _)
  · exact .refl self

theorem messageRequester_rests (requesterId : String)
    (message : BrokerMessage.ToRequester Data)
    : Rests self (self.messageRequester requesterId message) := by
  unfold messageRequester
  split
  · exact .of_same (by simp [dealRecords, accepted, Message.accepts?]) (Nat.le_refl _)
  · exact .refl self

theorem handleRequestTimeout_rests (requestId : String)
    : Rests self (self.handleRequestTimeout requestId) := by
  unfold handleRequestTimeout
  split
  · exact .refl self
  · apply (spliceRequest_rests self requestId).trans
    exact (clearTimeout_rests _ _).trans (messageRequester_rests _ _ _)

theorem deleteTask_rests (taskId : TaskId)
    : Rests self { self with tasks := self.tasks.delete taskId } :=
  .of_same rfl (Nat.le_refl _)

theorem sends_iff
    : method.Sends (·.accepts? = none) ↔ method.accepts? = none := by
  cases method with
  | messageRunner runnerId message => rfl
  | _ => exact iff_of_true trivial rfl

theorem rests_carries
    : Carries (fun message : Message Data => message.accepts? = none) Rests where
  refl := .refl
  trans := .trans
  aboutTask message about := by
    cases message with
    | toRunner _ message => cases message <;> first | rfl | exact about.elim
    | toRequester _ _ => rfl
  clearTimeout := clearTimeout_rests
  suspend self _ sends := suspend_rests self (sends_iff.mp sends)
  deleteTask := deleteTask_rests
  messageRunner self _ _ silent := messageRunner_rests self silent
  messageRequester self requesterId message _ := messageRequester_rests self requesterId message

theorem setPhase_rests {taskId : TaskId} {call : AcceptOffer Data}
    (found : self.acceptOffers.get? taskId = some call) (phase : AcceptPhase Data)
    : Rests self (self.setPhase taskId call phase) := by
  refine {
    Rests.refl self with
    calls := fun other later present => ?_
    held := fun _ _ _ => id
  }
  rw [setPhase, Dict.get?_set] at present
  split at present
  · next same =>
      cases present
      exact ⟨call, same ▸ found, rfl, rfl⟩
  · exact ⟨later, present, .refl later⟩

theorem settleRunner_rests (taskId : TaskId) (outcome : RunnerOutcome)
    : Rests self (self.settleRunner taskId outcome) := by
  unfold settleRunner
  split
  · next found => exact setPhase_rests self found _
  · exact .refl self

theorem settleRequester_rests (taskId : TaskId) (outcome : RequesterOutcome Data)
    : Rests self (self.settleRequester taskId outcome) := by
  unfold settleRequester
  split
  · next found => exact setPhase_rests self found _
  · exact .refl self

theorem handleRunnerOutcome_rests (taskId : TaskId) (outcome : RunnerOutcome)
    : Rests self (self.handleRunnerOutcome taskId outcome) := by
  unfold handleRunnerOutcome
  split
  · exact (settleRunner_rests self taskId outcome).trans (.of_same rfl (Nat.le_refl _))
  · exact .refl self

theorem handleRequesterOutcome_rests (taskId : TaskId) (outcome : RequesterOutcome Data)
    : Rests self (self.handleRequesterOutcome taskId outcome) := by
  unfold handleRequesterOutcome
  split
  · exact (settleRequester_rests self taskId outcome).trans (.of_same rfl (Nat.le_refl _))
  · exact .refl self

theorem failRunnerTask_rests (runnerId message : String) (task : Task)
    : Rests self (failRunnerTask runnerId message self task) := by
  unfold failRunnerTask
  split
  · exact (rests_carries.failTask self task.id _).trans (handleRunnerOutcome_rests _ _ _)
  · exact .refl self

theorem deregisterRunner_rests (runnerId message : String)
    : Rests self (self.deregisterRunner runnerId message) := by
  unfold deregisterRunner
  apply Rests.trans _ (rests_carries.foldl _ (failRunnerTask_rests · runnerId message) _)
  exact { Rests.refl self with offers := List.filter_sublist }

theorem expireTasks_rests (now : Int) : Rests self (self.expireTasks now) :=
  { Rests.refl self with offers := List.filter_sublist }

end Rests

/-! ### The invariant of a run -/

/-- The runners and the offers of the acceptances that runners have been sent. -/
def offersAccepted (self : TaskBroker Data) : List (String × String) :=
  self.accepted.map fun (runnerId, offerId, _) => (runnerId, offerId)

/-- What is known when runners have made the offers, and requesters the requests. -/
structure Dealing (offers : List (String × String)) (requests : List TaskRequest)
    (broker : TaskBroker Data)
    : Prop where
  used
    : (broker.offersAccepted ++ broker.pendingTaskOffers.map TaskOffer.key).Subperm offers
  distinct : (requests.map TaskRequest.reference).Nodup
  known : ∀ request ∈ requests, request.reference < broker.nextNumber
  pending : ∀ request ∈ broker.pendingTaskRequests, request ∈ requests
  inFlight : ∀ request ∈ broker.inFlight, request ∈ requests
  held
    : ∀ taskId call, broker.acceptOffers.get? taskId = some call
        → call.request.reference ∈ broker.acceptInProgress
  single
    : ∀ taskId other call another,
        broker.acceptOffers.get? taskId = some call
        → broker.acceptOffers.get? other = some another
        → call.request.reference = another.request.reference
        → taskId = other
  given : ∀ taskId call, broker.acceptOffers.get? taskId = some call → taskId < broker.nextNumber
  silent : ∀ method ∈ broker.suspended, method.accepts? = none

section Dealing

variable {offers : List (String × String)} {requests : List TaskRequest}
  {before after self : TaskBroker Data}

theorem Dealing.new (config : TaskRunnersConfig)
    : Dealing [] [] (new config : TaskBroker Data) where
  used := List.nil_subperm
  distinct := List.nodup_nil
  known _ made := absurd made List.not_mem_nil
  pending _ waits := absurd waits List.not_mem_nil
  inFlight _ here := absurd here List.not_mem_nil
  held _ _ found := absurd found (by simp [TaskBroker.new])
  single _ _ _ _ found := absurd found (by simp [TaskBroker.new])
  given _ _ found := absurd found (by simp [TaskBroker.new])
  silent _ waits := absurd waits List.not_mem_nil

theorem Dealing.rests (dealing : Dealing offers requests before) (rests : Rests before after)
    : Dealing offers requests after where
  used := by
    apply List.Subperm.trans _ dealing.used
    rw [offersAccepted, rests.accepted]
    exact ((List.Sublist.refl _).append (rests.offers.map TaskOffer.key)).subperm
  distinct := dealing.distinct
  known request made := (dealing.known request made).trans_le rests.number
  pending request waits :=
    (rests.requests request waits).elim (dealing.pending request) (dealing.inFlight request)
  inFlight request here := dealing.inFlight request (rests.inFlight here)
  held := by
    intro taskId call found
    obtain ⟨earlier, old, same⟩ := rests.calls taskId call found
    exact rests.held taskId call found (same.request ▸ dealing.held taskId earlier old)
  single := by
    intro taskId other call another found there equal
    obtain ⟨earlier, old, same⟩ := rests.calls taskId call found
    obtain ⟨sooner, older, alike⟩ := rests.calls other another there
    rw [← same.request, ← alike.request] at equal
    exact dealing.single taskId other earlier sooner old older equal
  given := by
    intro taskId call found
    obtain ⟨earlier, old, _⟩ := rests.calls taskId call found
    exact (dealing.given taskId earlier old).trans_le rests.number
  silent method waits := (rests.suspended method waits).elim (dealing.silent method) id

section

variable (dealing : Dealing offers requests self)

include dealing

/-- Each request in flight is one of those that were made, and none is in flight twice. -/
theorem Dealing.inFlight_nodup
    : (self.inFlight.map TaskRequest.reference).Nodup := by
  rw [TaskBroker.inFlight, Dict.values, List.map_map, List.map_map]
  apply List.Nodup.map_on _ (List.Nodup.of_map _ self.acceptOffers.nodup)
  intro first here second there same
  have found := Dict.mem_entries_iff.mp here
  have alike := Dict.mem_entries_iff.mp there
  have equal := dealing.single _ _ _ _ found alike same
  rw [equal, alike] at found
  exact Prod.ext equal (Option.some.inj found).symm

theorem Dealing.inFlight_subperm
    : (self.inFlight.map TaskRequest.requestId).Subperm
        (requests.map TaskRequest.requestId) := by
  have nodup := List.Nodup.of_map _ dealing.inFlight_nodup
  obtain ⟨part, perm, sublist⟩ := List.subperm_of_subset nodup dealing.inFlight
  exact ⟨part.map TaskRequest.requestId, perm.map _, sublist.map _⟩

theorem Dealing.offered (offer : TaskOffer)
    : Dealing (offers ++ [offer.key]) requests
        { self with pendingTaskOffers := self.pendingTaskOffers ++ [offer] } :=
  { dealing with
    used := by
      have more := dealing.used.append (List.Subperm.refl [offer.key])
      rw [List.append_assoc] at more
      rwa [List.map_append]
  }

end

variable {request : TaskRequest}

/-- A new request is made, which has the next number as its reference. -/
theorem Dealing.asked (dealing : Dealing offers requests before)
    (fresh : request.reference = before.nextNumber) (same : after.dealRecords = before.dealRecords)
    (number : after.nextNumber = before.nextNumber + 1)
    : Dealing offers (requests ++ [request]) after := by
  have kept := dealing.rests (.of_same same (number ▸ Nat.le_succ _))
  refine { kept with
    distinct := ?_
    known := fun other made => ?_
    pending := fun other waits => List.mem_append_left _ (kept.pending other waits)
    inFlight := fun other here => List.mem_append_left _ (kept.inFlight other here)
  }
  · rw [List.map_append]
    apply List.nodup_append.mpr
    refine ⟨dealing.distinct, List.nodup_singleton _, ?_⟩
    intro reference old new isNew equal
    obtain ⟨other, made, rfl⟩ := List.mem_map.mp old
    have bound := dealing.known other made
    rw [equal, List.mem_singleton.mp isNew, fresh] at bound
    exact absurd bound (Nat.lt_irrefl _)
  · rcases List.mem_append.mp made with old | new
    · exact kept.known other old
    · rw [List.mem_singleton.mp new, number]
      omega

theorem Dealing.pends (dealing : Dealing offers requests self) (made : request ∈ requests)
    : Dealing offers requests
        { self with pendingTaskRequests := self.pendingTaskRequests ++ [request] } :=
  { dealing with
    pending := by
      intro other waits
      rcases List.mem_append.mp waits with old | new
      · exact dealing.pending other old
      · exact List.mem_singleton.mp new ▸ made
  }

end Dealing

/-! ### Calls that run on -/

section Calls

variable {offers : List (String × String)} {requests : List TaskRequest}
  (self : TaskBroker Data) {taskId : TaskId} {call : AcceptOffer Data}

theorem endAccept_rests (taskId : TaskId) : Rests self (self.endAccept taskId) := by
  refine {
    Rests.refl self with
    calls := fun other later present => ?_
    held := fun _ _ _ => id
  }
  rw [endAccept_get?] at present
  split at present
  · contradiction
  · exact ⟨later, present, .refl later⟩

/-- A call may release its request when it ends: no other call holds it. -/
theorem releaseRequest_rests (dealing : Dealing offers requests self)
    (found : self.acceptOffers.get? taskId = some call)
    : Rests self ((self.releaseRequest call.request).endAccept taskId) := by
  refine { endAccept_rests self taskId with held := fun other later present held => ?_ }
  rw [endAccept_get?] at present
  split at present
  · contradiction
  · next differs =>
      refine List.mem_filter.mpr ⟨held, ?_⟩
      apply decide_eq_true
      exact fun equal => differs (dealing.single other taskId later call present found equal)

theorem deferRequest_rests {request : TaskRequest} (held : request ∈ self.inFlight)
    : Rests self (self.deferRequest request) := by
  have timed
      : Rests self
          ((self.clearTimeout (self.requestTimeouts.get? request.reference)).setTimeout
            (.requestTimeout request.requestId)) :=
    (clearTimeout_rests self _).trans (setTimeout_rests _ _)
  refine { timed with requests := fun other waits => ?_ }
  rcases List.mem_append.mp waits with old | new
  · exact timed.requests other old
  · exact .inr (List.mem_singleton.mp new ▸ held)

theorem releaseRequest_deferRequest (request : TaskRequest)
    : (self.releaseRequest request).deferRequest request
      = (self.deferRequest request).releaseRequest request := by
  unfold deferRequest releaseRequest clearTimeout
  simp only
  split <;> rfl

theorem deferred_rests (dealing : Dealing offers requests self)
    (found : self.acceptOffers.get? taskId = some call)
    : Rests self
        (((self.releaseRequest call.request).deferRequest call.request).endAccept
          taskId) := by
  have defers := deferRequest_rests self (mem_inFlight_iff.mpr ⟨taskId, call, found, rfl⟩)
  have same := (deferRequest_quiet self call.request).acceptOffers
  have stays
      : (self.deferRequest call.request).acceptOffers.get? taskId = some call :=
    (congrArg (Dict.get? · taskId) same).trans found
  rw [releaseRequest_deferRequest]
  exact defers.trans (releaseRequest_rests _ (dealing.rests defers) stays)

theorem registerTask_rests (taskId : TaskId) (call : AcceptOffer Data)
    : Rests self (self.registerTask taskId call) :=
  (clearTimeout_rests self (self.requestTimeouts.get? call.request.reference)).trans
    (.of_same rfl (Nat.le_refl _))

section

variable (found : self.acceptOffers.get? taskId = some call)

include found

theorem announceTask_rests
    : Rests self (self.announceTask taskId call) := by
  let waiting :=
    { self with requesterAcceptRejects := self.requesterAcceptRejects ++ [taskId] }
  have waits : Rests self waiting := .of_same rfl (Nat.le_refl _)
  unfold announceTask
  apply Rests.trans _ (messageRequester_rests _ _ _)
  exact waits.trans (setPhase_rests waiting found _)

theorem taskAccepted_rests
    : Rests self (self.taskAccepted taskId call) := by
  have registers := registerTask_rests self taskId call
  unfold taskAccepted
  simp only
  split
  · exact registers.trans (endAccept_rests _ taskId)
  · apply registers.trans
    apply (spliceRequest_rests _ call.request.requestId).trans
    apply announceTask_rests
    exact (congrArg (Dict.get? · taskId) (registerTask_acceptOffers self taskId call)).trans found

theorem sendTaskSettings_rests (runnerId : String) (settings : Data)
    : Rests self (self.sendTaskSettings taskId call runnerId settings) := by
  unfold sendTaskSettings
  split
  · exact endAccept_rests self taskId
  · next task _ =>
      let timed :=
        { self.setTimeout (.taskTimeout taskId) with
          tasks := self.tasks.set taskId { task with timeout := some self.nextNumber }
        }
      have waits : Rests self timed := .of_same rfl (Nat.le_succ _)
      apply Rests.trans _ (messageRunner_rests _ rfl)
      exact waits.trans (setPhase_rests timed found _)

theorem resumeAfterRequester_rests (outcome : RequesterOutcome Data)
    : Rests self (self.resumeAfterRequester taskId call outcome) := by
  cases outcome with
  | settings settings =>
      have gets := rests_carries.getRunnerOrFailTask self taskId
      unfold resumeAfterRequester
      simp only
      split
      · next result same =>
          rw [same] at gets
          exact gets.trans (endAccept_rests _ taskId)
      · next runnerId result same =>
          obtain rfl := getRunnerOrFailTask_some same
          exact setPhase_rests _ found _
  | rejected reason =>
      exact (rests_carries.cancelTask self taskId reason).trans (endAccept_rests _ taskId)
  | timedOut =>
      exact (rests_carries.cancelTask self taskId "Unknown reason").trans (endAccept_rests _ taskId)

end

theorem resumeAfterRunner_rests (dealing : Dealing offers requests self)
    (found : self.acceptOffers.get? taskId = some call) (outcome : RunnerOutcome)
    : Rests self (self.resumeAfterRunner taskId call outcome) := by
  cases outcome with
  | accepted => exact taskAccepted_rests self found
  | deferred => exact deferred_rests self dealing found
  | _ => exact releaseRequest_rests self dealing found

variable {self} {next : TaskBroker Data}

theorem resumeAccept_rests (dealing : Dealing offers requests self)
    (taken : self.resumeAccept taskId = some next)
    : Rests self next := by
  unfold resumeAccept at taken
  split at taken
  · contradiction
  · next call found =>
      split at taken
      · contradiction
      · next outcome _ =>
          cases taken
          exact resumeAfterRunner_rests self dealing found outcome
      · contradiction
      · next outcome _ =>
          cases taken
          exact resumeAfterRequester_rests self found outcome
      · next runnerId settings _ =>
          cases taken
          exact sendTaskSettings_rests self found runnerId settings
      · cases taken
        exact endAccept_rests self taskId

theorem failAccept_rests (dealing : Dealing offers requests self)
    (taken : self.failAccept taskId = some next)
    : Rests self next := by
  have gives :=
    (rests_carries.cancelTask self taskId "Unknown reason").trans (endAccept_rests _ taskId)
  unfold failAccept at taken
  split at taken
  · contradiction
  · next call found =>
      split at taken
      · cases taken
        exact releaseRequest_rests self dealing found
      · exact Option.some.inj taken ▸ gives
      · contradiction
      · exact Option.some.inj taken ▸ gives

theorem fireTimer_rests {timer : Nat} (taken : self.fireTimer timer = some next)
    : Rests self next := by
  have unset : Rests self { self with timers := self.timers.delete timer } :=
    .of_same rfl (Nat.le_refl _)
  unfold fireTimer at taken
  split at taken
  · contradiction
  · split at taken
    · cases taken
      exact unset.trans (handleRequestTimeout_rests _ _)
    · cases taken
      exact unset.trans (rests_carries.handleTaskTimeout _ _)

theorem leaves_rests (self : TaskBroker Data) (index : Nat)
    : Rests self { self with suspended := self.suspended.eraseIdx index } :=
  { Rests.refl self with
    suspended := fun _ waits => .inl (List.mem_of_mem_eraseIdx waits)
  }

variable {index : Nat}

theorem resumeSuspended_rests (dealing : Dealing offers requests self)
    (taken : self.resumeSuspended index = some next)
    : Rests self next := by
  unfold resumeSuspended at taken
  split at taken
  · contradiction
  · next method found =>
      cases taken
      have silent := dealing.silent method (List.mem_of_getElem? found)
      exact (leaves_rests self index).trans (rests_carries.runSuspended _ (sends_iff.mpr silent))

theorem failSuspended_rests (taken : self.failSuspended index = some next)
    : Rests self next := by
  unfold failSuspended at taken
  split at taken
  · exact Option.some.inj taken ▸ leaves_rests self index
  · contradiction

end Calls

/-! ### Offers that meet requests -/

/-- An acceptance that is new belongs to a call that is new, for an offer that fits. -/
structure Deals (now : Int) (before after : TaskBroker Data) : Prop where
  kept
    : ∀ taskId call, before.acceptOffers.get? taskId = some call
        → after.acceptOffers.get? taskId = some call
  accepted
    : ∀ runnerId offerId taskId, (runnerId, offerId, taskId) ∈ after.accepted
        → (runnerId, offerId, taskId) ∈ before.accepted
          ∨ ∃ call, after.acceptOffers.get? taskId = some call
              ∧ before.nextNumber ≤ taskId
              ∧ call.offer.key = (runnerId, offerId)
              ∧ call.Fits now
  number : before.nextNumber ≤ after.nextNumber

theorem Deals.still (now : Int) (acceptOffers : after.acceptOffers = before.acceptOffers)
    (accepted : after.accepted = before.accepted) (number : before.nextNumber ≤ after.nextNumber)
    : Deals now before after :=
  ⟨fun _ _ found => acceptOffers ▸ found, fun _ _ _ isAccepted => .inl (accepted ▸ isAccepted),
    number⟩

theorem Deals.refl (now : Int) (self : TaskBroker Data) : Deals now self self :=
  .still now rfl rfl (Nat.le_refl _)

theorem Deals.trans {now : Int} (early : Deals now first middle) (late : Deals now middle last)
    : Deals now first last where
  kept taskId call found := late.kept taskId call (early.kept taskId call found)
  accepted := by
    intro runnerId offerId taskId isAccepted
    rcases late.accepted runnerId offerId taskId isAccepted with
      earlier | ⟨call, found, new, facts⟩
    · refine (early.accepted runnerId offerId taskId earlier).imp_right ?_
      rintro ⟨call, found, facts⟩
      exact ⟨call, late.kept taskId call found, facts⟩
    · exact .inr ⟨call, found, early.number.trans new, facts⟩
  number := early.number.trans late.number

section Deals

variable {offers : List (String × String)} {requests : List TaskRequest}
  (self : TaskBroker Data)

/-- A call of `acceptOffer` starts, and the runner is told if it is known. -/
structure Starts (offer : TaskOffer) (request : TaskRequest)
    (before after : TaskBroker Data)
    : Prop where
  acceptOffers
    : after.acceptOffers
      = before.acceptOffers.set before.nextNumber ⟨offer, request, .awaitingRunner none⟩
  accepted
    : after.accepted = before.accepted
      ∨ after.accepted
        = before.accepted ++ [(offer.runnerId, offer.offerId, before.nextNumber)]
  offers : after.pendingTaskOffers = before.pendingTaskOffers
  requests : after.pendingTaskRequests = before.pendingTaskRequests
  busy : after.acceptInProgress = before.acceptInProgress
  suspended : after.suspended = before.suspended
  number : after.nextNumber = before.nextNumber + 1

theorem acceptOffer_starts (offer : TaskOffer) (request : TaskRequest)
    : Starts offer request self (self.acceptOffer offer request) := by
  unfold acceptOffer messageRunner
  simp only
  split
  · exact ⟨rfl, .inr (by simp [accepted, Message.accepts?]), rfl, rfl, rfl, rfl, rfl⟩
  · exact ⟨rfl, .inl rfl, rfl, rfl, rfl, rfl, rfl⟩

variable {self}

/-- The offer leaves the list, and the request is held, when the call starts. -/
theorem Dealing.starts {offer : TaskOffer} {request : TaskRequest} {left : List TaskOffer}
    {after : TaskBroker Data} (dealing : Dealing offers requests self)
    (takes : (offer :: left).Perm self.pendingTaskOffers)
    (made : request ∈ requests) (free : request.reference ∉ self.acceptInProgress)
    (starts
      : Starts offer request
          { self with
            acceptInProgress := self.acceptInProgress ++ [request.reference]
            pendingTaskOffers := left
          }
          after)
    : Dealing offers requests after := by
  have call (taskId : TaskId) (call : AcceptOffer Data)
      (found : after.acceptOffers.get? taskId = some call)
      : (taskId = self.nextNumber ∧ call.request = request)
        ∨ self.acceptOffers.get? taskId = some call := by
    rw [starts.acceptOffers, Dict.get?_set] at found
    split at found
    · next same => exact .inl ⟨same, Option.some.inj found ▸ rfl⟩
    · exact .inr found
  have others (taskId : TaskId) (call : AcceptOffer Data)
      (found : self.acceptOffers.get? taskId = some call)
      : call.request.reference ≠ request.reference :=
    fun equal => free (equal ▸ dealing.held taskId call found)
  refine {
    used := ?_
    distinct := dealing.distinct
    known := fun other isMade => ?_
    pending := fun other waits => dealing.pending other (starts.requests ▸ waits)
    inFlight := fun other here => ?_
    held := fun taskId later found => ?_
    single := fun taskId other later another found there equal => ?_
    given := fun taskId later found => ?_
    silent := fun method waits => dealing.silent method (starts.suspended ▸ waits)
  }
  · apply List.Subperm.trans _ dealing.used
    have perm := takes.map TaskOffer.key
    rw [offersAccepted, starts.offers]
    rcases starts.accepted with same | more
    · rw [same]
      apply ((List.Sublist.refl _).append (List.sublist_cons_self offer.key _)).subperm.trans
      exact (perm.append_left _).subperm
    · rw [more, List.map_append, List.append_assoc]
      exact (perm.append_left _).subperm
  · rw [starts.number]
    exact (dealing.known other isMade).trans (Nat.lt_succ_self _)
  · obtain ⟨taskId, later, found, rfl⟩ := mem_inFlight_iff.mp here
    rcases call taskId later found with ⟨_, same⟩ | old
    · exact same ▸ made
    · exact dealing.inFlight _ (mem_inFlight_iff.mpr ⟨taskId, later, old, rfl⟩)
  · rw [starts.busy]
    rcases call taskId later found with ⟨_, same⟩ | old
    · exact List.mem_append_right _ (same ▸ List.mem_singleton_self _)
    · exact List.mem_append_left _ (dealing.held taskId later old)
  · rcases call taskId later found with ⟨here, same⟩ | old
    · rcases call other another there with ⟨alike, _⟩ | older
      · exact here.trans alike.symm
      · exact absurd (same ▸ equal).symm (others other another older)
    · rcases call other another there with ⟨_, same⟩ | older
      · exact absurd (same ▸ equal) (others taskId later old)
      · exact dealing.single taskId other later another old older equal
  · rw [starts.number]
    rcases call taskId later found with ⟨same, _⟩ | old
    · exact same ▸ Nat.lt_succ_self _
    · exact (dealing.given taskId later old).trans (Nat.lt_succ_self _)

variable {now : Int}

/-- One turn of the loop: the request waits on, or gets an offer of its type. -/
theorem settleRequest_deals {request : TaskRequest} (dealing : Dealing offers requests self)
    (pending : request ∈ self.pendingTaskRequests)
    (unexpired : ∀ offer ∈ self.pendingTaskOffers, offer.Unexpired now)
    : Dealing offers requests (self.settleRequest request)
      ∧ Deals now self (self.settleRequest request)
      ∧ (self.settleRequest request).pendingTaskRequests = self.pendingTaskRequests
      ∧ ∀ offer ∈ (self.settleRequest request).pendingTaskOffers, offer.Unexpired now := by
  unfold settleRequest
  split
  · exact ⟨dealing, .refl now self, rfl, unexpired⟩
  · next free =>
      split
      · exact ⟨dealing, .refl now self, rfl, unexpired⟩
      · next offer found =>
          have starts :=
            acceptOffer_starts
              { self with
                acceptInProgress := self.acceptInProgress ++ [request.reference]
                pendingTaskOffers :=
                  self.pendingTaskOffers.eraseP (fun offer =>
                    offer.taskType = request.taskType)
              }
              offer request
          have fits : offer.taskType = request.taskType := by
            simpa using List.find?_some found
          refine ⟨?_, ⟨?_, ?_, ?_⟩, starts.requests, ?_⟩
          · apply dealing.starts (perm_cons_eraseP found) _ free starts
            exact dealing.pending request pending
          · intro taskId call here
            rw [starts.acceptOffers, Dict.get?_set]
            have given := dealing.given taskId call here
            rw [if_neg (Nat.ne_of_lt given)]
            exact here
          · intro runnerId offerId taskId isAccepted
            rcases starts.accepted with same | more
            · exact .inl (same ▸ isAccepted)
            · rw [more] at isAccepted
              refine (List.mem_append.mp isAccepted).imp_right fun new => ?_
              obtain ⟨rfl, rfl, rfl⟩ : runnerId = _ ∧ offerId = _ ∧ taskId = _ := by
                simpa using new
              rw [starts.acceptOffers]
              refine ⟨_, Dict.get?_set_self _ _ _, Nat.le_refl _, rfl, fits, ?_⟩
              exact unexpired offer (List.mem_of_find?_eq_some found)
          · exact starts.number ▸ Nat.le_succ _
          · intro other waits
            rw [starts.offers] at waits
            exact unexpired other (List.mem_of_mem_eraseP waits)

theorem settleRequests_deals (waiting : List TaskRequest) (dealing : Dealing offers requests self)
    (pending : ∀ request ∈ waiting, request ∈ self.pendingTaskRequests)
    (unexpired : ∀ offer ∈ self.pendingTaskOffers, offer.Unexpired now)
    : Dealing offers requests (waiting.foldl settleRequest self)
      ∧ Deals now self (waiting.foldl settleRequest self) := by
  induction waiting generalizing self with
  | nil => exact ⟨dealing, .refl now self⟩
  | cons request rest ih =>
      obtain ⟨here, others⟩ := List.forall_mem_cons.mp pending
      obtain ⟨dealt, deals, same, unexpired⟩ := settleRequest_deals dealing here unexpired
      obtain ⟨all, later⟩ := ih dealt (fun other member => same ▸ others other member) unexpired
      exact ⟨all, deals.trans later⟩

theorem settleTasks_deals (dealing : Dealing offers requests self) (now : Int)
    : Dealing offers requests (self.settleTasks now)
      ∧ Deals now self (self.settleTasks now) := by
  have expires := expireTasks_rests self now
  have unexpired (offer : TaskOffer) (waits : offer ∈ (self.expireTasks now).pendingTaskOffers)
      : offer.Unexpired now := by
    simpa [TaskOffer.Unexpired] using (List.mem_filter.mp waits).2
  obtain ⟨dealt, deals⟩ :=
    settleRequests_deals self.pendingTaskRequests (dealing.rests expires)
      (fun _ member => member) unexpired
  refine ⟨dealt, Deals.trans ?_ deals⟩
  exact .still now rfl rfl (Nat.le_refl _)

end Deals

/-! ### What one step does -/

/-- The runner and the offer, if the event is an offer. -/
def Event.offer? : Event Data → Option (String × String)
  | .runnerMessage runnerId (.taskoffer _ offerId _) _ => some (runnerId, offerId)
  | _ => none

/-- The id of the request, if the event is one. -/
def Event.requestId? : Event Data → Option String
  | .requesterMessage _ (.taskrequest _ requestId) _ => some requestId
  | _ => none

/-- The time at which the handler of the event runs. -/
def Event.now? : Event Data → Option Int
  | .runnerMessage _ _ now => some now
  | .requesterMessage _ _ now => some now
  | _ => none

/-- An acceptance that is new belongs to a call that is new. Its offer is for the request of
the call, and has not expired when the handler runs.
-/
def AcceptsFit (before after : TaskBroker Data) (event : Event Data) : Prop :=
  ∀ runnerId offerId taskId, (runnerId, offerId, taskId) ∈ after.accepted
    → (runnerId, offerId, taskId) ∈ before.accepted
      ∨ ∃ call now,
          after.acceptOffers.get? taskId = some call
          ∧ before.acceptOffers.get? taskId = none
          ∧ call.offer.key = (runnerId, offerId)
          ∧ event.now? = some now
          ∧ call.Fits now

/-- What one step keeps, and what it answers. -/
structure StepDeals (offers : List (String × String)) (requests : List TaskRequest)
    (before after : TaskBroker Data) (event : Event Data)
    : Prop where
  dealing
    : ∃ asked : List TaskRequest,
        asked.map TaskRequest.requestId = event.requestId?.toList
        ∧ Dealing (offers ++ event.offer?.toList) (requests ++ asked) after
  fits : AcceptsFit before after event

section Steps

variable {offers : List (String × String)} {requests : List TaskRequest}
  {self next : TaskBroker Data} {event : Event Data}

theorem Dealing.more (dealing : Dealing offers requests self) (received : List (String × String))
    : Dealing (offers ++ received) requests self :=
  { dealing with used := dealing.used.trans (List.sublist_append_left _ _).subperm }

theorem StepDeals.rests (dealing : Dealing offers requests self) (rests : Rests self next)
    (noRequest : event.requestId? = none)
    : StepDeals offers requests self next event where
  dealing := by
    refine ⟨[], by rw [noRequest]; rfl, ?_⟩
    rw [List.append_nil]
    exact (dealing.rests rests).more _
  fits _ _ _ isAccepted := .inl (rests.accepted ▸ isAccepted)

theorem Deals.acceptsFit {before after : TaskBroker Data} {now : Int}
    (dealing : Dealing offers requests before) (deals : Deals now before after)
    (time : event.now? = some now)
    : AcceptsFit before after event := by
  intro runnerId offerId taskId isAccepted
  refine (deals.accepted runnerId offerId taskId isAccepted).imp_right ?_
  rintro ⟨call, found, new, key, fits⟩
  refine ⟨call, now, found, ?_, key, time, fits⟩
  apply Option.eq_none_iff_forall_ne_some.mpr
  intro earlier old
  exact absurd (dealing.given taskId earlier old) (Nat.not_lt_of_le new)

variable (dealing : Dealing offers requests self)

include dealing

theorem requestTask_deals (requesterId taskType requestId : String) (now : Int)
    : StepDeals offers requests self (self.requestTask requesterId taskType requestId now)
        (.requesterMessage requesterId (.taskrequest taskType requestId) now) := by
  let request : TaskRequest := ⟨self.nextNumber + 1, requestId, requesterId, taskType⟩
  let timed := self.setTimeout (.requestTimeout requestId)
  let noted :=
    { timed with
      nextNumber := timed.nextNumber + 1
      requestTimeouts := timed.requestTimeouts.set timed.nextNumber self.nextNumber
    }
  have asked : Dealing offers (requests ++ [request]) noted :=
    (dealing.rests (setTimeout_rests self _)).asked rfl rfl rfl
  have asks
      : self.requestTask requesterId taskType requestId now
        = noted.taskRequested request now := rfl
  rw [asks]
  unfold taskRequested
  split
  · have drains :=
      (clearTimeout_rests noted (noted.requestTimeouts.get? request.reference)).trans
        (messageRequester_rests _ request.requesterId
          (.requestexpired request.requestId "draining"))
    refine ⟨⟨[request], rfl, ?_⟩, ?_⟩
    · exact (asked.rests drains).more _
    · exact fun _ _ _ isAccepted => .inl (drains.accepted ▸ isAccepted)
  · have pends := asked.pends (List.mem_append_right requests (List.mem_singleton_self request))
    obtain ⟨dealt, deals⟩ := settleTasks_deals pends now
    refine ⟨⟨[request], rfl, dealt.more _⟩, ?_⟩
    apply Deals.acceptsFit dealing _ rfl
    refine Deals.trans ?_ deals
    exact .still now rfl rfl (Nat.le_add_right self.nextNumber 2)

theorem taskOffered_deals (offer : TaskOffer) (now : Int) (key : event.offer? = some offer.key)
    (time : event.now? = some now) (noRequest : event.requestId? = none)
    : StepDeals offers requests self (self.taskOffered offer now) event := by
  obtain ⟨dealt, deals⟩ := settleTasks_deals (dealing.offered offer) now
  refine ⟨⟨[], by rw [noRequest]; rfl, ?_⟩, ?_⟩
  · rw [List.append_nil, key]
    exact dealt
  · apply Deals.acceptsFit dealing _ time
    refine Deals.trans ?_ deals
    exact .still now rfl rfl (Nat.le_refl _)

theorem onRunnerMessage_deals (runnerId : String) (message : RunnerMessage Data) (now : Int)
    : StepDeals offers requests self (self.onRunnerMessage runnerId message now)
        (.runnerMessage runnerId message now) := by
  unfold onRunnerMessage
  split
  · cases message with
    | taskoffer taskType offerId validFor => exact taskOffered_deals dealing _ now rfl rfl rfl
    | taskdone taskId data => exact .rests dealing (rests_carries.taskDoneHandler _ _ _) rfl
    | taskerror taskId error => exact .rests dealing (rests_carries.taskErrorHandler _ _ _) rfl
    | request kind taskId requestId params =>
        exact .rests dealing (rests_carries.handleRequest _ _ _ _ _) rfl
    | _ =>
        exact .rests dealing (handleRunnerOutcome_rests _ _ _) rfl
  · exact .rests dealing (.refl self) rfl

theorem onRequesterMessage_deals (requesterId : String) (message : RequesterMessage Data)
    (now : Int)
    : StepDeals offers requests self (self.onRequesterMessage requesterId message now)
        (.requesterMessage requesterId message now) := by
  cases message with
  | tasksettings taskId settings =>
      exact .rests dealing (handleRequesterOutcome_rests _ _ _) rfl
  | taskcancel taskId reason => exact .rests dealing (rests_carries.cancelTask _ _ _) rfl
  | taskrequest taskType requestId =>
      exact requestTask_deals dealing requesterId taskType requestId now
  | response kind taskId requestId data =>
      exact .rests dealing (rests_carries.handleRequesterResponse _ _ _ _ _) rfl

/-- Only an offer or a request lets offers meet requests. -/
theorem step_deals (taken : self.step event = some next)
    : StepDeals offers requests self next event := by
  cases event with
  | runnerMessage runnerId message now =>
      cases taken
      exact onRunnerMessage_deals dealing runnerId message now
  | requesterMessage requesterId message now =>
      cases taken
      exact onRequesterMessage_deals dealing requesterId message now
  | resumeAccept taskId => exact .rests dealing (resumeAccept_rests dealing taken) rfl
  | failAccept taskId => exact .rests dealing (failAccept_rests dealing taken) rfl
  | timer timer => exact .rests dealing (fireTimer_rests taken) rfl
  | resumeSuspended index => exact .rests dealing (resumeSuspended_rests dealing taken) rfl
  | failSuspended index => exact .rests dealing (failSuspended_rests taken) rfl
  | deregisterRunner runnerId message =>
      cases taken
      exact .rests dealing (deregisterRunner_rests self runnerId message) rfl
  | requesterReject taskId reason =>
      cases taken
      exact .rests dealing (handleRequesterOutcome_rests self taskId _) rfl
  | runnerAcceptTimeout taskId =>
      cases taken
      exact .rests dealing (settleRunner_rests self taskId .timedOut) rfl
  | requesterAcceptTimeout taskId =>
      cases taken
      exact .rests dealing (settleRequester_rests self taskId .timedOut) rfl
  | registerRunner runnerId =>
      cases taken
      refine .rests dealing (Rests.trans ?_ (messageRunner_rests _ rfl)) rfl
      exact .of_same rfl (Nat.le_refl _)
  | _ =>
      cases taken
      exact .rests dealing (.of_same rfl (Nat.le_refl _)) rfl

end Steps

/-! ### Runs -/

/-- The invariant holds after the events, for the offers and the requests among them. -/
theorem Dealing.run {offers : List (String × String)} {requests : List TaskRequest}
    {self broker : TaskBroker Data} {events : List (Event Data)}
    (dealing : Dealing offers requests self) (ran : run step self events = some broker)
    : ∃ asked : List TaskRequest,
        asked.map TaskRequest.requestId = events.filterMap Event.requestId?
        ∧ Dealing (offers ++ events.filterMap Event.offer?) (requests ++ asked) broker := by
  induction events generalizing self offers requests with
  | nil =>
      cases ran
      exact ⟨[], rfl, by simpa using dealing⟩
  | cons event rest ih =>
      obtain ⟨next, taken, ran⟩ := Option.bind_eq_some_iff.mp ran
      obtain ⟨first, ids, dealt⟩ := (step_deals dealing taken).dealing
      obtain ⟨later, others, dealt⟩ := ih dealt ran
      refine ⟨first ++ later, ?_, ?_⟩
      · rw [List.map_append, ids, others, filterMap_cons_toList]
      · rw [List.append_assoc, List.append_assoc] at dealt
        rwa [filterMap_cons_toList]

/-- Offers are used up, and requests wait for one call at a time. -/
structure UsesOnce (events : List (Event Data)) (broker : TaskBroker Data) : Prop where
  offers
    : (broker.offersAccepted ++ broker.pendingTaskOffers.map TaskOffer.key).Subperm
        (events.filterMap Event.offer?)
  requests : (broker.inFlight.map TaskRequest.reference).Nodup
  requestIds
    : (broker.inFlight.map TaskRequest.requestId).Subperm
        (events.filterMap Event.requestId?)
  fits : ∀ event next, broker.step event = some next → AcceptsFit broker next event

/-- In every state of every run, the offers that have been accepted and those that wait are
among the offers received, each as often as it was received at most; no request is in two
handshakes; and what is accepted fits, and has not expired.
-/
theorem run_usesOnce (config : TaskRunnersConfig) (events : List (Event Data))
    (broker : TaskBroker Data) (ran : run step (new config) events = some broker)
    : UsesOnce events broker := by
  obtain ⟨asked, ids, dealing⟩ := (Dealing.new config).run ran
  refine ⟨dealing.used, dealing.inFlight_nodup, ?_, ?_⟩
  · rw [← ids]
    exact dealing.inFlight_subperm
  · exact fun event next taken => (step_deals dealing taken).fits

/-- Two requests with one id, and two offers. -/
def sameIdEvents : List (Event Unit) :=
  [
    .registerRunner "runner",
    .registerRequester "requester",
    .requesterMessage "requester" (.taskrequest "javascript" "request") 0,
    .requesterMessage "requester" (.taskrequest "javascript" "request") 0,
    .runnerMessage "runner" (.taskoffer "javascript" "first" 5000) 0,
    .runnerMessage "runner" (.taskoffer "javascript" "second" 5000) 0
  ]

theorem run_usesOnce_sameId
    : ∃ broker, run step (new ⟨.internal, 300, true⟩) sameIdEvents = some broker
        ∧ UsesOnce sameIdEvents broker := by
  have ends : (run step (new ⟨.internal, 300, true⟩) sameIdEvents).isSome := by decide +kernel
  obtain ⟨broker, ran⟩ := Option.isSome_iff_exists.mp ends
  exact ⟨broker, ran, run_usesOnce _ _ broker ran⟩

/-- Both requests are in a handshake: a request is the object, not its id. -/
theorem sameIdEvents_twice
    : ¬∀ broker, run step (new ⟨.internal, 300, true⟩) sameIdEvents = some broker
        → ∀ requestId,
            broker.inFlight.countP (fun request => request.requestId = requestId) ≤ 1 := by
  have both
      : (run step (new ⟨.internal, 300, true⟩) sameIdEvents).map (fun broker =>
            broker.inFlight.countP (fun request => request.requestId = "request"))
          = some 2 := by
    decide +kernel
  obtain ⟨broker, ran, count⟩ := Option.map_eq_some_iff.mp both
  intro once
  have most := once broker ran "request"
  omega

end TaskBroker

end N8n.TaskRunners
