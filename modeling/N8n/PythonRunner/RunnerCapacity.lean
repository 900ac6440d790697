import N8n.Library.Runs
import N8n.PythonRunner.TaskRunner

/-! The capacity of the Python task runner over whole runs. How many offers are made is counted
once, and the offers are then made one by one; the count stays right while no other count is
being spent.
-/

namespace N8n.PythonRunner

open N8n.Runs

variable {environment : Environment} {config : TaskRunnerConfig}

/-! ### What is open, and what is still to come -/

/-- The offers that a call of `_send_offers` is still going to make. -/
def offersToCome (sending : Option SendOffers) : Nat := (sending.map SendOffers.remaining).getD 0

def OffersLoop.sends : OffersLoop → Option SendOffers
  | .sending offers => some offers
  | _ => none

def Handler.sends : Handler → Option SendOffers
  | .sendingOffers offers => some offers
  | _ => none

def loopsToCome : List OffersLoop → Nat
  | [] => 0
  | offersLoop :: rest => offersToCome offersLoop.sends + loopsToCome rest

variable {place : Nat} {old : OffersLoop}

theorem loopsToCome_set {offersLoops : List OffersLoop} (here : offersLoops[place]? = some old)
    (new : OffersLoop)
    : loopsToCome (offersLoops.set place new) + offersToCome old.sends
      = loopsToCome offersLoops + offersToCome new.sends := by
  induction offersLoops generalizing place with
  | nil => contradiction
  | cons offersLoop rest ih =>
      cases place with
      | zero =>
          obtain rfl : offersLoop = old := by simpa using here
          simp only [List.set_cons_zero, loopsToCome]
          omega
      | succ place =>
          have tail := ih (by simpa using here : rest[place]? = some old)
          simp only [List.set_cons_succ, loopsToCome]
          omega

theorem loopsToCome_append (first second : List OffersLoop)
    : loopsToCome (first ++ second) = loopsToCome first + loopsToCome second := by
  induction first with
  | nil => simp [loopsToCome]
  | cons offersLoop rest ih =>
      simp only [List.cons_append, loopsToCome, ih]
      omega

/-- A rejection for want of capacity. -/
def RunnerMessage.rejects : RunnerMessage → Bool
  | .taskrejected _ reason => reason = TASK_REJECTED_REASON_AT_CAPACITY
  | _ => false

variable {self next : TaskRunner} {happening : Happening}

namespace TaskRunner

/-- The open offers that have not expired. -/
def unexpiredOffers (self : TaskRunner) : Dict String TaskOffer := self.popExpired.open_offers

def handlerToCome (self : TaskRunner) : Nat := offersToCome (self.handler.bind Handler.sends)

/-- What the capacity has been promised to. -/
def committed (self : TaskRunner) : Nat :=
  self.unexpiredOffers.keys.length + self.runningTasksCount + self.handlerToCome
    + loopsToCome self.offers_loops

/-- The clock is not set back, and a count of the offers to send begins only when no count is
being spent: a cancelled task that waits for settings finds no loop with offers to come, and a
loop finds neither another one nor a handler.
-/
def CountsAlone (self : TaskRunner) : Action → Prop
  | .clock now => self.now ≤ now
  | .receive (.taskcancel task_id _) =>
      match self.running_tasks.get? task_id with
      | some task =>
          (self.taskState task).status = .waitingForSettings
            → self.can_send_offers = true → loopsToCome self.offers_loops = 0
      | none => True
  | .offersLoop place .goesOn =>
      match self.offers_loops[place]? with
      | some .ready =>
          self.can_send_offers = true
            → self.handlerToCome = 0 ∧ loopsToCome self.offers_loops = 0
      | _ => True
  | _ => True

instance (self : TaskRunner) (action : Action) : Decidable (self.CountsAlone action) := by
  unfold CountsAlone
  repeat' split
  all_goals infer_instance

/-- No more is promised than there is, and nothing is rejected for want of capacity. -/
structure HasRoom (config : TaskRunnerConfig) (runner : TaskRunner) : Prop where
  committed : (runner.committed : Int) ≤ config.max_concurrency
  sent : ∀ message ∈ runner.sent, message.rejects = false
  replies : ∀ reply, runner.handler = some (.replying reply) → reply.message.rejects = false

/-! ### Sending offers -/

theorem unexpiredOffers_popExpired (self : TaskRunner)
    : self.popExpired.unexpiredOffers = self.unexpiredOffers :=
  Dict.filter_filter_self self.open_offers (fun offer => !self.hasExpired offer)

/-- The offers made and those still to come are those that were left. -/
theorem sendRemaining_le (environment : Environment) (self : TaskRunner) (remaining : Nat)
    : (self.sendRemaining environment remaining).1.unexpiredOffers.keys.length
        + offersToCome (self.sendRemaining environment remaining).2
      ≤ self.unexpiredOffers.keys.length + remaining := by
  cases remaining with
  | zero => exact Nat.le_refl _
  | succ remaining =>
      have added := Dict.length_keys_filter_set_le self.open_offers
        (fun offer => !self.hasExpired offer) (environment.nanoid self.ids)
        ⟨environment.nanoid self.ids,
          self.now + (OFFER_VALIDITY + environment.randint self.ids)
            + OFFER_VALIDITY_LATENCY_BUFFER⟩
      change _ + remaining ≤ _ + (remaining + 1)
      have same : (self.sendRemaining environment (remaining + 1)).1.unexpiredOffers.keys.length
          ≤ self.unexpiredOffers.keys.length + 1 := added
      omega

theorem nextOffer_le (environment : Environment) (self : TaskRunner) (sending : SendOffers)
    : (self.nextOffer environment sending).1.unexpiredOffers.keys.length
        + offersToCome (self.nextOffer environment sending).2
      ≤ self.unexpiredOffers.keys.length + sending.remaining :=
  sendRemaining_le environment
    (self.send (.taskoffer sending.offer_id TASK_TYPE_PYTHON sending.valid_for)) sending.remaining

/-- Nothing but the offers changes, as far as the capacity goes. -/
structure OffersOnly (before after : TaskRunner) : Prop where
  running_tasks : after.running_tasks = before.running_tasks
  handler : after.handler = before.handler
  offers_loops : after.offers_loops = before.offers_loops
  sent : ∀ message ∈ after.sent, message.rejects = true → message ∈ before.sent

theorem sendRemaining_offersOnly (environment : Environment) (self : TaskRunner)
    (remaining : Nat)
    : OffersOnly self (self.sendRemaining environment remaining).1 := by
  cases remaining with
  | zero | succ => exact ⟨rfl, rfl, rfl, fun _ member _ => member⟩

theorem sendOffers_offersOnly (self : TaskRunner)
    : OffersOnly self (self.sendOffers environment config).1 := by
  unfold sendOffers
  split
  · have only := sendRemaining_offersOnly environment self.popExpired
      (self.popExpired.offersToSend config).toNat
    exact ⟨only.running_tasks, only.handler, only.offers_loops, only.sent⟩
  · exact ⟨rfl, rfl, rfl, fun _ member _ => member⟩

theorem nextOffer_offersOnly (self : TaskRunner) (sending : SendOffers)
    : OffersOnly self (self.nextOffer environment sending).1 := by
  have only := sendRemaining_offersOnly environment
    (self.send (.taskoffer sending.offer_id TASK_TYPE_PYTHON sending.valid_for))
    sending.remaining
  refine ⟨only.running_tasks, only.handler, only.offers_loops, ?_⟩
  intro message member rejects
  rcases List.mem_append.mp (only.sent message member rejects) with old | new
  · exact old
  · rw [List.mem_singleton.mp new] at rejects
    contradiction

/-- A count that begins leaves room for the running tasks, and for what else is to come where it
does not count at all.
-/
theorem sendOffers_le {others : Nat}
    (room : ((self.unexpiredOffers.keys.length + self.runningTasksCount + others : Nat) : Int)
      ≤ config.max_concurrency) (alone : self.can_send_offers = true → others = 0)
    : (((self.sendOffers environment config).1.unexpiredOffers.keys.length
          + self.runningTasksCount
          + offersToCome (self.sendOffers environment config).2 + others : Nat) : Int)
      ≤ config.max_concurrency := by
  unfold sendOffers
  split
  · next sends =>
      have made := sendRemaining_le environment self.popExpired
        (self.popExpired.offersToSend config).toNat
      rw [unexpiredOffers_popExpired] at made
      have count
          : self.popExpired.offersToSend config
            = config.max_concurrency
              - (self.unexpiredOffers.keys.length + self.runningTasksCount) := rfl
      have nothing := alone sends
      dsimp only at made ⊢
      omega
  · simpa [offersToCome] using room

/-- A handler that has sent an offer, or begun to, goes on. -/
theorem HasRoom.continueHandler {sent : TaskRunner × Option SendOffers} (room : self.HasRoom config)
    (only : OffersOnly self sent.1)
    (fits
      : ((sent.1.unexpiredOffers.keys.length + self.runningTasksCount + offersToCome sent.2
          + loopsToCome self.offers_loops : Nat) : Int) ≤ config.max_concurrency)
    : (TaskRunner.continueHandler sent).HasRoom config := by
  obtain ⟨after, sending⟩ := sent
  have sends : (TaskRunner.continueHandler (after, sending)).handlerToCome
      = offersToCome sending := by
    cases sending with
    | none | some => rfl
  constructor
  · have count : (TaskRunner.continueHandler (after, sending)).committed
        = after.unexpiredOffers.keys.length + after.runningTasksCount
          + (TaskRunner.continueHandler (after, sending)).handlerToCome
          + loopsToCome after.offers_loops := rfl
    rw [count, sends, runningTasksCount, only.running_tasks, only.offers_loops]
    exact fits
  · intro message member
    by_contra rejects
    rw [Bool.not_eq_false] at rejects
    simp [room.sent message (only.sent message member rejects)] at rejects
  · intro message replies
    cases sending with
    | none => contradiction
    | some sending => exact absurd (Option.some.inj replies) (by simp)

theorem HasRoom.continueLoop {sent : TaskRunner × Option SendOffers} (room : self.HasRoom config)
    (only : OffersOnly self sent.1) (here : self.offers_loops[place]? = some old)
    (fits
      : ((sent.1.unexpiredOffers.keys.length + self.runningTasksCount + self.handlerToCome
          + offersToCome sent.2 + loopsToCome self.offers_loops : Nat) : Int)
        ≤ config.max_concurrency + offersToCome old.sends)
    : (TaskRunner.continueLoop place sent).HasRoom config := by
  obtain ⟨after, sending⟩ := sent
  dsimp only at only fits
  have moved (offersLoop : OffersLoop) (sends : offersLoop.sends = sending)
      : (after.setLoop place offersLoop).HasRoom config := by
    constructor
    · have count : (after.setLoop place offersLoop).committed
          = after.unexpiredOffers.keys.length + after.runningTasksCount + after.handlerToCome
            + loopsToCome (after.offers_loops.set place offersLoop) := rfl
      have changed := loopsToCome_set here offersLoop
      rw [sends] at changed
      rw [count, runningTasksCount, only.running_tasks, handlerToCome, only.handler,
        only.offers_loops]
      unfold runningTasksCount handlerToCome at fits
      omega
    · intro message member
      by_contra rejects
      rw [Bool.not_eq_false] at rejects
      simp [room.sent message (only.sent message member rejects)] at rejects
    · intro message replies
      exact room.replies message (only.handler ▸ replies)
  cases sending with
  | none => exact moved .sleeping rfl
  | some sending => exact moved (.sending sending) rfl

theorem HasRoom.mono {after : TaskRunner} (room : self.HasRoom config)
    (committed : after.committed ≤ self.committed)
    (sent : ∀ message ∈ after.sent, message.rejects = true → message ∈ self.sent)
    (replies : ∀ reply, after.handler = some (.replying reply) → reply.message.rejects = false)
    : after.HasRoom config where
  committed := Int.le_trans (Int.ofNat_le.mpr committed) room.committed
  sent := by
    intro message member
    by_contra rejects
    rw [Bool.not_eq_false] at rejects
    simp [room.sent message (sent message member rejects)] at rejects
  replies := replies

/-! ### Broker messages -/

theorem committed_stopOffers_le (self : TaskRunner)
    : self.stopOffers.committed ≤ self.committed := by
  unfold stopOffers
  dsimp only
  split
  · next place found =>
      have fewer : loopsToCome (self.offers_loops.set place .ended)
          ≤ loopsToCome self.offers_loops := by
        cases here : self.offers_loops[place]? with
        | none => rw [List.set_eq_of_length_le (List.getElem?_eq_none_iff.mp here)]
        | some old =>
            have changed := loopsToCome_set here .ended
            simp only [OffersLoop.sends, offersToCome, Option.map_none, Option.getD_none] at changed
            omega
      exact Nat.add_le_add_left fewer _
  · exact Nat.le_refl _

theorem handler_stopOffers (self : TaskRunner) : self.stopOffers.handler = self.handler := by
  unfold stopOffers
  dsimp only
  split <;> rfl

theorem sent_stopOffers (self : TaskRunner) : self.stopOffers.sent = self.sent := by
  unfold stopOffers
  dsimp only
  split <;> rfl

section

variable {self : TaskRunner} (room : self.HasRoom config)
include room

theorem HasRoom.stopOffers : self.stopOffers.HasRoom config := by
  refine room.mono (committed_stopOffers_le self) ?_ ?_
  · rw [sent_stopOffers]
    exact fun _ member _ => member
  · rw [handler_stopOffers]
    exact room.replies

theorem HasRoom.reply {reply : Reply} (idle : self.handler = none)
    (accepts : reply.message.rejects = false)
    : (self.reply reply).HasRoom config := by
  have nothing : self.handlerToCome = 0 := by simp [handlerToCome, idle, offersToCome]
  have count : (self.reply reply).committed
      = self.unexpiredOffers.keys.length + self.runningTasksCount + 0
        + loopsToCome self.offers_loops := rfl
  refine room.mono ?_ (fun _ member _ => member) ?_
  · rw [count, ← nothing]
    exact Nat.le_refl _
  · intro other same
    obtain rfl := Handler.replying.inj (Option.some.inj same)
    exact accepts

theorem HasRoom.accept (task_id offer_id : String) (idle : self.handler = none)
    : (self.handleTaskOfferAccept config task_id offer_id).HasRoom config := by
  unfold handleTaskOfferAccept
  split
  · have another : TASK_REJECTED_REASON_OFFER_EXPIRED ≠ TASK_REJECTED_REASON_AT_CAPACITY := by
      decide
    exact room.reply idle (by simpa [Reply.message, RunnerMessage.rejects] using another)
  · next offer isOpen =>
      obtain ⟨found, alive⟩ := Option.filter_eq_some_iff.mp isOpen
      have fewer := Dict.length_keys_filter_delete_of_get?
        (fun offer => !self.hasExpired offer) found alive
      have more := Dict.length_keys_set_le self.running_tasks task_id self.task_states.length
      have within := room.committed
      have promised : self.committed
          = (self.open_offers.filter (fun offer => !self.hasExpired offer)).keys.length
            + self.running_tasks.keys.length + self.handlerToCome
            + loopsToCome self.offers_loops := rfl
      split
      · next full =>
          unfold runningTasksCount at full
          omega
      · have accepted : (self.takeOffer task_id offer_id).HasRoom config := by
          refine room.mono ?_ (fun _ member _ => member) room.replies
          rw [promised]
          change ((self.open_offers.delete offer_id).filter
              (fun offer => !self.hasExpired offer)).keys.length
            + (self.running_tasks.set task_id self.task_states.length).keys.length
            + self.handlerToCome + loopsToCome self.offers_loops ≤ _
          omega
        exact accepted.reply idle rfl

theorem HasRoom.registered : self.handleRunnerRegistered.HasRoom config := by
  have count : self.handleRunnerRegistered.committed
      = self.unexpiredOffers.keys.length + self.runningTasksCount + self.handlerToCome
        + loopsToCome (self.offers_loops ++ [.ready]) := rfl
  refine room.mono ?_ (fun _ member _ => member) ?_
  · rw [count, loopsToCome_append]
    exact Nat.le_refl _
  · intro message replies
    exact room.replies message replies

theorem HasRoom.settings (task_id : String) (settings : TaskSettings)
    : (self.handleTaskSettings task_id settings).HasRoom config := by
  unfold handleTaskSettings
  split
  · exact room
  · dsimp only
    split
    · exact room
    · exact room.mono (Nat.le_refl _) (fun _ member _ => member) room.replies

theorem HasRoom.cancel (task_id reason : String) (idle : self.handler = none)
    (alone : self.CountsAlone (.receive (.taskcancel task_id reason)))
    : (self.handleTaskCancel environment config task_id).HasRoom config := by
  unfold handleTaskCancel
  split
  · exact room
  · next task found =>
      dsimp only
      split
      · next waiting =>
          have fewer := Dict.length_keys_delete_le self.running_tasks task_id
          have popped : (self.popTask task_id).HasRoom config := by
            refine room.mono ?_ (fun _ member _ => member) room.replies
            exact Nat.add_le_add_right
              (Nat.add_le_add_right (Nat.add_le_add_left fewer _) _) _
          have nothing : self.handlerToCome = 0 := by simp [handlerToCome, idle, offersToCome]
          have count : (self.popTask task_id).committed
              = (self.popTask task_id).unexpiredOffers.keys.length
                + (self.popTask task_id).runningTasksCount + self.handlerToCome
                + loopsToCome self.offers_loops := rfl
          have within := popped.committed
          rw [count, nothing] at within
          refine popped.continueHandler (sendOffers_offersOnly _) (sendOffers_le within ?_)
          simp only [CountsAlone, found] at alone
          exact alone waiting
      · next running =>
          have count : ({ self.setTaskState task { self.taskState task with status := .aborting } with
                handler := some (.stopping task (self.taskState task).process .begun) }
                : TaskRunner).committed
              = self.unexpiredOffers.keys.length + self.runningTasksCount + 0
                + loopsToCome self.offers_loops := rfl
          refine room.mono ?_ (fun _ member _ => member) ?_
          · rw [count]
            exact Nat.add_le_add_right (Nat.le_add_right _ _) _
          · intro message replies
            exact absurd (Option.some.inj replies) (by simp)
      · exact room

theorem HasRoom.receive (message : BrokerMessage) (idle : self.handler = none)
    (alone : self.CountsAlone (.receive message))
    : (self.handleMessage environment config message).HasRoom config := by
  cases message with
  | inforequest => exact room.reply idle rfl
  | runnerregistered => exact room.registered
  | taskofferaccept task_id offer_id => exact room.accept task_id offer_id idle
  | tasksettings task_id settings => exact room.settings task_id settings
  | taskcancel task_id reason => exact room.cancel task_id reason idle alone
  | rpcresponse => exact room
  | drain =>
      have stopped := room.stopOffers
      refine stopped.mono ?_ (fun _ member _ => member) ?_
      · exact Nat.add_le_add_right (Nat.le_add_right _ _) _
      · intro message replies
        exact absurd (Option.some.inj replies) (by simp)

/-! ### Coroutines -/

theorem HasRoom.withHandler {handler : Option Handler} (silent : handler.bind Handler.sends = none)
    (noReply : ∀ reply, handler ≠ some (.replying reply))
    : HasRoom config { self with handler } := by
  have count : ({ self with handler } : TaskRunner).committed
      = self.unexpiredOffers.keys.length + self.runningTasksCount
        + offersToCome (handler.bind Handler.sends) + loopsToCome self.offers_loops := rfl
  refine room.mono ?_ (fun _ member _ => member) ?_
  · rw [count, silent]
    exact Nat.add_le_add_right (Nat.le_add_right _ _) _
  · intro message replies
    exact absurd replies (noReply message)

theorem HasRoom.send {message : RunnerMessage} (accepts : message.rejects = false)
    : (self.send message).HasRoom config := by
  refine room.mono (Nat.le_refl _) ?_ room.replies
  intro other member rejects
  rcases List.mem_append.mp member with old | new
  · exact old
  · rw [List.mem_singleton.mp new, accepts] at rejects
    contradiction

theorem HasRoom.setProcess (place : Nat) (process : Process)
    : (self.setProcess place process).HasRoom config :=
  room.mono (Nat.le_refl _) (fun _ member _ => member) room.replies

theorem HasRoom.handler {next : TaskRunner} {handler : Handler} {happening : Happening}
    (here : self.handler = some handler)
    (taken : self.handlerStep environment handler happening = some next)
    : next.HasRoom config := by
  cases handler with
  | replying reply =>
      cases happening with
      | goesOn =>
          cases taken
          exact (room.send (room.replies reply here)).withHandler rfl (by simp)
      | fails e =>
          cases taken
          exact room.withHandler rfl (by simp)
      | _ => contradiction
  | sendingOffers sending =>
      cases happening with
      | goesOn =>
          simp only [handlerStep, Option.some.injEq] at taken
          subst taken
          have made := nextOffer_le environment self sending
          have within := room.committed
          have spent : self.handlerToCome = sending.remaining := by
            simp [handlerToCome, here, Handler.sends, offersToCome]
          unfold TaskRunner.committed at within
          refine room.continueHandler (nextOffer_offersOnly _ _) ?_
          omega
      | fails e =>
          cases taken
          exact room.withHandler rfl (by simp)
      | _ => contradiction
  | stopping task process point =>
      cases process with
      | none =>
          cases happening with
          | goesOn =>
              cases taken
              exact room.withHandler rfl (by simp)
          | _ => contradiction
      | some process =>
          simp only [handlerStep, Option.map_eq_some_iff] at taken
          obtain ⟨⟨stopped, following⟩, -, rfl⟩ := taken
          refine (room.setProcess process stopped).withHandler ?_ ?_
          · cases following <;> rfl
          · cases following <;> simp
  | draining =>
      cases happening with
      | goesOn =>
          cases taken
          exact room.withHandler rfl (by simp)
      | _ => contradiction

theorem HasRoom.setLoop {new : OffersLoop} (here : self.offers_loops[place]? = some old)
    (silent : new.sends = none)
    : (self.setLoop place new).HasRoom config := by
  have changed := loopsToCome_set here new
  have count : (self.setLoop place new).committed
      = self.unexpiredOffers.keys.length + self.runningTasksCount + self.handlerToCome
        + loopsToCome (self.offers_loops.set place new) := rfl
  have promised : self.committed
      = self.unexpiredOffers.keys.length + self.runningTasksCount + self.handlerToCome
        + loopsToCome self.offers_loops := rfl
  refine room.mono ?_ (fun _ member _ => member) room.replies
  rw [silent] at changed
  simp only [offersToCome, Option.map_none, Option.getD_none] at changed
  omega

theorem HasRoom.offersLoop {next : TaskRunner} {place : Nat} {offersLoop : OffersLoop}
    {happening : Happening} (here : self.offers_loops[place]? = some offersLoop)
    (alone : self.CountsAlone (.offersLoop place happening))
    (taken : self.loopStep environment config place offersLoop happening = some next)
    : next.HasRoom config := by
  have within := room.committed
  unfold TaskRunner.committed at within
  cases offersLoop with
  | ready =>
      cases happening with
      | goesOn =>
          simp only [CountsAlone, here] at alone
          simp only [loopStep] at taken
          split at taken
          · next sends =>
              cases taken
              have nothing := alone sends
              have made
                  : (((self.sendOffers environment config).1.unexpiredOffers.keys.length
                      + self.runningTasksCount
                      + offersToCome (self.sendOffers environment config).2 + 0 : Nat) : Int)
                    ≤ config.max_concurrency :=
                sendOffers_le (by omega) (fun _ => rfl)
              refine room.continueLoop (sendOffers_offersOnly _) here ?_
              rw [nothing.1, nothing.2]
              omega
          · cases taken
            exact room.setLoop here rfl
      | _ => contradiction
  | sending sending =>
      cases happening with
      | goesOn =>
          simp only [loopStep, Option.some.injEq] at taken
          subst taken
          have made := nextOffer_le environment self sending
          have spent : offersToCome (OffersLoop.sending sending).sends = sending.remaining := rfl
          refine room.continueLoop (nextOffer_offersOnly _ _) here ?_
          rw [spent]
          omega
      | fails e =>
          cases taken
          exact room.setLoop here rfl
      | _ => contradiction
  | sleeping =>
      cases happening with
      | goesOn =>
          cases taken
          exact room.setLoop here rfl
      | _ => contradiction
  | ended => cases happening <;> contradiction

/-- An execution may pop its task, and sends no rejection. -/
structure ExecutesOnly (before after : TaskRunner) : Prop where
  now : after.now = before.now
  open_offers : after.open_offers = before.open_offers
  handler : after.handler = before.handler
  offers_loops : after.offers_loops = before.offers_loops
  running_tasks : after.runningTasksCount ≤ before.runningTasksCount
  sent : ∀ message ∈ after.sent, message.rejects = true → message ∈ before.sent

end

theorem ExecutesOnly.trans {first second third : TaskRunner} (early : ExecutesOnly first second)
    (late : ExecutesOnly second third)
    : ExecutesOnly first third where
  now := late.now.trans early.now
  open_offers := late.open_offers.trans early.open_offers
  handler := late.handler.trans early.handler
  offers_loops := late.offers_loops.trans early.offers_loops
  running_tasks := Nat.le_trans late.running_tasks early.running_tasks
  sent message member rejects :=
    early.sent message (late.sent message member rejects) rejects

theorem executesOnly_setPhase (self : TaskRunner) (place : Nat) (execution : Execution)
    (phase : Phase)
    : ExecutesOnly self (self.setPhase place execution phase) :=
  ⟨rfl, rfl, rfl, rfl, Nat.le_refl _, fun _ member _ => member⟩

theorem executesOnly_send (self : TaskRunner) {message : RunnerMessage}
    (accepts : message.rejects = false)
    : ExecutesOnly self (self.send message) := by
  refine ⟨rfl, rfl, rfl, rfl, Nat.le_refl _, fun other member rejects => ?_⟩
  rcases List.mem_append.mp member with old | new
  · exact old
  · rw [List.mem_singleton.mp new, accepts] at rejects
    contradiction

theorem executesOnly_endExecution (self : TaskRunner) (place : Nat) (execution : Execution)
    : ExecutesOnly self (self.endExecution place execution) :=
  ⟨rfl, rfl, rfl, rfl, Dict.length_keys_delete_le _ _, fun _ member _ => member⟩

theorem executesOnly_sendPrinted (self : TaskRunner) (place : Nat) (execution : Execution)
    (print_args : List Json) (result : Json)
    : ExecutesOnly self (self.sendPrinted place execution print_args result) := by
  cases print_args with
  | nil | cons => exact executesOnly_setPhase self place execution _

theorem executesOnly_startExecution (self : TaskRunner) (place : Nat) (execution : Execution)
    (failure : Option TaskException)
    : ExecutesOnly self (self.startExecution environment place execution failure) := by
  unfold startExecution
  split
  · exact executesOnly_setPhase self place execution _
  · exact executesOnly_setPhase self place execution _
  · exact ⟨rfl, rfl, rfl, rfl, Nat.le_refl _, fun _ member _ => member⟩

theorem executesOnly_of_step {execution : Execution} {phase : Phase}
    (taken : self.executionStep environment config place execution phase happening = some next)
    : ExecutesOnly self next := by
  unfold executionStep at taken
  split at taken
  · cases taken
    exact executesOnly_startExecution self place execution none
  · next e =>
      cases taken
      exact executesOnly_startExecution self place execution (some e)
  · simp only [Option.map_eq_some_iff] at taken
    obtain ⟨⟨stepped, progress⟩, -, rfl⟩ := taken
    exact ⟨rfl, rfl, rfl, rfl, Nat.le_refl _, fun _ member _ => member⟩
  · cases taken
    exact executesOnly_sendPrinted self place execution _ _
  · cases taken
    exact executesOnly_setPhase self place execution _
  · cases taken
    have numbered : ExecutesOnly self { self with ids := self.ids + 1 } :=
      ⟨rfl, rfl, rfl, rfl, Nat.le_refl _, fun _ member _ => member⟩
    exact (numbered.trans (executesOnly_send _ rfl)).trans (executesOnly_sendPrinted _ _ _ _ _)
  · cases taken
    exact executesOnly_setPhase self place execution _
  · cases taken
    exact (executesOnly_send self rfl).trans (executesOnly_endExecution _ _ _)
  · cases taken
    exact executesOnly_setPhase self place execution _
  · cases taken
    exact (executesOnly_send self rfl).trans (executesOnly_endExecution _ _ _)
  · cases taken
    exact executesOnly_endExecution self place execution
  · contradiction

theorem HasRoom.execution {after : TaskRunner} (room : self.HasRoom config)
    (only : ExecutesOnly self after)
    : after.HasRoom config := by
  have fewer := only.running_tasks
  refine room.mono ?_ only.sent ?_
  · unfold TaskRunner.committed unexpiredOffers popExpired handlerToCome hasExpired
    rw [only.now, only.open_offers, only.handler, only.offers_loops]
    exact Nat.add_le_add_right (Nat.add_le_add_right (Nat.add_le_add_left fewer _) _) _
  · rw [only.handler]
    exact room.replies

/-! ### Runs -/

/-- As time goes by, fewer offers are open. -/
theorem HasRoom.clock (room : self.HasRoom config) {now : Nat} (later : self.now ≤ now)
    : HasRoom config { self with now } := by
  have fewer := @Dict.length_keys_filter_mono _ _ self.open_offers
    (fun offer => !decide (offer.valid_until < now))
    (fun offer => !decide (offer.valid_until < self.now))
    (by
      intro offer alive
      simp only [Bool.not_eq_true', decide_eq_false_iff_not] at alive ⊢
      omega)
  refine room.mono ?_ (fun _ member _ => member) room.replies
  exact Nat.add_le_add_right (Nat.add_le_add_right (Nat.add_le_add_right fewer _) _) _

theorem HasRoom.step {self next : TaskRunner} {action : Action} (room : self.HasRoom config)
    (alone : self.CountsAlone action)
    (taken : self.step environment config action = some next)
    : next.HasRoom config := by
  cases action with
  | clock now =>
      cases taken
      exact room.clock alone
  | receive message =>
      simp only [TaskRunner.step, Option.ite_none_right_eq_some, Option.isNone_iff_eq_none,
        Option.some.injEq] at taken
      obtain ⟨idle, rfl⟩ := taken
      exact room.receive message idle alone
  | handler happening =>
      obtain ⟨handler, here, moved⟩ := Option.bind_eq_some_iff.mp taken
      exact room.handler here moved
  | offersLoop place happening =>
      obtain ⟨offersLoop, here, moved⟩ := Option.bind_eq_some_iff.mp taken
      exact room.offersLoop here alone moved
  | execution place happening =>
      obtain ⟨execution, here, moved⟩ := Option.bind_eq_some_iff.mp taken
      exact room.execution (executesOnly_of_step moved)
  | exits process exitcode =>
      simp only [TaskRunner.step, exitStep, Option.ite_none_right_eq_some,
        Option.some.injEq] at taken
      obtain ⟨-, rfl⟩ := taken
      exact room.setProcess process _
  | disconnects =>
      obtain ⟨-, rfl⟩ := Option.ite_some_none_eq_some.mp taken
      exact room.stopOffers

/-! ### Running tasks -/

theorem running_tasks_stopOffers (self : TaskRunner)
    : self.stopOffers.running_tasks = self.running_tasks := by
  unfold stopOffers
  dsimp only
  split <;> rfl

theorem running_tasks_loopStep {offersLoop : OffersLoop}
    (taken : self.loopStep environment config place offersLoop happening = some next)
    : next.running_tasks = self.running_tasks :=
  loopStep_keeps TaskRunner.running_tasks (fun _ _ => rfl)
    (fun self => (sendOffers_offersOnly self).running_tasks)
    (fun self sending => (nextOffer_offersOnly self sending).running_tasks) taken

theorem running_tasks_handlerStep {handler : Handler}
    (taken : self.handlerStep environment handler happening = some next)
    : next.running_tasks = self.running_tasks :=
  handlerStep_keeps TaskRunner.running_tasks (fun _ _ => rfl) (fun _ _ => rfl)
    (fun self sending => (nextOffer_offersOnly self sending).running_tasks) (fun _ _ _ => rfl)
    taken

/-- An accept is the only message after which more tasks run, and it looks at their number. -/
theorem runningTasksCount_handleMessage
    (bounded : (self.runningTasksCount : Int) ≤ config.max_concurrency) (message : BrokerMessage)
    : ((self.handleMessage environment config message).runningTasksCount : Int)
      ≤ config.max_concurrency := by
  cases message with
  | taskofferaccept task_id offer_id =>
      simp only [handleMessage, handleTaskOfferAccept]
      split
      · exact bounded
      · split
        · exact bounded
        · next vacant =>
            have more := Dict.length_keys_set_le self.running_tasks task_id
              self.task_states.length
            change ((self.running_tasks.set task_id self.task_states.length).keys.length : Int) ≤ _
            unfold runningTasksCount at vacant
            omega
  | tasksettings task_id settings =>
      simp only [handleMessage, handleTaskSettings]
      split
      · exact bounded
      · split
        · exact bounded
        · exact bounded
  | taskcancel task_id reason =>
      simp only [handleMessage, handleTaskCancel]
      split
      · exact bounded
      · split
        · have same : ((self.popTask task_id).sendOffers environment config).1.running_tasks = _ :=
            (sendOffers_offersOnly (self.popTask task_id)).running_tasks
          have fewer := Dict.length_keys_delete_le self.running_tasks task_id
          change ((((self.popTask task_id).sendOffers environment config).1.running_tasks.keys.length
            : Nat) : Int) ≤ _
          rw [same]
          change ((self.running_tasks.delete task_id).keys.length : Int) ≤ _
          unfold runningTasksCount at bounded
          omega
        · exact bounded
        · exact bounded
  | drain =>
      change (self.stopOffers.running_tasks.keys.length : Int) ≤ _
      rw [running_tasks_stopOffers]
      exact bounded
  | _ => exact bounded

theorem runningTasksCount_step {action : Action}
    (bounded : (self.runningTasksCount : Int) ≤ config.max_concurrency)
    (taken : self.step environment config action = some next)
    : (next.runningTasksCount : Int) ≤ config.max_concurrency := by
  cases action with
  | clock now =>
      cases taken
      exact bounded
  | receive message =>
      obtain ⟨-, rfl⟩ := Option.ite_some_none_eq_some.mp taken
      exact runningTasksCount_handleMessage bounded message
  | handler happening =>
      obtain ⟨handler, -, moved⟩ := Option.bind_eq_some_iff.mp taken
      rw [runningTasksCount, running_tasks_handlerStep moved]
      exact bounded
  | offersLoop place happening =>
      obtain ⟨offersLoop, -, moved⟩ := Option.bind_eq_some_iff.mp taken
      rw [runningTasksCount, running_tasks_loopStep moved]
      exact bounded
  | execution place happening =>
      obtain ⟨execution, -, moved⟩ := Option.bind_eq_some_iff.mp taken
      have fewer := (executesOnly_of_step moved).running_tasks
      omega
  | exits process exitcode =>
      obtain ⟨-, rfl⟩ := Option.ite_some_none_eq_some.mp taken
      exact bounded
  | disconnects =>
      obtain ⟨-, rfl⟩ := Option.ite_some_none_eq_some.mp taken
      rw [runningTasksCount, running_tasks_stopOffers]
      exact bounded

/-- No more tasks run than may run. Where offers are counted one call at a time, the unexpired
open offers and the running tasks together are within the capacity too, and no accept is rejected
for want of it.
-/
theorem capacity_of_countsAlone (environment : Environment) (config : TaskRunnerConfig)
    (allowed : 0 ≤ config.max_concurrency) (actions : List Action)
    : Throughout (step environment config)
          (fun self => (self.runningTasksCount : Int) ≤ config.max_concurrency) new actions
      ∧ (Along (step environment config) CountsAlone new actions
          → Throughout (step environment config)
              (fun self =>
                ((self.unexpiredOffers.keys.length + self.runningTasksCount : Nat) : Int)
                    ≤ config.max_concurrency
                  ∧ ∀ task_id, .taskrejected task_id TASK_REJECTED_REASON_AT_CAPACITY ∉ self.sent)
              new actions) := by
  constructor
  · exact throughout_of_invariant
      (fun _ _ _ bounded taken => runningTasksCount_step bounded taken) allowed
  · intro alone
    have start : new.HasRoom config := ⟨allowed, by simp [new], by simp [new]⟩
    have room := throughout_of_preserved (fun _ _ _ room alone taken => room.step alone taken)
      start alone
    refine room.mono (fun self room => ⟨?_, fun task_id member => ?_⟩)
    · have within := room.committed
      unfold committed at within
      omega
    · have accepts := room.sent _ member
      simp [RunnerMessage.rejects] at accepts

def threeAtOnce : TaskRunnerConfig := ⟨3, 60⟩

/-- The loop makes three offers, one is accepted and its task cancelled. -/
theorem capacity_of_cancelled
    : let actions : List Action :=
        [.receive .runnerregistered, .offersLoop 0 .goesOn, .offersLoop 0 .goesOn,
          .offersLoop 0 .goesOn, .offersLoop 0 .goesOn, .receive (.taskofferaccept "task" "x"),
          .handler .goesOn, .receive (.taskcancel "task" ""), .handler .goesOn]
      (run (step plainEnvironment threeAtOnce) new actions).map
            (fun self => (self.open_offers.keys, self.running_tasks.keys))
          = some (["", "xx", "xxx"], [])
        ∧ Throughout (step plainEnvironment threeAtOnce)
            (fun self =>
              ((self.unexpiredOffers.keys.length + self.runningTasksCount : Nat) : Int)
                  ≤ threeAtOnce.max_concurrency
                ∧ ∀ task_id, .taskrejected task_id TASK_REJECTED_REASON_AT_CAPACITY ∉ self.sent)
            new actions := by
  intro actions
  refine ⟨by decide, ?_⟩
  exact (capacity_of_countsAlone plainEnvironment threeAtOnce (by decide) actions).2 (by decide)

/-- A task is cancelled while the loop has one offer left to make: two calls of `_send_offers`
make offers for the same places, and the accept of the last of them is rejected.
-/
theorem capacity_exceeded
    : let actions : List Action :=
        [.receive .runnerregistered, .offersLoop 0 .goesOn, .offersLoop 0 .goesOn,
          .receive (.taskofferaccept "task" ""), .handler .goesOn,
          .receive (.taskcancel "task" ""), .handler .goesOn, .handler .goesOn,
          .offersLoop 0 .goesOn]
      (∃ reached, run (step plainEnvironment threeAtOnce) new actions = some reached
          ∧ ¬((reached.unexpiredOffers.keys.length + reached.runningTasksCount : Nat) : Int)
              ≤ threeAtOnce.max_concurrency)
        ∧ ∃ reached,
            run (step plainEnvironment threeAtOnce) new
                (actions
                  ++ [.receive (.taskofferaccept "first" "x"), .handler .goesOn,
                    .receive (.taskofferaccept "second" "xx"), .handler .goesOn,
                    .receive (.taskofferaccept "third" "xxx"), .handler .goesOn,
                    .receive (.taskofferaccept "fourth" "xxxx"), .handler .goesOn])
              = some reached
            ∧ .taskrejected "fourth" TASK_REJECTED_REASON_AT_CAPACITY ∈ reached.sent := by
  intro actions
  refine ⟨⟨_, rfl, by decide⟩, _, rfl, ?_⟩
  exact List.mem_append_right _ (List.mem_singleton.mpr rfl)

end TaskRunner

end N8n.PythonRunner
