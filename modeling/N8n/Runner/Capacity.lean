import Mathlib.Data.List.Induction
import N8n.Library.Runs
import N8n.Runner.SendOffers

/-! A task runner never promises more than it can run: open offers and running tasks stay
within its concurrency, and each running task comes from an offer that was open.
-/

namespace N8n.Runner.TaskRunner

open N8n.Exec (Within)
open N8n.Runs

variable {Data : Type} {environment : Environment} {opts : TaskRunnerOpts}

/-- The bound is kept, and no task is running that was not. -/
structure Keeps (opts : TaskRunnerOpts) (before after : TaskRunner Data) : Prop where
  bounded : Bounded opts before → Bounded opts after
  retained
    : ∀ taskId task, after.runningTasks.get? taskId = some task
        → before.runningTasks.get? taskId = some task

theorem Keeps.refl (self : TaskRunner Data) : Keeps opts self self :=
  ⟨fun bounded => bounded, fun _ _ found => found⟩

theorem Keeps.trans (before middle after : TaskRunner Data) (early : Keeps opts before middle)
    (late : Keeps opts middle after)
    : Keeps opts before after :=
  ⟨fun bounded => late.bounded (early.bounded bounded), fun taskId task found =>
    early.retained taskId task (late.retained taskId task found)⟩

theorem Quiet.keeps {before after : TaskRunner Data} (quiet : Quiet opts before after)
    : Keeps opts before after :=
  ⟨quiet.bounded, fun _ _ found => quiet.runningTasks ▸ found⟩

/-- A change of neither offers nor running tasks. -/
theorem keeps_update {change : TaskRunner Data → TaskRunner Data}
    (sameOffers : ∀ self, (change self).openOffers = self.openOffers)
    (sameTasks : ∀ self, (change self).runningTasks = self.runningTasks)
    : Within (@Keeps Data opts) (modify change) := by
  refine Within.update (fun self => ⟨?_, ?_⟩)
  · unfold Bounded
    rw [sameOffers, sameTasks]
    exact fun bounded => bounded
  · rw [sameTasks]
    exact fun _ _ found => found

theorem keeps_pure : Within (@Keeps Data opts) (pure ()) := Within.pure Keeps.refl ()

theorem keeps_get {next : TaskRunner Data → Exec (TaskRunner Data) Unit}
    (later : ∀ self, Within (Keeps opts) (next self))
    : Within (Keeps opts) (get >>= next) :=
  Within.bind Keeps.trans (Within.get Keeps.refl) later

theorem keeps_send (message : RunnerMessage Data)
    : Within (Keeps opts) (send environment message) := by
  refine fun self => (send_ensures message self).mono ?_ ?_
  · rintro _ after ⟨rfl, -⟩
    exact ⟨fun bounded => bounded, fun _ _ found => found⟩
  · rintro after ⟨rfl, -⟩
    exact ⟨fun bounded => bounded, fun _ _ found => found⟩

theorem keeps_sendOffers : Within (@Keeps Data opts) (sendOffers environment opts) :=
  sendOffers_within.mono (fun _ _ quiet => quiet.keeps)

theorem keeps_setStatus (task : Nat) (status : TaskStatus)
    : Within (@Keeps Data opts) (setStatus task status) :=
  keeps_update (fun _ => rfl) (fun _ => rfl)

theorem keeps_throwUnexpectedTaskStatus (task : Nat)
    : Within (@Keeps Data opts) (throwUnexpectedTaskStatus task) :=
  keeps_get (fun _ => Within.throw Keeps.refl _)

theorem keeps_finishTask (task : Nat)
    : Within (@Keeps Data opts) (finishTask environment opts task) := by
  refine Within.bind Keeps.trans (Within.update (fun self => ⟨?_, ?_⟩))
    (fun _ => keeps_sendOffers)
  · intro bounded
    have fewer := Dict.length_keys_delete_le self.runningTasks (self.taskState task).taskId
    unfold Bounded setTaskState at *
    simp only at *
    omega
  · exact fun _ _ found => Dict.get?_of_delete found

theorem keeps_sendError (task : Nat) (error : JsError)
    : Within (@Keeps Data opts) (sendError environment task error) :=
  keeps_get (fun _ => keeps_send _)

theorem keeps_sendData (task : Nat) (data : Data)
    : Within (Keeps opts) (sendData environment task data) :=
  keeps_get (fun _ => keeps_send _)

theorem keeps_taskCancelled (taskId : String)
    : Within (@Keeps Data opts) (taskCancelled environment opts taskId) := by
  refine keeps_get (fun self => ?_)
  split
  · exact keeps_pure
  · split
    · exact keeps_finishTask _
    · exact keeps_pure
    · exact keeps_pure
    · exact keeps_setStatus _ _

theorem keeps_taskTimedOut (taskId : String)
    : Within (@Keeps Data opts) (taskTimedOut environment opts taskId) := by
  refine keeps_get (fun self => ?_)
  split
  · exact keeps_pure
  · split
    · exact Within.tryFinally Keeps.trans (keeps_sendError _ _) (keeps_finishTask _)
    · exact keeps_throwUnexpectedTaskStatus _
    · exact keeps_setStatus _ _
    · exact keeps_pure

theorem keeps_receivedSettings (taskId : String)
    : Within (@Keeps Data opts) (receivedSettings taskId) := by
  refine keeps_get (fun self => ?_)
  split
  · exact keeps_pure
  · split
    · exact keeps_throwUnexpectedTaskStatus _
    · exact keeps_throwUnexpectedTaskStatus _
    · exact keeps_throwUnexpectedTaskStatus _
    · refine Within.bind Keeps.trans (keeps_setStatus _ _) (fun _ => ?_)
      exact keeps_update (fun _ => rfl) (fun _ => rfl)

theorem keeps_sendUnlessCancelled (task : Nat) {sendEnd : Exec (TaskRunner Data) Unit}
    (sends : Within (Keeps opts) sendEnd)
    : Within (Keeps opts) (sendUnlessCancelled task sendEnd) := by
  refine keeps_get (fun self => ?_)
  split
  · exact keeps_throwUnexpectedTaskStatus _
  · exact keeps_pure
  · exact sends
  · exact sends

theorem keeps_taskExecutionFailed (task : Nat) (error : JsError)
    : Within (@Keeps Data opts) (taskExecutionFailed environment opts task error) :=
  Within.tryFinally Keeps.trans (keeps_sendUnlessCancelled _ (keeps_sendError _ _))
    (keeps_finishTask _)

theorem keeps_executionSettled (task : Nat) (outcome : Except JsError Data)
    : Within (Keeps opts) (executionSettled environment opts task outcome) := by
  refine Within.bind Keeps.trans (keeps_update ?_ ?_) (fun _ => ?_)
  · exact fun _ => rfl
  · exact fun _ => rfl
  · cases outcome with
    | ok data =>
        refine Within.tryCatch Keeps.trans ?_ (keeps_taskExecutionFailed _)
        exact Within.tryFinally Keeps.trans (keeps_sendUnlessCancelled _ (keeps_sendData _ _))
          (keeps_finishTask _)
    | error error => exact keeps_taskExecutionFailed _ _

theorem keeps_timerFired (task : Nat)
    : Within (@Keeps Data opts) (timerFired environment opts task) := by
  intro self
  refine .bind (.get ?_)
  have first
      : Keeps opts self
          (self.setTaskState task { self.taskState task with timeoutTimer := false }) :=
    ⟨fun bounded => bounded, fun _ _ found => found⟩
  refine .bind (.update ?_)
  exact (keeps_taskTimedOut _ _).mono (fun _ _ second => first.trans _ _ _ second)
    (fun _ second => first.trans _ _ _ second)

/-- The task runs already, or the action accepts an open offer for it. -/
def Continued (before : TaskRunner Data) (action : Action Data) (taskId : String) (task : Nat)
    : Prop :=
  before.runningTasks.get? taskId = some task
  ∨ ∃ offerId, action = .taskofferaccept offerId taskId
      ∧ (before.openOffers.get? offerId).isSome = true ∧ task = before.taskStates.length

theorem offerAccepted_ensures (offerId taskId : String) (self : TaskRunner Data)
    : let good (after : TaskRunner Data) : Prop :=
        (Bounded opts self → Bounded opts after)
        ∧ ∀ other task, after.runningTasks.get? other = some task
            → Continued self (.taskofferaccept offerId taskId) other task
      (offerAccepted environment opts offerId taskId).Ensures self (fun _ => good) good := by
  intro good
  have kept {after : TaskRunner Data} (keeps : Keeps opts self after) : good after :=
    ⟨keeps.bounded, fun other task found => .inl (keeps.retained other task found)⟩
  refine .bind (.get ?_)
  split
  · split
    · exact (keeps_send _ self).mono (fun _ _ => kept) (fun _ => kept)
    · next offer isOpen =>
        -- The offer makes room for the task.
        refine .bind (.update ?_)
        have accepted
            : good
                { self with
                    openOffers := self.openOffers.delete offerId
                    runningTasks := self.runningTasks.set taskId self.taskStates.length
                    taskStates := self.taskStates ++ [⟨taskId, .waitingForSettings, true⟩] } := by
          refine ⟨?_, ?_⟩
          · intro bounded
            have := Dict.length_keys_delete_of_get? isOpen
            have := Dict.length_keys_set_le self.runningTasks taskId self.taskStates.length
            unfold Bounded at *
            simp only
            omega
          · intro other task found
            rw [Dict.get?_set] at found
            split at found
            · next same =>
                subst same
                exact .inr ⟨offerId, rfl, by simp [isOpen], (Option.some.inj found).symm⟩
            · exact .inl found
        have onward {after : TaskRunner Data} (keeps : Keeps opts _ after) : good after :=
          ⟨fun bounded => keeps.bounded (accepted.1 bounded), fun other task found =>
            accepted.2 other task (keeps.retained other task found)⟩
        exact (keeps_send _ _).mono (fun _ _ => onward) (fun _ => onward)
  · refine .bind (.update ?_)
    have first : Keeps opts self { self with openOffers := self.openOffers.delete offerId } := by
      refine ⟨fun bounded => ?_, fun _ _ found => found⟩
      have := Dict.length_keys_delete_le self.openOffers offerId
      unfold Bounded at *
      simp only
      omega
    exact (keeps_send _ _).mono (fun _ _ second => kept (first.trans _ _ _ second))
      (fun _ second => kept (first.trans _ _ _ second))

theorem step_continues {self next : TaskRunner Data} {action : Action Data}
    (taken : step environment opts self action = some next)
    : (Bounded opts self → Bounded opts next)
      ∧ ∀ taskId task, next.runningTasks.get? taskId = some task
          → Continued self action taskId task := by
  have kept (keeps : Within (Keeps opts) (handle environment opts action))
      : (Bounded opts self → Bounded opts ((handle environment opts action).after self))
        ∧ ∀ taskId task,
            ((handle environment opts action).after self).runningTasks.get? taskId = some task
            → Continued self action taskId task := by
    have ends := Exec.Ensures.after (Keeps opts self) (keeps self)
    exact ⟨ends.bounded, fun taskId task found => .inl (ends.retained taskId task found)⟩
  unfold step at taken
  split at taken
  · cases taken
    cases action with
    | offerInterval => exact kept keeps_sendOffers
    | taskofferaccept offerId taskId =>
        exact Exec.Ensures.after _ (offerAccepted_ensures offerId taskId self)
    | taskcancel taskId reason => exact kept (keeps_taskCancelled taskId)
    | tasksettings taskId => exact kept (keeps_receivedSettings taskId)
    | timeout task => exact kept (keeps_timerFired task)
    | settled task outcome => exact kept (keeps_executionSettled task outcome)
    | _ => exact kept (keeps_update (fun _ => rfl) (fun _ => rfl))
  · contradiction

/-- Some action of the run accepted the offer that the task comes from, and the offer was open
then.
-/
def StemsFromOpenOffer (environment : Environment) (opts : TaskRunnerOpts)
    (actions : List (Action Data)) (taskId : String) (task : Nat)
    : Prop :=
  ∃ before offerId after state,
    actions = before ++ .taskofferaccept offerId taskId :: after
    ∧ run (step environment opts) new before = some state
    ∧ (state.openOffers.get? offerId).isSome = true
    ∧ task = state.taskStates.length

theorem StemsFromOpenOffer.append {actions : List (Action Data)} {taskId : String} {task : Nat}
    (stems : StemsFromOpenOffer environment opts actions taskId task)
    (more : List (Action Data))
    : StemsFromOpenOffer environment opts (actions ++ more) taskId task := by
  obtain ⟨before, offerId, after, state, rfl, facts⟩ := stems
  exact ⟨before, offerId, after ++ more, state, by simp, facts⟩

/-- In every state that a runner can reach, open offers and running tasks are within its
concurrency, and each running task comes from an offer that was open when it was accepted.
-/
theorem run_bounded (environment : Environment) (opts : TaskRunnerOpts)
    (actions : List (Action Data)) (reached : TaskRunner Data)
    (ran : run (step environment opts) new actions = some reached)
    : reached.openOffers.keys.length + reached.runningTasks.keys.length ≤ opts.maxConcurrency
      ∧ ∀ taskId task, reached.runningTasks.get? taskId = some task
          → StemsFromOpenOffer environment opts actions taskId task := by
  induction actions using List.reverseRecOn generalizing reached with
  | nil =>
      cases ran
      exact ⟨Nat.zero_le _, fun _ _ found => by contradiction⟩
  | append_singleton earlier action ih =>
      rw [run_append] at ran
      obtain ⟨middle, ranEarlier, taken⟩ := Option.bind_eq_some_iff.mp ran
      have moved : step environment opts middle action = some reached := by
        simpa [run] using taken
      obtain ⟨bounded, stems⟩ := ih middle ranEarlier
      obtain ⟨keepsBound, continued⟩ := step_continues moved
      refine ⟨keepsBound bounded, fun taskId task found => ?_⟩
      rcases continued taskId task found with old | ⟨offerId, rfl, isOpen, isNew⟩
      · exact (stems taskId task old).append [action]
      · exact ⟨earlier, offerId, [], middle, rfl, ranEarlier, isOpen, isNew⟩

/-- A clock that stands still, and a connection that never fails. -/
def reliable : Environment where
  hrtime _ := 0
  randomInt _ := 0
  nanoid place := if place = 0 then "first" else if place = 1 then "second" else "third"
  sendError _ := none

def twoAtOnce : TaskRunnerOpts := ⟨"javascript", 2, 60⟩

theorem run_bounded_accepted
    : let actions : List (Action Nat) :=
        [.runnerregistered, .offerInterval, .taskofferaccept "second" "task",
          .taskofferaccept "second" "other"]
      ∃ reached, run (step reliable twoAtOnce) new actions = some reached
        ∧ reached.openOffers.keys = ["first"]
        ∧ reached.runningTasks.entries = [("task", 0)]
        ∧ reached.openOffers.keys.length + reached.runningTasks.keys.length ≤ 2
        ∧ ∀ taskId task, reached.runningTasks.get? taskId = some task
            → StemsFromOpenOffer reliable twoAtOnce actions taskId task := by
  intro actions
  exact ⟨_, rfl, rfl, rfl, run_bounded reliable twoAtOnce actions _ rfl⟩

end N8n.Runner.TaskRunner
