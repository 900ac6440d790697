import N8n.TaskRunners.TaskBroker

/-! A relation between a broker and a later one that the small changes carry on is carried on by
the methods for tasks.
-/

namespace N8n.TaskRunners

variable {Data : Type}

/-- Neither the acceptance of an offer nor the end of a request. -/
def Message.IsAboutTask : Message Data → Prop
  | .toRunner _ (.taskofferaccept _ _) => False
  | .toRequester _ (.taskready _ _) => False
  | .toRequester _ (.requestexpired _ _) => False
  | _ => True

/-- The method sends only what is allowed. -/
def Suspended.Sends (allowed : Message Data → Prop) : Suspended Data → Prop
  | .messageRunner runnerId message => allowed (.toRunner runnerId message)
  | _ => True

namespace TaskBroker

structure Carries (allowed : Message Data → Prop)
    (related : TaskBroker Data → TaskBroker Data → Prop) : Prop where
  refl : ∀ self, related self self
  trans : ∀ {first middle last}, related first middle → related middle last → related first last
  aboutTask : ∀ message, message.IsAboutTask → allowed message
  clearTimeout : ∀ self timeout, related self (self.clearTimeout timeout)
  suspend : ∀ self method, method.Sends allowed → related self (self.suspend method)
  deleteTask : ∀ (self : TaskBroker Data) taskId,
    related self { self with tasks := self.tasks.delete taskId }
  messageRunner : ∀ self runnerId message, allowed (.toRunner runnerId message)
    → related self (self.messageRunner runnerId message)
  messageRequester : ∀ self requesterId message, allowed (.toRequester requesterId message)
    → related self (self.messageRequester requesterId message)

namespace Carries

variable {allowed : Message Data → Prop} {related : TaskBroker Data → TaskBroker Data → Prop}
  (carries : Carries allowed related) (self : TaskBroker Data)

include carries

theorem cancelTask (taskId : TaskId) (reason : String)
    : related self (self.cancelTask taskId reason) := by
  unfold TaskBroker.cancelTask
  split
  · exact carries.refl self
  · refine carries.trans (carries.deleteTask self taskId) (carries.messageRunner _ _ _ ?_)
    exact carries.aboutTask _ trivial

theorem failTask (taskId : TaskId) (error : TaskError Data)
    : related self (self.failTask taskId error) := by
  unfold TaskBroker.failTask
  split
  · exact carries.refl self
  · refine carries.trans (carries.deleteTask self taskId) (carries.messageRequester _ _ _ ?_)
    exact carries.aboutTask _ trivial

theorem getRunnerOrFailTask (taskId : TaskId)
    : related self (self.getRunnerOrFailTask taskId).2 := by
  unfold TaskBroker.getRunnerOrFailTask
  split
  · exact carries.refl self
  · split
    · exact carries.refl self
    · exact carries.failTask self taskId _

/-- The timeout of a task is cleared, its end is told, and the task is still to be deleted. -/
theorem report {requesterId : String} {message : BrokerMessage.ToRequester Data}
    (about : (Message.toRequester requesterId message).IsAboutTask) (timeout : Option Nat)
    (taskId : TaskId)
    : related self
        (((self.clearTimeout timeout).messageRequester requesterId message).suspend
          (.deleteTask taskId)) := by
  apply carries.trans (carries.clearTimeout self timeout)
  apply carries.trans (carries.messageRequester _ _ _ (carries.aboutTask _ about))
  exact carries.suspend _ _ trivial

theorem taskDoneHandler (taskId : TaskId) (data : Data)
    : related self (self.taskDoneHandler taskId data) := by
  unfold TaskBroker.taskDoneHandler
  split
  · exact carries.refl self
  · refine carries.report self ?_ _ _
    trivial

theorem taskErrorHandler (taskId : TaskId) (error : TaskError Data)
    : related self (self.taskErrorHandler taskId error) := by
  unfold TaskBroker.taskErrorHandler
  split
  · exact carries.refl self
  · refine carries.report self ?_ _ _
    trivial

theorem handleTaskTimeout (taskId : TaskId) : related self (self.handleTaskTimeout taskId) := by
  unfold TaskBroker.handleTaskTimeout
  split
  · exact carries.refl self
  · split
    · exact carries.taskErrorHandler self taskId _
    · refine carries.trans (carries.messageRunner self _ _ (carries.aboutTask _ ?_))
        (carries.suspend _ _ trivial)
      trivial

theorem runSuspended {method : Suspended Data} (sends : method.Sends allowed)
    : related self (self.runSuspended method) := by
  cases method with
  | deleteTask taskId => exact carries.deleteTask self taskId
  | taskErrorHandler taskId error => exact carries.taskErrorHandler self taskId error
  | messageRunner runnerId message => exact carries.messageRunner self runnerId message sends

theorem handleRequest (kind : DataKind) (taskId : TaskId) (requestId : String) (params : Data)
    : related self (self.handleRequest kind taskId requestId params) := by
  unfold TaskBroker.handleRequest
  split
  · exact carries.refl self
  · exact carries.messageRequester _ _ _ (carries.aboutTask _ trivial)

theorem handleRequesterResponse (kind : DataKind) (taskId : TaskId) (requestId : String)
    (data : Data)
    : related self (self.handleRequesterResponse kind taskId requestId data) := by
  have found := carries.getRunnerOrFailTask self taskId
  unfold TaskBroker.handleRequesterResponse
  split
  · next result same => rwa [same] at found
  · next runnerId result same =>
      rw [same] at found
      exact carries.trans found (carries.suspend _ _ (carries.aboutTask _ trivial))

theorem foldl {Item : Type} {turn : TaskBroker Data → Item → TaskBroker Data}
    (each : ∀ self item, related self (turn self item)) (items : List Item)
    : related self (items.foldl turn self) := by
  induction items generalizing self with
  | nil => exact carries.refl self
  | cons item rest ih => exact carries.trans (each self item) (ih (turn self item))

end Carries

end TaskBroker

end N8n.TaskRunners
