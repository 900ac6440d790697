import N8n.Library.Dict

/-! The collection of insights events into a buffer, and the flushes of the buffer to the
database (`packages/cli/src/modules/insights/insights-collection.service.ts`), as long as the
service is not shut down. A flush is cut at its database steps, each of which the database
may answer when it likes, or fail.
-/

namespace N8n.Insights

inductive ExecutionStatus where
  | canceled
  | crashed
  | error
  | new
  | running
  | success
  | unknown
  | waiting
  deriving DecidableEq, Repr

inductive WorkflowExecuteMode where
  | cli
  | error
  | integrated
  | internal
  | manual
  | retry
  | trigger
  | webhook
  | evaluation
  | chat
  deriving DecidableEq, Repr

def shouldSkipStatus : ExecutionStatus → Bool
  | .success => false
  | .crashed => false
  | .error => false
  | .canceled => true
  | .new => true
  | .running => true
  | .unknown => true
  | .waiting => true

def shouldSkipMode : WorkflowExecuteMode → Bool
  | .cli => false
  | .error => false
  | .retry => false
  | .trigger => false
  | .webhook => false
  | .evaluation => false
  | .integrated => true
  | .internal => true
  | .manual => true
  | .chat => true

inductive TypeUnit where
  | time_saved_min
  | runtime_ms
  | success
  | failure
  deriving DecidableEq, Repr

def MIN_RUNTIME : Int := 0
/-- `2 ** 31 - 1`. -/
def MAX_RUNTIME : Int := 2147483647

/-- What a run tells after it has ended. Times are in milliseconds; `timeSaved` has the minutes
of each run of each node that saves time.
-/
structure WorkflowExecuteAfterContext where
  workflowId : String
  workflowName : String
  timeSavedPerExecution : Option Int
  timeSavedMode : Option String
  status : ExecutionStatus
  mode : WorkflowExecuteMode
  startedAt : Int
  stoppedAt : Option Int
  timeSaved : List (String × List (Option Int))

/-- An event object; the reference tells it from others with the same contents. -/
structure BufferedInsight where
  reference : Nat
  workflowId : String
  workflowName : String
  type : TypeUnit
  value : Int
  timestamp : Int
  deriving DecidableEq, Repr

structure SharedWorkflow where
  workflowId : String
  projectId : String
  projectName : String
  deriving DecidableEq, Repr

/-- The database gives `metaId` when a row is stored. -/
structure InsightsMetadata where
  metaId : Option Nat
  workflowId : String
  projectId : String
  workflowName : String
  projectName : String
  deriving DecidableEq, Repr

/-- A row of the raw table, with the type, the value and the timestamp of the event it was made
from.
-/
structure InsightsRaw where
  metaId : Option Nat
  event : BufferedInsight
  deriving DecidableEq, Repr

/-- The database step that a flush waits for. -/
inductive FlushPhase where
  | findingSharedWorkflows
  | upsertingMetadata (metadataToUpsert : List InsightsMetadata)
  | findingMetadata (metadataToUpsert : List InsightsMetadata)
  | insertingRows (events : List InsightsRaw)
  deriving DecidableEq

structure Flush where
  bufferedInsightsToFlush : List BufferedInsight
  phase : FlushPhase
  deriving DecidableEq

inductive Answer where
  | failed
  | sharedWorkflows (workflows : List SharedWorkflow)
  | upserted
  | metadata (found : List InsightsMetadata)
  | inserted

structure InsightsConfig where
  flushBatchSize : Nat

/-- The service, the events that it has collected and the rows of the raw table. Sets are in
the order of insertion; a flush in progress keeps its number.
-/
structure InsightsCollectionService where
  cachedMetadata : Dict String InsightsMetadata
  bufferedInsights : List BufferedInsight
  flushInsightsRawBufferTimer : Bool
  isAsynchronouslySavingInsights : Bool
  isInitialized : Bool
  flushesInProgress : Dict Nat Flush
  flushes : Nat
  collected : List BufferedInsight
  insightsRaw : List InsightsRaw

inductive Action where
  | init
  | workflowExecuteAfter (ctx : WorkflowExecuteAfterContext) (now : Int)
  | timer
  | database (flush : Nat) (answer : Answer)

namespace InsightsCollectionService

def start : InsightsCollectionService :=
  ⟨Dict.empty, [], false, true, false, Dict.empty, 0, [], []⟩

/-- `set.add(element)`. -/
def add {α : Type} [DecidableEq α] (set : List α) (element : α) : List α :=
  if element ∈ set then set else set ++ [element]

def scheduleFlushing (self : InsightsCollectionService) : InsightsCollectionService :=
  if self.isInitialized then { self with flushInsightsRawBufferTimer := true } else self

def cancelScheduledFlushing (self : InsightsCollectionService) : InsightsCollectionService :=
  { self with flushInsightsRawBufferTimer := false }

def init (self : InsightsCollectionService) : InsightsCollectionService :=
  scheduleFlushing
    { self with isInitialized := true, isAsynchronouslySavingInsights := true }

/-- A flush up to its first database step. -/
def flushEvents (self : InsightsCollectionService) : InsightsCollectionService :=
  if !self.isInitialized then self
  else if self.bufferedInsights.isEmpty then self.scheduleFlushing
  else
    { self.cancelScheduledFlushing with
        bufferedInsights := []
        flushesInProgress :=
          self.flushesInProgress.set self.flushes
            ⟨self.bufferedInsights, .findingSharedWorkflows⟩
        flushes := self.flushes + 1 }

def workflowIdNames (insights : List BufferedInsight) : Dict String String :=
  insights.foldl (fun names event => names.set event.workflowId event.workflowName) Dict.empty

/-- The metadata of the workflows that are not cached, or are cached with another project or
name.
-/
def metadataToUpsert (cachedMetadata : Dict String InsightsMetadata)
    (names : Dict String String) (sharedWorkflows : List SharedWorkflow)
    : List InsightsMetadata :=
  sharedWorkflows.filterMap (fun workflow =>
    let workflowName := (names.get? workflow.workflowId).getD ""
    let metadata : InsightsMetadata :=
      ⟨none, workflow.workflowId, workflow.projectId, workflowName, workflow.projectName⟩
    match cachedMetadata.get? workflow.workflowId with
    | none => some metadata
    | some cached =>
        if cached.projectId ≠ workflow.projectId ∨ cached.projectName ≠ workflow.projectName
            ∨ cached.workflowName ≠ workflowName then
          some metadata
        else none)

/-- The row of an event, unless its workflow has no metadata, which throws. -/
def toRaw (cachedMetadata : Dict String InsightsMetadata) (event : BufferedInsight)
    : Option InsightsRaw :=
  (cachedMetadata.get? event.workflowId).map (fun metadata => ⟨metadata.metaId, event⟩)

/-- The flush ends, whether it has stored its events or given them back. -/
def endFlush (self : InsightsCollectionService) (flush : Nat) : InsightsCollectionService :=
  let scheduled := self.scheduleFlushing
  { scheduled with flushesInProgress := scheduled.flushesInProgress.delete flush }

/-- The flush has failed, and its events go back to the buffer. -/
def giveBack (self : InsightsCollectionService) (flush : Nat) (insights : List BufferedInsight)
    : InsightsCollectionService :=
  endFlush { self with bufferedInsights := insights.foldl add self.bufferedInsights } flush

def waitFor (self : InsightsCollectionService) (flush : Nat) (insights : List BufferedInsight)
    (phase : FlushPhase)
    : InsightsCollectionService :=
  { self with flushesInProgress := self.flushesInProgress.set flush ⟨insights, phase⟩ }

/-- The rest of `saveInsightsMetadataAndRaw` from one database step to the next. -/
def resume (self : InsightsCollectionService) (flush : Nat) (insights : List BufferedInsight)
    : FlushPhase → Answer → Option InsightsCollectionService
  | _, .failed => some (self.giveBack flush insights)
  | .findingSharedWorkflows, .sharedWorkflows workflows =>
      let metadata := metadataToUpsert self.cachedMetadata (workflowIdNames insights) workflows
      some (self.waitFor flush insights (.upsertingMetadata metadata))
  | .upsertingMetadata metadata, .upserted =>
      some (self.waitFor flush insights (.findingMetadata metadata))
  | .findingMetadata _, .metadata upsertMetadata =>
      let cachedMetadata :=
        upsertMetadata.foldl (fun cached metadata => cached.set metadata.workflowId metadata)
          self.cachedMetadata
      let cached := { self with cachedMetadata }
      match insights.mapM (toRaw cachedMetadata) with
      | none => some (cached.giveBack flush insights)
      | some events => some (cached.waitFor flush insights (.insertingRows events))
  | .insertingRows events, .inserted =>
      some ({ self with insightsRaw := self.insightsRaw ++ events }.endFlush flush)
  | _, _ => none

/-- Collects an event object of its own. -/
def collect (self : InsightsCollectionService) (ctx : WorkflowExecuteAfterContext) (now : Int)
    (type : TypeUnit) (value : Int)
    : InsightsCollectionService :=
  let event : BufferedInsight :=
    ⟨self.collected.length, ctx.workflowId, ctx.workflowName, type, value, now⟩
  { self with
      bufferedInsights := add self.bufferedInsights event
      collected := self.collected ++ [event] }

def extractTimeSavedFromNodes (ctx : WorkflowExecuteAfterContext) : Int :=
  ctx.timeSaved.foldl
    (fun total node => node.2.foldl (fun total minutes => total + minutes.getD 0) total) 0

def calculateTimeSaved (ctx : WorkflowExecuteAfterContext) : Int :=
  if ctx.timeSavedMode ≠ some "dynamic" then ctx.timeSavedPerExecution.getD 0
  else extractTimeSavedFromNodes ctx

def collectRuntime (self : InsightsCollectionService) (ctx : WorkflowExecuteAfterContext)
    (now : Int)
    : InsightsCollectionService :=
  match ctx.stoppedAt with
  | none => self
  | some stoppedAt =>
      let runtimeMs := stoppedAt - ctx.startedAt
      self.collect ctx now .runtime_ms (min (max runtimeMs MIN_RUNTIME) MAX_RUNTIME)

def collectTimeSaved (self : InsightsCollectionService) (ctx : WorkflowExecuteAfterContext)
    (now : Int)
    : InsightsCollectionService :=
  if ctx.status = .success then
    self.collect ctx now .time_saved_min (calculateTimeSaved ctx)
  else self

/-- The handler before a shutdown, when events are saved asynchronously. -/
def handleWorkflowExecuteAfter (self : InsightsCollectionService) (config : InsightsConfig)
    (ctx : WorkflowExecuteAfterContext) (now : Int)
    : InsightsCollectionService :=
  if !self.isInitialized then self
  else if shouldSkipStatus ctx.status || shouldSkipMode ctx.mode then self
  else
    let status := if ctx.status = .success then TypeUnit.success else TypeUnit.failure
    let collected :=
      ((self.collect ctx now status 1).collectRuntime ctx now).collectTimeSaved ctx now
    if config.flushBatchSize ≤ collected.bufferedInsights.length then collected.flushEvents
    else collected

/-- Something that happens to the service: a run ends, the timer fires when it is set, or the
database answers a flush.
-/
def step (config : InsightsConfig) (self : InsightsCollectionService)
    : Action → Option InsightsCollectionService
  | .init => some self.init
  | .workflowExecuteAfter ctx now => some (self.handleWorkflowExecuteAfter config ctx now)
  | .timer =>
      if self.flushInsightsRawBufferTimer then some self.cancelScheduledFlushing.flushEvents
      else none
  | .database flush answer =>
      (self.flushesInProgress.get? flush).bind (fun current =>
        self.resume flush current.bufferedInsightsToFlush current.phase answer)

end InsightsCollectionService

end N8n.Insights
