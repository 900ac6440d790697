import N8n.Insights.CountedOnce

/-! A flush whose database steps all succeed, and the events that keep its batch from the raw
table.
-/

namespace N8n.Insights

/-- The tables of the database: the shared workflows with the role of the owner, and what is
found after an upsert of metadata, rows of the upserted workflows and of no other.
-/
structure Database where
  owners : List SharedWorkflow
  upserted : List InsightsMetadata → List InsightsMetadata
  upserted_workflowIds
    : ∀ metadata workflowId,
        workflowId ∈ (upserted metadata).map InsightsMetadata.workflowId
        ↔ workflowId ∈ metadata.map InsightsMetadata.workflowId

namespace Database

/-- The shared workflows that a flush of the batch looks for and finds. -/
def found (database : Database) (insights : List BufferedInsight) : List SharedWorkflow :=
  database.owners.filter (fun workflow =>
    workflow.workflowId ∈ (InsightsCollectionService.workflowIdNames insights).keys)

/-- The answer of a step that succeeds. -/
def answer (database : Database) (insights : List BufferedInsight) : FlushPhase → Answer
  | .findingSharedWorkflows => .sharedWorkflows (database.found insights)
  | .upsertingMetadata _ => .upserted
  | .findingMetadata metadata => .metadata (database.upserted metadata)
  | .insertingRows _ => .inserted

/-- The workflow of the event has an owner project. -/
def Owned (database : Database) (event : BufferedInsight) : Prop :=
  event.workflowId ∈ database.owners.map SharedWorkflow.workflowId

end Database

namespace InsightsCollectionService

open N8n.Runs

variable {self : InsightsCollectionService} {database : Database} {flush : Nat}
  {insights : List BufferedInsight} {phase : FlushPhase}

/-- The database answers the step that a flush waits for, if it is still in progress. -/
def answered (database : Database) (flush : Nat) (self : InsightsCollectionService)
    : InsightsCollectionService :=
  match self.flushesInProgress.get? flush with
  | none => self
  | some current =>
      let answer := database.answer current.bufferedInsightsToFlush current.phase
      (self.resume flush current.bufferedInsightsToFlush current.phase answer).getD self

/-- `flushEvents` with its four database steps. -/
def flushThrough (database : Database) (self : InsightsCollectionService)
    : InsightsCollectionService :=
  (answered database self.flushes)^[4] self.flushEvents

/-- The event's workflow is owned, or has been looked up before. -/
def Known (self : InsightsCollectionService) (database : Database) (event : BufferedInsight)
    : Prop :=
  database.Owned event ∨ event.workflowId ∈ self.cachedMetadata.keys

theorem answered_of_get? (current : self.flushesInProgress.get? flush = some ⟨insights, phase⟩)
    : answered database flush self
      = (self.resume flush insights phase (database.answer insights phase)).getD self := by
  simp only [answered, current]

theorem answered_waitFor
    : answered database flush (self.waitFor flush insights phase)
      = ((self.waitFor flush insights phase).resume flush insights phase
          (database.answer insights phase)).getD (self.waitFor flush insights phase) :=
  answered_of_get? (Dict.get?_set_self ..)

theorem waitFor_waitFor {next : FlushPhase}
    : (self.waitFor flush insights phase).waitFor flush insights next
      = self.waitFor flush insights next := by
  simp only [waitFor, Dict.set_set]

@[simp] theorem bufferedInsights_endFlush
    : (self.endFlush flush).bufferedInsights = self.bufferedInsights := by
  unfold endFlush scheduleFlushing
  split <;> rfl

@[simp] theorem insightsRaw_endFlush : (self.endFlush flush).insightsRaw = self.insightsRaw := by
  unfold endFlush scheduleFlushing
  split <;> rfl

/-- A flush that has ended waits for nothing. -/
@[simp] theorem answered_endFlush
    : answered database flush (self.endFlush flush) = self.endFlush flush := by
  have ended : (self.endFlush flush).flushesInProgress.get? flush = none := by
    simp [endFlush, Dict.get?_delete]
  simp only [answered, ended]

theorem mem_foldl_add {event : BufferedInsight} {buffer : List BufferedInsight}
    (member : event ∈ buffer ∨ event ∈ insights)
    : event ∈ insights.foldl add buffer := by
  induction insights generalizing buffer with
  | nil => simpa using member
  | cons first rest ih =>
      refine ih ?_
      rw [List.mem_cons, ← or_assoc] at member
      refine member.imp_left (fun here => ?_)
      unfold add
      split
      · rcases here with before | rfl
        · exact before
        · assumption
      · simpa using here

theorem mem_keys_foldl_set {Item α : Type} (key : Item → String) (value : Item → α)
    (items : List Item) (d : Dict String α) (workflowId : String)
    : workflowId ∈ (items.foldl (fun entries item => entries.set (key item) (value item)) d).keys
      ↔ workflowId ∈ d.keys ∨ workflowId ∈ items.map key := by
  induction items generalizing d with
  | nil => simp
  | cons item rest ih =>
      rw [List.foldl_cons, ih, Dict.mem_keys_set, List.map_cons, List.mem_cons]
      tauto

/-- The metadata to upsert and the cached metadata are together those of the owned workflows
and of the cached ones.
-/
theorem mem_metadataToUpsert_iff {cachedMetadata : Dict String InsightsMetadata}
    {names : Dict String String} {workflows : List SharedWorkflow} {workflowId : String}
    : workflowId ∈ cachedMetadata.keys
          ∨ workflowId
            ∈ (metadataToUpsert cachedMetadata names workflows).map InsightsMetadata.workflowId
      ↔ workflowId ∈ cachedMetadata.keys
          ∨ workflowId ∈ workflows.map SharedWorkflow.workflowId := by
  by_cases cached : workflowId ∈ cachedMetadata.keys
  · simp [cached]
  · simp only [cached, false_or, metadataToUpsert, List.mem_map, List.mem_filterMap]
    constructor
    · rintro ⟨metadata, ⟨workflow, member, made⟩, rfl⟩
      refine ⟨workflow, member, ?_⟩
      split at made
      · rw [← Option.some.inj made]
      · split at made
        · rw [← Option.some.inj made]
        · contradiction
    · rintro ⟨workflow, member, rfl⟩
      let metadata : InsightsMetadata :=
        ⟨none, workflow.workflowId, workflow.projectId,
          (names.get? workflow.workflowId).getD "", workflow.projectName⟩
      refine ⟨metadata, ⟨workflow, member, ?_⟩, rfl⟩
      simp only [Dict.get?_eq_none_iff.mpr cached, metadata]

theorem mapM_toRaw_isSome_iff (insights : List BufferedInsight)
    (cachedMetadata : Dict String InsightsMetadata)
    : (insights.mapM (toRaw cachedMetadata)).isSome
      ↔ ∀ event ∈ insights, event.workflowId ∈ cachedMetadata.keys := by
  induction insights with
  | nil => simp
  | cons event rest ih =>
      rw [List.forall_mem_cons, ← ih, List.mapM_cons]
      cases found : cachedMetadata.get? event.workflowId with
      | none => simp [toRaw, found, Dict.get?_eq_none_iff.mp found]
      | some metadata =>
          simp [toRaw, found, Dict.mem_keys_of_get? found, Option.isSome_iff_exists,
            Option.bind_eq_some_iff]

/-- The cache of a flush of the batch before it makes its rows. -/
def refreshed (self : InsightsCollectionService) (database : Database)
    (insights : List BufferedInsight)
    : Dict String InsightsMetadata :=
  (database.upserted
      (metadataToUpsert self.cachedMetadata (workflowIdNames insights)
        (database.found insights))).foldl
    (fun cached metadata => cached.set metadata.workflowId metadata) self.cachedMetadata

theorem mem_keys_refreshed_iff {event : BufferedInsight} (member : event ∈ insights)
    : event.workflowId ∈ (self.refreshed database insights).keys
      ↔ self.Known database event := by
  have named : event.workflowId ∈ (workflowIdNames insights).keys :=
    (mem_keys_foldl_set _ BufferedInsight.workflowName _ _ _).mpr
      (.inr (List.mem_map_of_mem member))
  refine (mem_keys_foldl_set InsightsMetadata.workflowId id _ _ _).trans ?_
  rw [database.upserted_workflowIds, mem_metadataToUpsert_iff, or_comm]
  refine or_congr_left ?_
  simp only [Database.Owned, Database.found, List.mem_map, List.mem_filter, decide_eq_true_eq]
  constructor
  · rintro ⟨workflow, ⟨owner, -⟩, same⟩
    exact ⟨workflow, owner, same⟩
  · rintro ⟨workflow, owner, same⟩
    exact ⟨workflow, ⟨owner, same ▸ named⟩, same⟩

/-- The first three answers, up to the rows of the events. -/
theorem answered_thrice (self : InsightsCollectionService) (database : Database) (flush : Nat)
    (insights : List BufferedInsight)
    : ∃ metadata,
        (answered database flush)^[3] (self.waitFor flush insights .findingSharedWorkflows)
        = match insights.mapM (toRaw (self.refreshed database insights)) with
          | none =>
              ({ self with cachedMetadata := self.refreshed database insights }.waitFor flush
                insights (.findingMetadata metadata)).giveBack flush insights
          | some events =>
              { self with cachedMetadata := self.refreshed database insights }.waitFor flush
                insights (.insertingRows events) := by
  refine ⟨metadataToUpsert self.cachedMetadata (workflowIdNames insights)
    (database.found insights), ?_⟩
  simp only [Function.iterate_succ, Function.iterate_zero, Function.comp_apply, id]
  rw [answered_waitFor]
  simp only [resume, Database.answer, Option.getD_some, waitFor_waitFor]
  rw [answered_waitFor]
  simp only [resume, Database.answer, Option.getD_some, waitFor_waitFor]
  rw [answered_waitFor]
  simp only [resume, Database.answer]
  change Option.getD (match insights.mapM (toRaw (self.refreshed database insights)) with
    | none => _ | some events => _) _ = _
  cases insights.mapM (toRaw (self.refreshed database insights)) with
  | none => rfl
  | some events =>
      simp only [Option.getD_some, waitFor, Dict.set_set]
      rfl

/-- A flush of a batch inserts all of its events, or gives all of them back when one of them is
not known.
-/
theorem flushThrough_cases (database : Database) (initialized : self.isInitialized = true)
    (nonempty : self.bufferedInsights ≠ [])
    : (∀ event ∈ self.bufferedInsights, self.Known database event)
          ∧ (self.flushThrough database).bufferedInsights = []
          ∧ (self.flushThrough database).stored = self.stored ++ self.bufferedInsights
      ∨ (∃ event ∈ self.bufferedInsights, ¬ self.Known database event)
          ∧ ∀ event ∈ self.bufferedInsights,
              event ∈ (self.flushThrough database).bufferedInsights := by
  let taken : InsightsCollectionService :=
    { self.cancelScheduledFlushing with bufferedInsights := [], flushes := self.flushes + 1 }
  have begun : self.flushEvents
      = taken.waitFor self.flushes self.bufferedInsights .findingSharedWorkflows := by
    simp [flushEvents, initialized, nonempty, taken, waitFor, cancelScheduledFlushing]
  obtain ⟨metadata, thrice⟩ := answered_thrice taken database self.flushes self.bufferedInsights
  rw [flushThrough, Function.iterate_succ_apply', begun, thrice]
  have known := mapM_toRaw_isSome_iff self.bufferedInsights
    (taken.refreshed database self.bufferedInsights)
  cases made : self.bufferedInsights.mapM (toRaw (taken.refreshed database self.bufferedInsights))
      with
  | none =>
      simp only [made, Option.isSome_none, Bool.false_eq_true, false_iff, not_forall] at known
      obtain ⟨event, member, absent⟩ := known
      refine .inr ⟨⟨event, member, fun isKnown => ?_⟩, fun event member => ?_⟩
      · exact absent ((mem_keys_refreshed_iff member).mpr isKnown)
      · simp only [giveBack, answered_endFlush, bufferedInsights_endFlush]
        exact mem_foldl_add (.inr member)
  | some events =>
      simp only [made, Option.isSome_some, true_iff] at known
      refine .inl ⟨fun event member => ?_, ?_, ?_⟩
      · exact (mem_keys_refreshed_iff member).mp (known event member)
      · rw [answered_waitFor]
        simp [resume, Database.answer, waitFor, taken]
      · rw [answered_waitFor]
        simp [resume, Database.answer, waitFor, taken, stored, mapM_toRaw made,
          cancelScheduledFlushing]

/-- When all database steps of a flush succeed, each event of a workflow with an owner project
is inserted and out of the buffer exactly when every event of the batch is known to the
service, or none has an owner.
-/
theorem flushThrough_insertsOwned_iff (counted : self.Counted)
    : (∀ event ∈ self.bufferedInsights,
          database.Owned event
          → event ∈ (self.flushThrough database).insightsRaw.map InsightsRaw.event
            ∧ event ∉ (self.flushThrough database).bufferedInsights)
      ↔ self.isInitialized = true
            ∧ (∀ event ∈ self.bufferedInsights, self.Known database event)
          ∨ ∀ event ∈ self.bufferedInsights, ¬ database.Owned event := by
  cases initialized : self.isInitialized with
  | false =>
      have unstarted : self.flushThrough database = self := by
        have noFlush : self.flushesInProgress.get? self.flushes = none := by
          rw [Dict.get?_eq_none_iff]
          exact fun member => Nat.lt_irrefl _ (counted.numbers _ member)
        have stays : answered database self.flushes self = self := by
          simp only [answered, noFlush]
        have begun : self.flushEvents = self := by simp [flushEvents, initialized]
        rw [flushThrough, begun]
        exact Function.iterate_fixed stays 4
      simp only [unstarted, Bool.false_eq_true, false_and, false_or]
      constructor
      · intro inserts event member owned
        exact (inserts event member owned).2 member
      · intro none event member owned
        exact absurd owned (none event member)
  | true =>
      by_cases nonempty : self.bufferedInsights = []
      · simp [nonempty]
      rcases flushThrough_cases database initialized nonempty
        with ⟨known, empty, rows⟩ | ⟨⟨unknown, inBatch, notKnown⟩, back⟩
      · refine iff_of_true (fun event member _ => ⟨?_, ?_⟩) (.inl ⟨rfl, known⟩)
        · change event ∈ (self.flushThrough database).stored
          rw [rows]
          exact List.mem_append_right _ member
        · rw [empty]
          exact List.not_mem_nil
      · constructor
        · intro inserts
          exact .inr (fun event member owned =>
            (inserts event member owned).2 (back event member))
        · rintro (⟨-, known⟩ | none) event member owned
          · exact absurd (known unknown inBatch) notKnown
          · exact absurd owned (none event member)

/-- The tables with one owned workflow, whose metadata gets the identifier 5. -/
def oneOwner : Database where
  owners := [⟨"w", "p", "Project"⟩]
  upserted metadata := metadata.map (fun row => { row with metaId := some 5 })
  upserted_workflowIds metadata workflowId := by simp [Function.comp_def]

/-- The service after runs of the workflows. -/
def collectedRuns (workflowIds : List String) : Option InsightsCollectionService :=
  run (step ⟨9⟩) start
    (.init :: workflowIds.map (fun workflowId =>
      .workflowExecuteAfter ⟨workflowId, "Workflow", none, none, .error, .trigger, 0, none, []⟩ 1))

theorem flushThrough_insertsOwned_iff_one
    : ∃ service, collectedRuns ["w"] = some service
        ∧ ((∀ event ∈ service.bufferedInsights,
              oneOwner.Owned event
              → event ∈ (service.flushThrough oneOwner).insightsRaw.map InsightsRaw.event
                ∧ event ∉ (service.flushThrough oneOwner).bufferedInsights)
          ↔ service.isInitialized = true
                ∧ (∀ event ∈ service.bufferedInsights, service.Known oneOwner event)
              ∨ ∀ event ∈ service.bufferedInsights, ¬ oneOwner.Owned event) :=
  ⟨_, rfl, flushThrough_insertsOwned_iff
    (run_counted start_counted (show collectedRuns ["w"] = some _ from rfl))⟩

/-- A run of a workflow that has been deleted keeps the event of another one in the buffer. -/
theorem not_insertsOwned_deleted
    : ∃ service event, collectedRuns ["w", "deleted"] = some service
        ∧ event ∈ service.bufferedInsights
        ∧ oneOwner.Owned event
        ∧ event ∈ (service.flushThrough oneOwner).bufferedInsights
        ∧ (service.flushThrough oneOwner).insightsRaw = [] :=
  ⟨_, ⟨0, "w", "Workflow", .failure, 1, 1⟩, rfl, by decide,
    by simp [Database.Owned, oneOwner], by decide, by decide⟩

end InsightsCollectionService

end N8n.Insights
