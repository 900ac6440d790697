import Mathlib.Data.List.Perm.Basic
import N8n.Insights.CollectionService
import N8n.Library.Runs

/-! Every event that was collected is in one place: the buffer, a flush in progress, or the
rows of the raw table.
-/

namespace N8n.Insights.InsightsCollectionService

open N8n.Runs

variable {self : InsightsCollectionService} {config : InsightsConfig} {flush : Nat}
  {insights : List BufferedInsight} {phase next : FlushPhase}

/-- The events that flushes in progress have taken from the buffer. -/
def inFlushes (self : InsightsCollectionService) : List BufferedInsight :=
  self.flushesInProgress.values.flatMap Flush.bufferedInsightsToFlush

def stored (self : InsightsCollectionService) : List BufferedInsight :=
  self.insightsRaw.map InsightsRaw.event

/-- The collected events are distinct objects, and each is in one place. A flush that is about
to insert rows has one for each of its events.
-/
structure Counted (service : InsightsCollectionService) : Prop where
  numbered : service.collected.map BufferedInsight.reference = List.range service.collected.length
  places : (service.bufferedInsights ++ service.inFlushes ++ service.stored).Perm service.collected
  numbers : ∀ flush ∈ service.flushesInProgress.keys, flush < service.flushes
  rows
    : ∀ flush insights events,
        service.flushesInProgress.get? flush = some ⟨insights, .insertingRows events⟩
        → events.map InsightsRaw.event = insights

section

variable (counted : self.Counted)

include counted

theorem Counted.nodup
    : (self.bufferedInsights ++ self.inFlushes ++ self.stored).Nodup := by
  rw [counted.places.nodup_iff]
  apply List.Nodup.of_map BufferedInsight.reference
  rw [counted.numbered]
  exact List.nodup_range

/-- Only the timer has changed. -/
theorem Counted.of_timer (flushInsightsRawBufferTimer : Bool)
    : Counted { self with flushInsightsRawBufferTimer } :=
  ⟨counted.numbered, counted.places, counted.numbers, counted.rows⟩

theorem Counted.scheduleFlushing : self.scheduleFlushing.Counted := by
  unfold InsightsCollectionService.scheduleFlushing
  split
  · exact counted.of_timer true
  · exact counted

theorem Counted.init : self.init.Counted := by
  apply Counted.scheduleFlushing
  exact ⟨counted.numbered, counted.places, counted.numbers, counted.rows⟩

theorem Counted.flushEvents : self.flushEvents.Counted := by
  unfold InsightsCollectionService.flushEvents
  split
  · exact counted
  · split
    · exact counted.scheduleFlushing
    · have isNew : self.flushesInProgress.get? self.flushes = none := by
        rw [Dict.get?_eq_none_iff]
        exact fun member => Nat.lt_irrefl _ (counted.numbers _ member)
      refine ⟨counted.numbered, ?_, ?_, ?_⟩
      · have moved
            : inFlushes
                { self.cancelScheduledFlushing with
                    bufferedInsights := []
                    flushesInProgress :=
                      self.flushesInProgress.set self.flushes
                        ⟨self.bufferedInsights, .findingSharedWorkflows⟩
                    flushes := self.flushes + 1 }
              = self.inFlushes ++ self.bufferedInsights := by
          simp only [inFlushes, Dict.values, Dict.set_entries_of_not_mem _ isNew, List.map_append,
            List.map_cons, List.map_nil, List.flatMap_append, List.flatMap_singleton]
        rw [moved, List.nil_append]
        exact (List.perm_append_comm.append_right _).trans counted.places
      · intro flush member
        rcases Dict.mem_keys_set.mp member with rfl | old
        · exact Nat.lt_succ_self _
        · exact Nat.lt_succ_of_lt (counted.numbers flush old)
      · intro flush insights events found
        simp only [Dict.get?_set] at found
        split at found
        · simp at found
        · exact counted.rows flush insights events found

variable (current : self.flushesInProgress.get? flush = some ⟨insights, phase⟩)

include current

/-- A flush that waits for its next database step has the batch that it had. -/
theorem Counted.waitFor
    (rows : ∀ events, next = .insertingRows events → events.map InsightsRaw.event = insights)
    : (self.waitFor flush insights next).Counted := by
  obtain ⟨before, after, split, replaced, -⟩ := Dict.split_of_get? current
  have sameBatches : (self.waitFor flush insights next).inFlushes = self.inFlushes := by
    simp [inFlushes, InsightsCollectionService.waitFor, Dict.values, split, replaced]
  refine ⟨counted.numbered, ?_, ?_, ?_⟩
  · rw [sameBatches]
    exact counted.places
  · intro other member
    rcases Dict.mem_keys_set.mp member with rfl | old
    · exact counted.numbers other (Dict.mem_keys_of_get? current)
    · exact counted.numbers other old
  · intro other batch events found
    simp only [InsightsCollectionService.waitFor, Dict.get?_set] at found
    split at found
    · obtain ⟨rfl, isNext⟩ := Flush.mk.inj (Option.some.inj found)
      exact rows events isNext
    · exact counted.rows other batch events found

theorem Counted.endFlush {changed : InsightsCollectionService}
    (sameCollected : changed.collected = self.collected)
    (sameFlushes : changed.flushesInProgress = self.flushesInProgress)
    (sameNumber : changed.flushes = self.flushes)
    (moved
      : (changed.bufferedInsights ++ changed.stored).Perm
          (self.bufferedInsights ++ insights ++ self.stored))
    : (changed.endFlush flush).Counted := by
  obtain ⟨before, after, split, -, deleted⟩ := Dict.split_of_get? current
  have scheduled
      : changed.endFlush flush
        = { changed with
              flushInsightsRawBufferTimer := changed.scheduleFlushing.flushInsightsRawBufferTimer
              flushesInProgress := self.flushesInProgress.delete flush } := by
    unfold InsightsCollectionService.endFlush InsightsCollectionService.scheduleFlushing
    split <;> simp [sameFlushes]
  have others
      : self.inFlushes.Perm
          (insights
            ++ (self.flushesInProgress.delete flush).values.flatMap
              Flush.bufferedInsightsToFlush) := by
    simp only [inFlushes, Dict.values, split, deleted, List.map_append, List.map_cons,
      List.flatMap_append, List.flatMap_cons]
    exact List.perm_append_comm_assoc _ _ _
  rw [scheduled]
  refine ⟨?_, ?_, ?_, ?_⟩
  · simp only [sameCollected]
    exact counted.numbered
  · change List.Perm
      (changed.bufferedInsights
        ++ (self.flushesInProgress.delete flush).values.flatMap Flush.bufferedInsightsToFlush
        ++ changed.stored)
      changed.collected
    rw [sameCollected]
    refine .trans (List.perm_iff_count.mpr (fun event => ?_)) counted.places
    have here := moved.count_eq event
    have elsewhere := others.count_eq event
    simp only [List.count_append] at here elsewhere ⊢
    omega
  · intro other member
    simp only [sameNumber]
    exact counted.numbers other (Dict.mem_keys_delete.mp member).2
  · intro other batch events found
    exact counted.rows other batch events (Dict.get?_of_delete found)

end

theorem foldl_add {insights : List BufferedInsight} (buffer : List BufferedInsight)
    (distinct : (buffer ++ insights).Nodup)
    : insights.foldl add buffer = buffer ++ insights := by
  induction insights generalizing buffer with
  | nil => simp
  | cons event rest ih =>
      have isNew : event ∉ buffer := by
        intro member
        exact (List.nodup_append.mp distinct).2.2 event member event (.head _) rfl
      have added : add buffer event = buffer ++ [event] := if_neg isNew
      rw [List.foldl_cons, added, ih]
      · simp
      · simpa using distinct

theorem Counted.giveBack (counted : self.Counted)
    (current : self.flushesInProgress.get? flush = some ⟨insights, phase⟩)
    : (self.giveBack flush insights).Counted := by
  have distinct : (self.bufferedInsights ++ insights).Nodup := by
    obtain ⟨before, after, split, -, -⟩ := Dict.split_of_get? current
    have isPart : (self.bufferedInsights ++ insights).Sublist
        (self.bufferedInsights ++ self.inFlushes ++ self.stored) := by
      refine List.Sublist.trans ?_ (List.sublist_append_left _ _)
      refine (List.Sublist.refl _).append ?_
      simp only [inFlushes, Dict.values, split, List.map_append, List.map_cons,
        List.flatMap_append, List.flatMap_cons]
      exact (List.sublist_append_left insights _).trans (List.sublist_append_right _ _)
    exact isPart.nodup counted.nodup
  refine counted.endFlush current rfl rfl rfl ?_
  rw [foldl_add _ distinct]
  exact .refl _

theorem mapM_toRaw {cachedMetadata : Dict String InsightsMetadata} {events : List InsightsRaw}
    (rows : insights.mapM (toRaw cachedMetadata) = some events)
    : events.map InsightsRaw.event = insights := by
  induction insights generalizing events with
  | nil =>
      cases rows
      rfl
  | cons event rest ih =>
      simp only [List.mapM_cons, Option.bind_eq_bind, Option.bind_eq_some_iff] at rows
      obtain ⟨first, isFirst, others, later, same⟩ := rows
      obtain ⟨metadata, -, rfl⟩ := Option.map_eq_some_iff.mp isFirst
      rw [← Option.some.inj same, List.map_cons, ih later]

theorem Counted.resume (counted : self.Counted)
    (current : self.flushesInProgress.get? flush = some ⟨insights, phase⟩) {answer : Answer}
    {after : InsightsCollectionService}
    (resumed : self.resume flush insights phase answer = some after)
    : after.Counted := by
  unfold InsightsCollectionService.resume at resumed
  split at resumed
  · rw [← Option.some.inj resumed]
    exact counted.giveBack current
  · rw [← Option.some.inj resumed]
    exact counted.waitFor current (fun _ other => by contradiction)
  · rw [← Option.some.inj resumed]
    exact counted.waitFor current (fun _ other => by contradiction)
  · next upsertMetadata =>
      -- The cache of the metadata has changed; the flush goes on or fails.
      simp only at resumed
      split at resumed
      · rw [← Option.some.inj resumed]
        exact Counted.giveBack
          ⟨counted.numbered, counted.places, counted.numbers, counted.rows⟩ current
      · next events rows =>
          rw [← Option.some.inj resumed]
          refine Counted.waitFor
            ⟨counted.numbered, counted.places, counted.numbers, counted.rows⟩ current ?_
          intro inserted same
          rw [← FlushPhase.insertingRows.inj same]
          exact mapM_toRaw rows
  · next events =>
      rw [← Option.some.inj resumed]
      refine counted.endFlush current rfl rfl rfl ?_
      have rows := counted.rows flush insights events current
      simp only [stored, List.map_append, rows]
      rw [List.append_assoc]
      exact List.perm_append_comm.append_left _
  · contradiction

section

variable (counted : self.Counted) (ctx : WorkflowExecuteAfterContext) (now : Int)

include counted ctx now

theorem Counted.collect (type : TypeUnit) (value : Int)
    : (self.collect ctx now type value).Counted := by
  have isNew (other : BufferedInsight) (member : other ∈ self.collected)
      : other.reference < self.collected.length := by
    rw [← List.mem_range, ← counted.numbered]
    exact List.mem_map_of_mem member
  have added (event : BufferedInsight) (number : event.reference = self.collected.length)
      : add self.bufferedInsights event = self.bufferedInsights ++ [event] := by
    refine if_neg (fun member => ?_)
    have := isNew event (counted.places.subset (by simp [member]))
    omega
  unfold InsightsCollectionService.collect
  refine ⟨?_, ?_, counted.numbers, counted.rows⟩
  · simp [counted.numbered, List.range_succ]
  · simp only
    rw [added _ rfl]
    refine .trans (List.perm_iff_count.mpr (fun other => ?_))
      (counted.places.append_right _)
    simp only [List.count_append]
    change _ + _ + self.inFlushes.count other + self.stored.count other = _
    omega

theorem Counted.collectRuntime
    : (self.collectRuntime ctx now).Counted := by
  unfold InsightsCollectionService.collectRuntime
  split
  · exact counted
  · exact counted.collect ctx now _ _

theorem Counted.collectTimeSaved
    : (self.collectTimeSaved ctx now).Counted := by
  unfold InsightsCollectionService.collectTimeSaved
  split
  · exact counted.collect ctx now _ _
  · exact counted

theorem Counted.handleWorkflowExecuteAfter
    : (self.handleWorkflowExecuteAfter config ctx now).Counted := by
  unfold InsightsCollectionService.handleWorkflowExecuteAfter
  split
  · exact counted
  · split
    · exact counted
    · have counts (status : TypeUnit) :=
        ((counted.collect ctx now status 1).collectRuntime ctx now).collectTimeSaved ctx now
      split
      all_goals
        simp only
        split
        · exact (counts _).flushEvents
        · exact counts _

end

theorem Counted.step (counted : self.Counted) {action : Action}
    {after : InsightsCollectionService} (taken : step config self action = some after)
    : after.Counted := by
  cases action with
  | init =>
      rw [← Option.some.inj taken]
      exact counted.init
  | workflowExecuteAfter ctx now =>
      rw [← Option.some.inj taken]
      exact counted.handleWorkflowExecuteAfter ctx now
  | timer =>
      simp only [InsightsCollectionService.step] at taken
      split at taken
      · rw [← Option.some.inj taken]
        exact (counted.of_timer false).flushEvents
      · contradiction
  | database flush answer =>
      obtain ⟨current, found, resumed⟩ := Option.bind_eq_some_iff.mp taken
      exact counted.resume found resumed

theorem start_counted : start.Counted where
  numbered := rfl
  places := List.Perm.refl _
  numbers _ member := by contradiction
  rows _ _ _ found := by contradiction

theorem run_counted {actions : List Action} {reached : InsightsCollectionService}
    (counted : self.Counted) (ran : run (step config) self actions = some reached)
    : reached.Counted := by
  induction actions generalizing self with
  | nil => exact Option.some.inj ran ▸ counted
  | cons action rest ih =>
      obtain ⟨next, taken, later⟩ := Option.bind_eq_some_iff.mp ran
      exact ih (counted.step taken) later

/-- In every state that the service can reach before its shutdown, each event that it has
collected is in exactly one place: once in the buffer, once in the batch of one flush in
progress, or once among the inserted rows.
-/
theorem run_countsOnce (config : InsightsConfig) (actions : List Action)
    (reached : InsightsCollectionService) (ran : run (step config) start actions = some reached)
    : ∀ event ∈ reached.collected,
        reached.bufferedInsights.count event
          + (reached.flushesInProgress.values.flatMap
            Flush.bufferedInsightsToFlush).count event
          + (reached.insightsRaw.map InsightsRaw.event).count event
        = 1 := by
  intro event member
  have counted := run_counted start_counted ran
  have once := List.count_eq_one_of_mem counted.nodup (counted.places.symm.subset member)
  simpa [List.count_append, inFlushes, stored, Nat.add_assoc] using once

def bufferOfTwo : InsightsConfig := ⟨2⟩

def succeeded : WorkflowExecuteAfterContext :=
  ⟨"w", "Workflow", none, none, .success, .trigger, 0, some 7, []⟩

/-- Two runs are collected, each with a flush of its own: the first one fails, the second one gets
as far as the rows.
-/
def twoFlushes : List Action :=
  [.init, .workflowExecuteAfter succeeded 1, .workflowExecuteAfter succeeded 2,
    .database 0 .failed, .timer, .database 1 (.sharedWorkflows [⟨"w", "p", "Project"⟩]),
    .database 1 .upserted,
    .database 1 (.metadata [⟨some 5, "w", "p", "Workflow", "Project"⟩]),
    .database 1 .inserted]

theorem run_countsOnce_two
    : ∃ reached, run (step bufferOfTwo) start twoFlushes = some reached
        ∧ reached.collected.length = 6
        ∧ reached.insightsRaw.map (fun row => row.event.reference) = [3, 4, 5]
        ∧ ∀ event ∈ reached.collected,
            reached.bufferedInsights.count event
              + (reached.flushesInProgress.values.flatMap
                Flush.bufferedInsightsToFlush).count event
              + (reached.insightsRaw.map InsightsRaw.event).count event
            = 1 := by
  exact ⟨_, rfl, rfl, by decide, run_countsOnce bufferOfTwo twoFlushes _ rfl⟩

end N8n.Insights.InsightsCollectionService
