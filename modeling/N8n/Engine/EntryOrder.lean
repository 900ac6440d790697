import N8n.Engine.WaitingBatches
import N8n.Engine.WaitingNodes
import N8n.Library.Text
import Mathlib.Data.String.Basic

/-! The order in which the entries of a waiting node leave the waiting area. A search takes
the entry whose run index comes first as a string, and a new entry has the number of entries
as its run index, so the order is that of their opening only while these numbers grow as
strings.
-/

namespace N8n.Engine

open N8n.Runs

variable {Item : Type}

/-- The run index of the entry that a delivery opens for the node, if it opens one. -/
def opensEntry (workflow : Workflow) (nodeName : String) (self : ExecutionData Item)
    (delivery : Delivery Item)
    : Option Nat :=
  if delivery.connectionData.node = nodeName ∧ 1 < (workflow.mainInputs nodeName).length then
    match findWaitingIndex delivery.connectionData.index (self.table nodeName)
      (self.table nodeName).sortedKeys with
    | .ok none => some (self.table nodeName).values.length
    | _ => none
  else none

/-- No node has an entry that it did not have, except for the one with the run index. -/
def GrowsBy (nodeName : String) (runIndex : Nat) (before after : ExecutionData Item) : Prop :=
  ∀ other, ∀ index ∈ (after.table other).keys,
    index ∈ (before.table other).keys ∨ other = nodeName ∧ index = runIndex

variable {before after : ExecutionData Item} {workflow : Workflow}

section GrowsBy

variable {nodeName : String} {runIndex : Nat}

theorem NoNewEntries.growsBy (fewer : NoNewEntries before after)
    : GrowsBy nodeName runIndex before after :=
  fun other index member => .inl (fewer other index member)

theorem GrowsBy.refl (self : ExecutionData Item) : GrowsBy nodeName runIndex self self :=
  (NoNewEntries.refl self).growsBy

theorem GrowsBy.trans (first middle last : ExecutionData Item)
    (early : GrowsBy nodeName runIndex first middle)
    (late : GrowsBy nodeName runIndex middle last)
    : GrowsBy nodeName runIndex first last := by
  intro other index member
  rcases late other index member with old | new
  · exact early other index old
  · exact .inr new

theorem setEntry_growsBy {entry : ITaskDataConnections Item}
    (assigned
      : after.waitingExecution = setEntry before.waitingExecution nodeName runIndex entry)
    : GrowsBy nodeName runIndex before after := by
  intro other index member
  rw [ExecutionData.table, assigned, get?_setEntry] at member
  split at member
  · next same =>
      subst same
      rcases Dict.mem_keys_set.mp member with rfl | old
      · exact .inr ⟨rfl, rfl⟩
      · exact .inl old
  · exact .inl member

theorem setMain_growsBy {slots : List (Slot (List Item))}
    (assigned
      : after.waitingExecution = setMain before.waitingExecution nodeName runIndex slots)
    : GrowsBy nodeName runIndex before after := by
  unfold setMain at assigned
  split at assigned
  · exact setEntry_growsBy assigned
  · intro other index member
    rw [ExecutionData.table, assigned] at member
    exact .inl member

theorem waiting_unchanged_growsBy (same : after.waitingExecution = before.waitingExecution)
    : GrowsBy nodeName runIndex before after := by
  intro other index member
  rw [ExecutionData.table, same] at member
  exact .inl member

theorem orThrow_growsBy {α : Type} (value : Option α)
    : (orThrow value : EngineM Item α).Within (GrowsBy nodeName runIndex) :=
  fun self => orThrow_cases (fun _ _ => .refl self) (.refl self)

theorem addData_growsBy (inputIndex : Nat) (batch : Slot (List Item))
    (source : Slot ISourceData)
    : (addData nodeName runIndex inputIndex batch source).Within
        (GrowsBy nodeName runIndex) := by
  apply Exec.Within.bind .trans (Exec.Within.get .refl)
  intro _
  apply Exec.Within.bind .trans (orThrow_growsBy _)
  intro main
  apply Exec.Within.bind .trans (Exec.Within.update (fun _ => setMain_growsBy rfl))
  intro _
  apply Exec.Within.bind .trans (Exec.Within.get .refl)
  intro _
  apply Exec.Within.bind .trans (orThrow_growsBy _)
  intro sourceMain
  exact Exec.Within.bind .trans (Exec.Within.update (fun _ => waiting_unchanged_growsBy rfl))
    (fun _ => Exec.Within.pure .refl _)

theorem deleteEntry_noNewEntries {lastOne : Bool}
    (deleted
      : after.waitingExecution
        = deleteEntry before.waitingExecution nodeName runIndex lastOne)
    : NoNewEntries before after := by
  intro other index member
  rw [ExecutionData.table, deleted] at member
  unfold deleteEntry at member
  by_cases same : other = nodeName
  · subst same
    split at member
    · simp [Dict.get?_delete, Dict.keys, Dict.empty] at member
    · rw [Dict.get?_set_self] at member
      exact (Dict.mem_keys_delete.mp member).2
  · split at member
    · rwa [Dict.get?_delete, if_neg same] at member
    · rwa [Dict.get?_set_of_ne _ _ same] at member

theorem pushEntry_growsBy (workflow : Workflow)
    : (pushEntry workflow nodeName runIndex : EngineM Item PUnit).Within
        (GrowsBy nodeName runIndex) :=
  Exec.Within.update (fun _ => (deleteEntry_noNewEntries rfl).growsBy)

theorem storeEntry_growsBy (numberOfInputs : Nat)
    (connectionDataArray : List (Slot (List Item)))
    : (storeEntry nodeName numberOfInputs runIndex connectionDataArray).Within
        (GrowsBy nodeName runIndex) := by
  apply Exec.Within.bind .trans (Exec.Within.get .refl)
  intro _
  apply Exec.Within.bind .trans (orThrow_growsBy _)
  intro _
  exact Exec.Within.bind .trans (Exec.Within.update (fun _ => setEntry_growsBy rfl))
    (fun _ => Exec.Within.update (fun _ => setEntry_growsBy rfl))

theorem addUnprocessedInputs_growsBy [Inhabited Item]
    (v1 : workflow.settings.executionOrder = some .v1) (runData : IRunData Item)
    (delivery : Delivery Item)
    : (addUnprocessedInputs workflow runData delivery).Within (GrowsBy nodeName runIndex) :=
  fun self => (addUnprocessedInputs_unchanged v1 runData delivery self).mono
    (fun _ final same => same ▸ GrowsBy.refl final) (fun final same => same ▸ GrowsBy.refl final)

end GrowsBy

section Delivery

variable {nodeName : String} {self : ExecutionData Item}

theorem openWaiting_table
    : (openWaiting nodeName).Ensures self
        (fun _ final => ∀ other, final.table other = self.table other)
        (fun _ => False) := by
  refine .bind (.update (.bind (.get ?_)))
  split
  case isTrue _ => exact .pure (fun _ => rfl)
  case isFalse absent =>
    refine .bind (.update (.pure ?_))
    intro other
    by_cases same : other = nodeName
    · subst same
      simp [ExecutionData.table, Option.not_isSome_iff_eq_none.mp absent]
    · simp [ExecutionData.table, Dict.get?_set_of_ne _ _ same]

/-- The entry chosen is one of the node, or a new one whose run index is their number. -/
theorem chooseEntry_growsBy (numberOfInputs inputIndex : Nat)
    : (chooseEntry nodeName numberOfInputs inputIndex).Ensures self
        (fun runIndex final =>
          GrowsBy nodeName runIndex self final
          ∧ (runIndex ∈ (self.table nodeName).keys
            ∨ findWaitingIndex inputIndex (self.table nodeName)
                  (self.table nodeName).sortedKeys
                = .ok none
              ∧ runIndex = (self.table nodeName).values.length))
        (fun final => final = self) := by
  refine .bind (.get ?_)
  dsimp only
  split
  · exact .throw rfl
  · next runIndex found =>
      obtain ⟨member, _⟩ := findWaitingIndex_some found
      exact .pure ⟨.refl self, .inl (Dict.mem_sortedKeys.mp member)⟩
  · next found =>
      exact .bind (.update (.pure
        ⟨setEntry_growsBy rfl, .inr ⟨found, rfl⟩⟩))

theorem afterChoice_growsBy [Inhabited Item] (v1 : workflow.settings.executionOrder = some .v1)
    (runData : IRunData Item) (delivery : Delivery Item) (nodeWasWaiting : Bool)
    (numberOfInputs runIndex : Nat)
    : (do
        let (main, _) ← addData nodeName runIndex delivery.connectionData.index delivery.batch
          delivery.source
        if allDataFound main then
          pushEntry workflow nodeName runIndex
        else
          if nodeWasWaiting then pure ⟨⟩ else addUnprocessedInputs workflow runData delivery
          storeEntry nodeName numberOfInputs runIndex
            (Slot.write main delivery.connectionData.index delivery.batch)
        : EngineM Item PUnit).Within (GrowsBy nodeName runIndex) := by
  apply Exec.Within.bind .trans (addData_growsBy _ _ _)
  intro (main, _)
  dsimp only
  split
  · exact pushEntry_growsBy workflow
  · split
    · exact storeEntry_growsBy _ _
    · exact Exec.Within.bind .trans (addUnprocessedInputs_growsBy v1 runData delivery)
        (fun _ => storeEntry_growsBy _ _)

/-- The node has no entries but those that it had and the one that the delivery opens. -/
def OnlyOpens (workflow : Workflow) (nodeName : String) (delivery : Delivery Item)
    (before after : ExecutionData Item)
    : Prop :=
  ∀ index ∈ (after.table nodeName).keys,
    index ∈ (before.table nodeName).keys
    ∨ opensEntry workflow nodeName before delivery = some index

variable (v1 : workflow.settings.executionOrder = some .v1) (runData : IRunData Item)
  (delivery : Delivery Item)

include v1 runData delivery

theorem deliverToWaiting_onlyOpens [Inhabited Item]
    (several : 1 < (workflow.mainInputs delivery.connectionData.node).length)
    : OnlyOpens workflow nodeName delivery self
        ((deliverToWaiting workflow runData delivery).after self) := by
  apply Exec.Ensures.after (OnlyOpens workflow nodeName delivery self)
  refine Exec.Ensures.bind (openWaiting_table.mono ?_ (fun _ => False.elim))
  intro nodeWasWaiting opened same
  refine Exec.Ensures.bind ((chooseEntry_growsBy _ _).mono ?_ ?_)
  · intro runIndex ready ⟨chosenGrown, chosen⟩
    have settled (final : ExecutionData Item)
        (grown : GrowsBy delivery.connectionData.node runIndex ready final)
        : OnlyOpens workflow nodeName delivery self final := by
      intro index member
      rw [← same nodeName]
      rcases GrowsBy.trans _ _ _ chosenGrown grown nodeName index member with
        old | ⟨rfl, rfl⟩
      · exact .inl old
      · rcases chosen with old | ⟨found, rfl⟩
        · exact .inl old
        · right
          rw [same] at found
          simp [opensEntry, several, found, same]
    exact (afterChoice_growsBy v1 runData delivery nodeWasWaiting _ runIndex ready).mono
      (fun _ => settled) settled
  · intro _ unchanged index member
    rw [unchanged, same] at member
    exact .inl member

theorem addNodeToBeExecuted_onlyOpens [Inhabited Item]
    : OnlyOpens workflow nodeName delivery self
        ((addNodeToBeExecuted workflow runData delivery).after self) := by
  unfold addNodeToBeExecuted
  split
  case isTrue several => exact deliverToWaiting_onlyOpens v1 runData delivery several
  case isFalse _ =>
    intro index member
    unfold deliverToStack at member
    split at member
    · exact .inl member
    · exact .inl member

end Delivery

/-- The execution data, and when each entry of one node was opened. -/
structure WatchedState (Item : Type) where
  execution : ExecutionData Item
  openedAt : Nat → Nat
  moment : Nat

/-- What happens in a run: a node's output is delivered, nodes of the stack run, or the search
for a waiting node makes one pass.
-/
inductive RunAction (Item : Type) where
  | deliver (call : Call Item)
  | runNodes (nodeExecutionStack : List (IExecuteData Item))
  | search

variable {state : WatchedState Item} {runIndex : Nat}

section Runs

variable [Inhabited Item] (workflow : Workflow) (nodeTypes : NodeTypes) (nodeName : String)

/-- Effects stay when the source throws. The search is made with an empty stack only. -/
def watch (state : WatchedState Item) : RunAction Item → Option (WatchedState Item)
  | .deliver call =>
      some
        {
          execution :=
            (addNodeToBeExecuted workflow call.runData call.delivery).after state.execution
          openedAt :=
            match opensEntry workflow nodeName state.execution call.delivery with
            | some runIndex => Function.update state.openedAt runIndex state.moment
            | none => state.openedAt
          moment := state.moment + 1
        }
  | .runNodes nodeExecutionStack =>
      some { state with execution.nodeExecutionStack := nodeExecutionStack }
  | .search =>
      if state.execution.nodeExecutionStack.isEmpty then
        some
          { state with
            execution := (searchFromStart workflow nodeTypes).after state.execution }
      else none

/-- A search that takes an entry of the node takes the one that was opened first. -/
def TakesEarliest (state : WatchedState Item) (action : RunAction Item) : Prop :=
  match action with
  | .search =>
      ∀ taken final,
        searchFromStart workflow nodeTypes state.execution = .ok (some taken) final
        → taken.nodeName = nodeName
        → ∀ other ∈ (state.execution.table nodeName).keys,
            state.openedAt taken.runIndex ≤ state.openedAt other
  | _ => True

/-- A delivery that opens an entry for the node finds the run indexes of all its other entries
before the new one, in the order of strings.
-/
def OpensLast (state : WatchedState Item) (action : RunAction Item) : Prop :=
  match action with
  | .deliver call =>
      ∀ runIndex ∈ opensEntry workflow nodeName state.execution call.delivery,
        ∀ other ∈ (state.execution.table nodeName).keys,
          other ≠ runIndex → toString other < toString runIndex
  | _ => True

instance (state : WatchedState Item) (action : RunAction Item)
    : Decidable (OpensLast workflow nodeName state action) :=
  match action with
  | .deliver call =>
      inferInstanceAs (Decidable (∀ runIndex ∈ opensEntry workflow nodeName state.execution
        call.delivery, ∀ other ∈ (state.execution.table nodeName).keys, other ≠ runIndex
          → toString other < toString runIndex))
  | .runNodes _ => isTrue trivial
  | .search => isTrue trivial

/-- The entries were opened in the order of their run indexes as strings. -/
structure InOrder (state : WatchedState Item) : Prop where
  ordered
    : ∀ first ∈ (state.execution.table nodeName).keys,
        ∀ second ∈ (state.execution.table nodeName).keys,
          toString first < toString second → state.openedAt first < state.openedAt second
  past
    : ∀ index ∈ (state.execution.table nodeName).keys, state.openedAt index < state.moment

variable {workflow nodeTypes nodeName}

omit [Inhabited Item] in
/-- The first run index is one of the table, and no other comes before it as a string. -/
theorem firstRunIndex_first {table : Dict Nat (ITaskDataConnections Item)}
    (first : firstRunIndex table = some runIndex)
    : ∀ other ∈ table.keys, toString runIndex ≤ toString other := by
  have sorted : (sortedRunIndexes table).Pairwise (fun first second =>
      toString first ≤ toString second) := by
    have : Std.Total (fun first second : Nat => toString first ≤ toString second) :=
      ⟨fun first second => le_total (toString first) (toString second)⟩
    have : IsTrans Nat (fun first second => toString first ≤ toString second) :=
      ⟨fun _ _ _ => le_trans⟩
    exact List.pairwise_insertionSort _ _
  obtain ⟨rest, split⟩ := List.head?_eq_some_iff.mp first
  intro other member
  have inside : other ∈ sortedRunIndexes table :=
    (List.mem_insertionSort _).mpr (Dict.mem_sortedKeys.mpr member)
  rw [split] at sorted inside
  rcases List.mem_cons.mp inside with rfl | later
  · exact le_rfl
  · exact List.rel_of_pairwise_cons sorted later

omit [Inhabited Item] in
theorem InOrder.earliest (inOrder : InOrder nodeName state)
    (first : firstRunIndex (state.execution.table nodeName) = some runIndex)
    (present : runIndex ∈ (state.execution.table nodeName).keys)
    : ∀ other ∈ (state.execution.table nodeName).keys,
        state.openedAt runIndex ≤ state.openedAt other := by
  intro other member
  rcases (firstRunIndex_first first other member).lt_or_eq with before | same
  · exact (inOrder.ordered runIndex present other member before).le
  · rw [Text.toString_injective (congrArg String.toList same)]

omit [Inhabited Item] in
/-- Entries that leave the table leave the others in order. -/
theorem InOrder.of_noNewEntries (inOrder : InOrder nodeName state) {execution : ExecutionData Item}
    (fewer : NoNewEntries state.execution execution)
    : InOrder nodeName { state with execution := execution } where
  ordered first firstIn second secondIn before :=
    inOrder.ordered first (fewer nodeName first firstIn) second
      (fewer nodeName second secondIn) before
  past index member := inOrder.past index (fewer nodeName index member)

omit [Inhabited Item] in
theorem InOrder.open (inOrder : InOrder nodeName state) {execution : ExecutionData Item}
    (old
      : ∀ index ∈ (execution.table nodeName).keys,
          index ≠ runIndex → index ∈ (state.execution.table nodeName).keys)
    (last
      : ∀ other ∈ (state.execution.table nodeName).keys,
          other ≠ runIndex → toString other < toString runIndex)
    : InOrder nodeName
        ⟨execution, Function.update state.openedAt runIndex state.moment, state.moment + 1⟩ := by
  refine ⟨?_, ?_⟩
  · intro first firstIn second secondIn before
    dsimp only at *
    by_cases firstNew : first = runIndex
    · subst firstNew
      by_cases secondNew : second = first
      · exact absurd before (secondNew ▸ lt_irrefl _)
      · exact absurd before (last second (old second secondIn secondNew) secondNew).asymm
    · rw [Function.update_of_ne firstNew]
      by_cases secondNew : second = runIndex
      · rw [secondNew, Function.update_self]
        exact inOrder.past first (old first firstIn firstNew)
      · rw [Function.update_of_ne secondNew]
        exact inOrder.ordered first (old first firstIn firstNew) second
          (old second secondIn secondNew) before
  · intro index member
    dsimp only at *
    by_cases new : index = runIndex
    · rw [new, Function.update_self]
      exact Nat.lt_succ_self _
    · rw [Function.update_of_ne new]
      exact (inOrder.past index (old index member new)).trans (Nat.lt_succ_self _)

theorem InOrder.deliver (inOrder : InOrder nodeName state)
    (v1 : workflow.settings.executionOrder = some .v1) {call : Call Item}
    (last : OpensLast workflow nodeName state (.deliver call)) {next : WatchedState Item}
    (taken : watch workflow nodeTypes nodeName state (.deliver call) = some next)
    : InOrder nodeName next := by
  cases taken
  have onlyOpens
      : OnlyOpens workflow nodeName call.delivery state.execution
          ((addNodeToBeExecuted workflow call.runData call.delivery).after state.execution) :=
    addNodeToBeExecuted_onlyOpens v1 call.runData call.delivery
  cases opened : opensEntry workflow nodeName state.execution call.delivery with
  | none =>
      have fewer (index : Nat)
          (member
            : index ∈ (((addNodeToBeExecuted workflow call.runData call.delivery).after
                state.execution).table nodeName).keys)
          : index ∈ (state.execution.table nodeName).keys := by
        simpa [opened] using onlyOpens index member
      refine ⟨?_, ?_⟩
      · intro first firstIn second secondIn before
        exact inOrder.ordered first (fewer first firstIn) second (fewer second secondIn) before
      · intro index member
        exact (inOrder.past index (fewer index member)).trans (Nat.lt_succ_self _)
  | some runIndex =>
      refine inOrder.open ?_ (last runIndex opened)
      intro index member differ
      simpa [opened, differ.symm] using onlyOpens index member

omit [Inhabited Item] in
theorem searchFromStart_noNewEntries (self : ExecutionData Item)
    : NoNewEntries self ((searchFromStart workflow nodeTypes).after self) := by
  apply Exec.Ensures.after (NoNewEntries self)
  refine (searchFromStart_ensures self).mono ?_ (fun _ fewer => fewer)
  intro result final searched
  cases searched with
  | nothing _ => exact .refl self
  | entry took => exact took.removed.noNewEntries

/-- One step keeps the order, and a search takes the earliest entry. -/
theorem watch_inOrder (v1 : workflow.settings.executionOrder = some .v1) {next : WatchedState Item}
    {action : RunAction Item} (inOrder : InOrder nodeName state)
    (last : OpensLast workflow nodeName state action)
    (taken : watch workflow nodeTypes nodeName state action = some next)
    : TakesEarliest workflow nodeTypes nodeName state action ∧ InOrder nodeName next := by
  cases action with
  | deliver call => exact ⟨trivial, inOrder.deliver v1 last taken⟩
  | runNodes stack =>
      cases taken
      exact ⟨trivial, inOrder.ordered, inOrder.past⟩
  | search =>
      constructor
      · intro entry final found isNode
        have searched
            : (searchFromStart workflow nodeTypes).Ensures state.execution _ _ :=
          searchFromStart_ensures state.execution
        rw [Exec.Ensures, found] at searched
        cases searched with
        | entry took =>
            subst isNode
            exact inOrder.earliest took.first (firstRunIndex_mem took.first)
      · simp only [watch] at taken
        split at taken
        · cases taken
          exact inOrder.of_noNewEntries (searchFromStart_noNewEntries _)
        · contradiction

/-- In a run whose deliveries open entries last, every search that takes an entry of the node
takes the one that was opened first.
-/
theorem takesEarliest_of_opensLast (v1 : workflow.settings.executionOrder = some .v1)
    {start : WatchedState Item} (inOrder : InOrder nodeName start)
    {actions : List (RunAction Item)}
    (along
      : Along (watch workflow nodeTypes nodeName) (OpensLast workflow nodeName) start actions)
    : Along (watch workflow nodeTypes nodeName) (TakesEarliest workflow nodeTypes nodeName)
        start actions :=
  along_of_allowed (fun _ _ _ holds last taken => watch_inOrder v1 holds last taken) inOrder
    along

end Runs

/-- Nothing waits. -/
def WatchedState.start : WatchedState Nat := ⟨⟨[], .empty, some .empty⟩, fun _ => 0, 0⟩

theorem start_inOrder (nodeName : String) : InOrder nodeName .start where
  ordered _ member := absurd member List.not_mem_nil
  past _ member := absurd member List.not_mem_nil

/-- `Merge` has two inputs and requires none of them. -/
def mergeTypes : NodeTypes where
  getByNameAndVersion _ := .ok ⟨.listed [.main, .main], none⟩
  getSimpleParameterValue _ _ := .ok none

/-- Two entries are opened, and searches take both. -/
def drainingActions : List (RunAction Nat) :=
  [
    .deliver (mergeCall "A" 0 0 1), .deliver (mergeCall "A" 0 1 2), .runNodes [], .search,
    .runNodes [], .search
  ]

theorem takesEarliest_of_opensLast_merge
    : Along (watch mergeWorkflow mergeTypes "Merge")
        (TakesEarliest mergeWorkflow mergeTypes "Merge") .start drainingActions :=
  takesEarliest_of_opensLast rfl (start_inOrder "Merge") (by decide +kernel)

/-- Three entries are opened, the first two are completed, and the entry opened then has the
run index 1.
-/
def overtakingActions : List (RunAction Nat) :=
  [
    .deliver (mergeCall "A" 0 0 1), .deliver (mergeCall "A" 0 1 2),
    .deliver (mergeCall "A" 0 2 3), .deliver (mergeCall "B" 1 0 4),
    .deliver (mergeCall "B" 1 1 5), .deliver (mergeCall "A" 0 3 6), .runNodes []
  ]

/-- The search took that entry. -/
def tookEntry (nodeName : String) (runIndex : Nat)
    (searched : EStateM.Result JsError (ExecutionData Nat) (Option Taken))
    : Bool :=
  match searched with
  | .ok (some taken) _ => taken.nodeName = nodeName ∧ taken.runIndex = runIndex
  | _ => false

theorem exists_of_tookEntry {nodeName : String}
    {searched : EStateM.Result JsError (ExecutionData Nat) (Option Taken)}
    (took : tookEntry nodeName runIndex searched = true)
    : ∃ taken final,
        searched = .ok (some taken) final
        ∧ taken.nodeName = nodeName ∧ taken.runIndex = runIndex := by
  unfold tookEntry at took
  split at took
  · next taken final => exact ⟨taken, final, rfl, of_decide_eq_true took⟩
  · contradiction

/-- The search takes the last entry, although the third one still waits. -/
theorem overtakingActions_search
    : ∃ reached,
        run (watch mergeWorkflow mergeTypes "Merge") .start overtakingActions = some reached
        ∧ reached.execution.nodeExecutionStack = []
        ∧ ¬TakesEarliest mergeWorkflow mergeTypes "Merge" reached .search := by
  have found : (run (watch mergeWorkflow mergeTypes "Merge") .start overtakingActions).any
      (fun reached =>
        reached.execution.nodeExecutionStack.isEmpty
        && decide (2 ∈ (reached.execution.table "Merge").keys
          ∧ reached.openedAt 2 < reached.openedAt 1)
        && tookEntry "Merge" 1 (searchFromStart mergeWorkflow mergeTypes reached.execution))
      = true := by
    decide +kernel
  obtain ⟨reached, ran, facts⟩ := (Option.any_eq_true _ _).mp found
  obtain ⟨facts, took⟩ := (Bool.and_eq_true_iff).mp facts
  obtain ⟨stack, earlier⟩ := (Bool.and_eq_true_iff).mp facts
  obtain ⟨present, earlier⟩ := of_decide_eq_true earlier
  obtain ⟨taken, final, searched, isNode, isSecond⟩ := exists_of_tookEntry took
  refine ⟨reached, ran, List.isEmpty_iff.mp stack, fun earliest => ?_⟩
  have first := earliest taken final searched isNode 2 present
  rw [isSecond] at first
  exact absurd earlier (Nat.not_lt_of_le first)

end N8n.Engine
