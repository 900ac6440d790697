import Mathlib.Algebra.Order.BigOperators.Group.List
import Mathlib.Algebra.Order.Ring.Nat
import Mathlib.Order.Preorder.Finite
import N8n.Engine.WaitingNodes
import N8n.Workflow.ParentsAndChildren

/-! What the loop over the waiting nodes leaves behind when it finds none that can run: the
entries of nodes that wait for each other, or for such nodes.
-/

namespace N8n.Engine

open Library

variable {Item : Type}

/-- The other node is the node itself or an ancestor of it. -/
def LeadsBack (workflow : Workflow) (nodeName other : String) : Prop :=
  nodeName = other ∨ other ∈ workflow.getParentNodes nodeName

/-- The node, or an ancestor that waits, waits together with a different node such that each of
these two is an ancestor of the other.
-/
def Stuck (workflow : Workflow) (waitingNodes : List String) (nodeName : String) : Prop :=
  ∃ first ∈ waitingNodes, ∃ second ∈ waitingNodes,
    LeadsBack workflow nodeName first
    ∧ second ∈ workflow.getParentNodes first ∧ first ∈ workflow.getParentNodes second

section Stuck

variable {workflow : Workflow} {nodeName other : String}

/-- Nodes lead back along connections. -/
theorem leadsBack_iff
    : LeadsBack workflow nodeName other
      ↔ ∃ places,
          Walk (workflow.connectionsByDestinationNode.Leads (.single .main)) nodeName places
            other := by
  unfold LeadsBack Workflow.getParentNodes
  rw [mem_getConnectedNodes_iff]
  constructor
  · rintro (rfl | ⟨_, places, walk, _⟩)
    · exact ⟨[], .nil _⟩
    · exact ⟨places, walk⟩
  · intro ⟨places, walk⟩
    by_cases same : nodeName = other
    · exact .inl same
    · exact .inr ⟨Ne.symm same, places, walk, fun _ unlimited => by contradiction⟩

theorem ne_of_mem_getParentNodes (parent : other ∈ workflow.getParentNodes nodeName)
    : other ≠ nodeName :=
  (mem_getConnectedNodes_iff.mp parent).1

/-- Nodes below their ancestors. -/
@[reducible] def ancestry (workflow : Workflow) : Preorder String where
  le := LeadsBack workflow
  lt first second := LeadsBack workflow first second ∧ ¬LeadsBack workflow second first
  le_refl nodeName := .inl rfl
  le_trans first second third early late := by
    obtain ⟨front, walk⟩ := leadsBack_iff.mp early
    obtain ⟨back, further⟩ := leadsBack_iff.mp late
    exact leadsBack_iff.mpr ⟨front ++ back, walk.append further⟩

variable {waitingNodes : List String}

/-- When every waiting node has a waiting ancestor, all of them are stuck: a farthest ancestor
is an ancestor of its own ancestors.
-/
theorem stuck_of_blocked
    (blocked
      : ∀ nodeName ∈ waitingNodes,
          ∃ parent ∈ workflow.getParentNodes nodeName, parent ∈ waitingNodes)
    (waits : nodeName ∈ waitingNodes)
    : Stuck workflow waitingNodes nodeName := by
  obtain ⟨first, back, firstWaits, farthest⟩ :=
    @Finset.exists_le_maximal String (ancestry workflow) nodeName waitingNodes.toFinset
      (List.mem_toFinset.mpr waits)
  rw [List.mem_toFinset] at firstWaits
  obtain ⟨second, parent, secondWaits⟩ := blocked first firstWaits
  have bothWays : LeadsBack workflow second first :=
    farthest (List.mem_toFinset.mpr secondWaits) (.inr parent)
  rcases bothWays with same | child
  · exact absurd same (ne_of_mem_getParentNodes parent)
  · exact ⟨first, firstWaits, second, secondWaits, back, parent, child⟩

variable (stuck : Stuck workflow waitingNodes nodeName)

include stuck

theorem Stuck.blocked
    : ∃ parent ∈ workflow.getParentNodes nodeName, parent ∈ waitingNodes := by
  obtain ⟨first, firstWaits, second, secondWaits, back, parent, _⟩ := stuck
  rcases back with rfl | ancestor
  · exact ⟨second, parent, secondWaits⟩
  · exact ⟨first, ancestor, firstWaits⟩

theorem Stuck.of_kept {others : List String}
    (kept
      : ∀ other ∈ waitingNodes, Stuck workflow waitingNodes other → other ∈ others)
    : Stuck workflow others nodeName := by
  obtain ⟨first, firstWaits, second, secondWaits, back, parent, child⟩ := stuck
  refine ⟨first, kept first firstWaits ?_, second, kept second secondWaits ?_, back, parent,
    child⟩
  · exact ⟨first, firstWaits, second, secondWaits, .inl rfl, parent, child⟩
  · exact ⟨second, secondWaits, first, firstWaits, .inl rfl, child, parent⟩

theorem Stuck.mono {others : List String} (more : ∀ other ∈ waitingNodes, other ∈ others)
    : Stuck workflow others nodeName :=
  stuck.of_kept (fun other waits _ => more other waits)

end Stuck

/-- The node waits with items at some input of the type. -/
def HoldsItems (self : ExecutionData Item) (nodeName : String) (type : NodeConnectionType)
    : Prop :=
  ∃ runIndex slots,
    self.waitingExecution.array? nodeName runIndex type = some slots
    ∧ slots.any hasItems = true

variable {self : ExecutionData Item} {nodeName : String}

theorem HoldsItems.waits {type : NodeConnectionType} (holds : HoldsItems self nodeName type)
    : nodeName ∈ self.waitingExecution.keys := by
  obtain ⟨runIndex, slots, found, _⟩ := holds
  by_contra absent
  rw [WaitingFor.array?, Dict.get?_eq_none_iff.mpr absent] at found
  contradiction

theorem array?_eq_table (self : ExecutionData Item) (nodeName : String) (runIndex : Nat)
    (type : NodeConnectionType)
    : self.waitingExecution.array? nodeName runIndex type
      = ((self.table nodeName).get? runIndex).bind (fun entry => entry.get? type) := by
  unfold WaitingFor.array? ExecutionData.table
  cases self.waitingExecution.get? nodeName <;> rfl

/-- Empty arrays for inputs without data add no items. -/
theorem taskDataMain_hasItems (main : List (Slot (List Item)))
    : (taskDataMain main).any hasItems = main.any hasItems := by
  unfold taskDataMain
  rw [List.any_map]
  congr 1
  funext slot
  cases slot <;> rfl

/-- What searches keep that remove entries without items. -/
structure Kept (workflow : Workflow) (before after : ExecutionData Item) : Prop where
  stack : after.nodeExecutionStack = before.nodeExecutionStack
  nodes : ∀ nodeName ∈ after.waitingExecution.keys, nodeName ∈ before.waitingExecution.keys
  fewer : ∀ nodeName type, HoldsItems after nodeName type → HoldsItems before nodeName type
  items : ∀ nodeName, HoldsItems before nodeName .main → HoldsItems after nodeName .main
  stuck
    : ∀ nodeName, Stuck workflow before.waitingExecution.keys nodeName
        → after.waitingExecution.get? nodeName = before.waitingExecution.get? nodeName

variable {workflow : Workflow} {nodeTypes : NodeTypes}

theorem Kept.refl (self : ExecutionData Item) : Kept workflow self self where
  stack := rfl
  nodes _ member := member
  fewer _ _ holds := holds
  items _ holds := holds
  stuck _ _ := rfl

variable {before after : ExecutionData Item}

theorem Kept.stuck_stays (kept : Kept workflow before after)
    (stuck : Stuck workflow before.waitingExecution.keys nodeName)
    : Stuck workflow after.waitingExecution.keys nodeName := by
  apply stuck.of_kept
  intro other waits otherStuck
  obtain ⟨table, found⟩ := Dict.exists_get?_of_mem_keys waits
  exact Dict.mem_keys_of_get? ((kept.stuck other otherStuck).trans found)

theorem Kept.trans {first middle last : ExecutionData Item} (early : Kept workflow first middle)
    (late : Kept workflow middle last)
    : Kept workflow first last where
  stack := late.stack.trans early.stack
  nodes nodeName member := early.nodes nodeName (late.nodes nodeName member)
  fewer nodeName type holds := early.fewer nodeName type (late.fewer nodeName type holds)
  items nodeName holds := late.items nodeName (early.items nodeName holds)
  stuck nodeName stuck :=
    (late.stuck nodeName (early.stuck_stays stuck)).trans (early.stuck nodeName stuck)

/-- Stuck nodes are not taken. -/
theorem Took.not_stuck {taken : Taken}
    (took : Took workflow before.waitingExecution.keys before after taken)
    : ¬Stuck workflow before.waitingExecution.keys taken.nodeName := by
  intro stuck
  obtain ⟨parent, isParent, waits⟩ := stuck.blocked
  exact took.free parent isParent waits

theorem Removed.holdsItems_of_after {runIndex : Nat}
    (removed : Removed nodeName runIndex before after) {other : String} {type : NodeConnectionType}
    (holds : HoldsItems after other type)
    : HoldsItems before other type := by
  obtain ⟨index, slots, found, held⟩ := holds
  refine ⟨index, slots, ?_, held⟩
  by_cases same : other = nodeName
  · subst same
    rw [array?_eq_table, removed.table, Dict.get?_delete] at found
    rw [array?_eq_table]
    split at found
    · contradiction
    · exact found
  · rwa [WaitingFor.array?, removed.others other same] at found

theorem Took.kept {before after : ExecutionData Item} {taken : Taken}
    (took : Took workflow before.waitingExecution.keys before after taken)
    (noItems : taken.pushed = false)
    : Kept workflow before after where
  stack := by simpa [noItems] using took.stack
  nodes := took.removed.nodes
  fewer _ _ holds := took.removed.holdsItems_of_after holds
  items := by
    intro nodeName ⟨index, slots, found, nonempty⟩
    refine ⟨index, slots, ?_, nonempty⟩
    by_cases same : nodeName = taken.nodeName
    · subst same
      obtain ⟨main, held, pushed⟩ := took.items
      rw [array?_eq_table, took.removed.table, Dict.get?_delete]
      split
      · next removed =>
          subst removed
          cases found.symm.trans held
          rw [taskDataMain_hasItems, nonempty, noItems] at pushed
          contradiction
      · rwa [array?_eq_table] at found
    · rwa [WaitingFor.array?, took.removed.others nodeName same]
  stuck nodeName stuck :=
    took.removed.others nodeName (fun same => took.not_stuck (same ▸ stuck))

/-- How the loop ends: no waiting node can run, or one is on the stack. -/
inductive Outcome (workflow : Workflow) (before : ExecutionData Item)
    : ExecutionData Item → Prop where
  | blocked {after : ExecutionData Item} (kept : Kept workflow before after)
    (stuck
      : ∀ nodeName ∈ after.waitingExecution.keys,
          Stuck workflow after.waitingExecution.keys nodeName)
    : Outcome workflow before after
  | pushed {last after : ExecutionData Item} (kept : Kept workflow before last)
    {nodeName : String}
    (free : ¬Stuck workflow last.waitingExecution.keys nodeName)
    (items : HoldsItems last nodeName .main) (onStack : after.nodeExecutionStack ≠ [])
    : Outcome workflow before after

theorem Outcome.of_kept {middle : ExecutionData Item} (kept : Kept workflow before middle)
    (outcome : Outcome workflow middle after)
    : Outcome workflow before after := by
  cases outcome with
  | blocked later stuck => exact .blocked (kept.trans later) stuck
  | pushed later free items onStack => exact .pushed (kept.trans later) free items onStack

/-- Where all waiting nodes are passed over, all are stuck. -/
theorem stuck_of_passedOver {waitingNodes : List String}
    (requiresNone : ∀ nodeName ∈ waitingNodes, RequiresNone workflow nodeTypes nodeName)
    (passed : ∀ nodeName ∈ waitingNodes, PassedOver workflow nodeTypes waitingNodes nodeName)
    : ∀ nodeName ∈ waitingNodes, Stuck workflow waitingNodes nodeName :=
  fun _ waits => stuck_of_blocked
    (fun nodeName member => passed nodeName member (requiresNone nodeName member)) waits

/-- The entries of the nodes. -/
def entryCount (self : ExecutionData Item) (nodeNames : List String) : Nat :=
  (nodeNames.map (fun nodeName => (self.table nodeName).keys.length)).sum

theorem length_delete_lt {κ α : Type} [DecidableEq κ] {d : Dict κ α} {key : κ}
    (present : key ∈ d.keys)
    : (d.delete key).keys.length < d.keys.length := by
  obtain ⟨value, found⟩ := Dict.exists_get?_of_mem_keys present
  obtain ⟨before, after, split, _, deleted⟩ := Dict.split_of_get? found
  simp [Dict.keys, split, deleted]

/-- An entry that is taken is one less. -/
theorem Took.entryCount_lt {waitingNodes nodeNames : List String} {taken : Taken}
    (took : Took workflow waitingNodes before after taken) (counted : taken.nodeName ∈ nodeNames)
    : entryCount after nodeNames < entryCount before nodeNames := by
  apply List.sum_lt_sum
  · intro nodeName _
    by_cases same : nodeName = taken.nodeName
    · rw [same, took.removed.table]
      exact (List.filter_sublist.map Prod.fst).length_le
    · rw [ExecutionData.table, took.removed.others nodeName same]
      exact le_rfl
  · refine ⟨taken.nodeName, counted, ?_⟩
    rw [took.removed.table]
    exact length_delete_lt (firstRunIndex_mem took.first)

/-- The loop ends within as many searches as there are entries, and one more. -/
theorem executeWaitingNodes_ensures {fuel : Nat} {nodeNames : List String}
    (requiresNone : ∀ nodeName ∈ self.waitingExecution.keys,
      RequiresNone workflow nodeTypes nodeName)
    (counted : ∀ nodeName ∈ self.waitingExecution.keys, nodeName ∈ nodeNames)
    : (executeWaitingNodes workflow nodeTypes fuel).Ensures self
        (fun ended final =>
          (entryCount self nodeNames < fuel → ended = true)
          ∧ (ended = true → Outcome workflow self final))
        (fun _ => True) := by
  induction fuel generalizing self with
  | zero => exact .pure ⟨fun less => by omega, fun ended => by contradiction⟩
  | succ fuel ih =>
      refine .bind ((searchFromStart_ensures self).mono ?_ (fun _ _ => trivial))
      intro result middle searched
      cases searched with
      | nothing passed =>
          refine .pure ⟨fun _ => rfl, fun _ => .blocked (.refl self) ?_⟩
          exact stuck_of_passedOver requiresNone passed
      | @entry taken _ took =>
          obtain ⟨nodeName, runIndex, pushed⟩ := taken
          cases pushed with
          | true =>
              refine .pure ⟨fun _ => rfl, fun _ => ?_⟩
              obtain ⟨main, held, items⟩ := took.items
              rw [taskDataMain_hasItems] at items
              exact .pushed (.refl self) took.not_stuck ⟨runIndex, main, held, items.symm⟩
                (by simpa using took.stack)
          | false =>
              have kept := took.kept rfl
              refine (ih (fun other waits => requiresNone other (kept.nodes other waits))
                (fun other waits => counted other (kept.nodes other waits))).mono ?_
                (fun _ _ => trivial)
              intro ended final ⟨soon, outcome⟩
              have less := took.entryCount_lt (counted nodeName took.waits)
              exact ⟨fun enough => soon (by omega), fun ends => (outcome ends).of_kept kept⟩

/-- A run that ends here leaves no items waiting. -/
def LeavesNothing (final : ExecutionData Item) : Prop :=
  final.nodeExecutionStack = [] → ∀ nodeName type, ¬HoldsItems final nodeName type

/-- A node that is not stuck waits with items, or no stuck one does. -/
def FreeItemsOrNone (workflow : Workflow) (self : ExecutionData Item) : Prop :=
  (∃ nodeName,
    ¬Stuck workflow self.waitingExecution.keys nodeName ∧ HoldsItems self nodeName .main)
  ∨ ∀ nodeName, Stuck workflow self.waitingExecution.keys nodeName
      → ∀ type, ¬HoldsItems self nodeName type

theorem Outcome.leavesNothing_iff {final : ExecutionData Item}
    (empty : self.nodeExecutionStack = []) (outcome : Outcome workflow self final)
    : LeavesNothing final ↔ FreeItemsOrNone workflow self := by
  cases outcome with
  | blocked kept allStuck =>
      have remains (nodeName : String) (type : NodeConnectionType)
          (stuck : Stuck workflow self.waitingExecution.keys nodeName)
          : HoldsItems final nodeName type ↔ HoldsItems self nodeName type := by
        unfold HoldsItems WaitingFor.array?
        rw [kept.stuck nodeName stuck]
      have wasStuck (nodeName : String) (type : NodeConnectionType)
          (holds : HoldsItems final nodeName type)
          : Stuck workflow self.waitingExecution.keys nodeName :=
        (allStuck nodeName holds.waits).mono kept.nodes
      constructor
      · intro nothing
        refine .inr (fun nodeName stuck type holds => ?_)
        exact nothing (kept.stack.trans empty) nodeName type
          ((remains nodeName type stuck).mpr holds)
      · intro either _ nodeName type holds
        rcases either with ⟨other, free, items⟩ | none
        · exact free (wasStuck other .main (kept.items other items))
        · have stuck := wasStuck nodeName type holds
          exact none nodeName stuck type ((remains nodeName type stuck).mp holds)
  | @pushed _ _ kept nodeName free items onStack =>
      refine iff_of_true (fun none => absurd none onStack) (.inl ⟨nodeName, ?_, ?_⟩)
      · exact fun stuck => free (kept.stuck_stays stuck)
      · exact kept.fewer nodeName .main items

/-- The loop ends. Unless it throws, it leaves no items waiting behind an empty stack if and
only if some node that is not stuck waits with items or no stuck one does.
-/
theorem executeWaitingNodes_leavesNothing_iff {self : ExecutionData Item}
    (empty : self.nodeExecutionStack = [])
    (requiresNone
      : ∀ nodeName ∈ self.waitingExecution.keys, RequiresNone workflow nodeTypes nodeName)
    : (∃ enough, ∀ fuel, enough ≤ fuel → ∀ final,
        executeWaitingNodes workflow nodeTypes fuel self ≠ .ok false final)
      ∧ ∀ fuel final, executeWaitingNodes workflow nodeTypes fuel self = .ok true final
        → (LeavesNothing final ↔ FreeItemsOrNone workflow self) := by
  have ensures (fuel : Nat)
      : (executeWaitingNodes workflow nodeTypes fuel).Ensures self _ _ :=
    executeWaitingNodes_ensures requiresNone (fun _ waits => waits)
  constructor
  · refine ⟨entryCount self self.waitingExecution.keys + 1, fun fuel enough final ran => ?_⟩
    have ends := ensures fuel
    rw [Exec.Ensures, ran] at ends
    exact Bool.false_ne_true (ends.1 enough)
  · intro fuel final ran
    have ends := ensures fuel
    rw [Exec.Ensures, ran] at ends
    exact (ends.2 rfl).leavesNothing_iff empty

/-- `A` and `B` have two inputs each, the first from `Trigger` and the second from the other. -/
def crossedWorkflow : Workflow where
  nodes := Dict.empty.insertAll INode.name
    [
      ⟨"0", "Trigger", "trigger", false⟩, ⟨"1", "A", "merge", false⟩,
      ⟨"2", "B", "merge", false⟩
    ]
  connectionsBySourceNode :=
    Dict.empty.set "Trigger"
        (Dict.empty.set .main [some [⟨"A", .main, 0⟩, ⟨"B", .main, 0⟩]])
      |>.set "A" (Dict.empty.set .main [some [⟨"B", .main, 1⟩]])
      |>.set "B" (Dict.empty.set .main [some [⟨"A", .main, 1⟩]])
  connectionsByDestinationNode :=
    Dict.empty.set "A"
        (Dict.empty.set .main [some [⟨"Trigger", .main, 0⟩], some [⟨"B", .main, 0⟩]])
      |>.set "B"
        (Dict.empty.set .main [some [⟨"Trigger", .main, 0⟩], some [⟨"A", .main, 0⟩]])
  settings := ⟨some .v1⟩

/-- The types of these nodes have two inputs and require none. -/
def twoInputTypes : NodeTypes where
  getByNameAndVersion _ := .ok ⟨.listed [.main, .main], none⟩
  getSimpleParameterValue _ _ := .ok none

/-- Each of the nodes waits with the item 1 at its first input. -/
def waitingAtFirst (nodeNames : List String) : ExecutionData Nat where
  nodeExecutionStack := []
  waitingExecution := nodeNames.foldl
    (fun waiting nodeName =>
      waiting.set nodeName
        (Dict.empty.set 0 (Dict.empty.set .main [.value [1], .null])))
    .empty
  waitingExecutionSource := some (nodeNames.foldl
    (fun waiting nodeName =>
      waiting.set nodeName
        (Dict.empty.set 0
          (Dict.empty.set .main [.value ⟨"Trigger", some 0, some 0⟩, .null])))
    .empty)

/-- `A` alone runs with what it has. -/
theorem leavesNothing_iff_single
    : (∃ enough, ∀ fuel, enough ≤ fuel → ∀ final,
        executeWaitingNodes crossedWorkflow twoInputTypes fuel (waitingAtFirst ["A"])
          ≠ .ok false final)
      ∧ ∀ fuel final,
          executeWaitingNodes crossedWorkflow twoInputTypes fuel (waitingAtFirst ["A"])
            = .ok true final
          → (LeavesNothing final
            ↔ FreeItemsOrNone crossedWorkflow (waitingAtFirst ["A"])) := by
  apply executeWaitingNodes_leavesNothing_iff rfl
  intro nodeName waits
  obtain rfl := List.mem_singleton.mp waits
  exact ⟨_, _, rfl, rfl, rfl⟩

/-- Both nodes are passed over for the other one, and the run ends with their items. -/
theorem crossedNodes_remain
    : ∃ final,
        executeWaitingNodes crossedWorkflow twoInputTypes 3 (waitingAtFirst ["A", "B"])
          = .ok true final
        ∧ ¬LeavesNothing final := by
  have left
      : (executeWaitingNodes crossedWorkflow twoInputTypes 3).Ensures
          (waitingAtFirst ["A", "B"])
          (fun ended final =>
            ended = true
            ∧ final.nodeExecutionStack.isEmpty = true
            ∧ (final.waitingExecution.array? "A" 0 .main).any (fun slots => slots.any hasItems)
              = true)
          (fun _ => False) := by
    decide +kernel
  obtain ⟨_, final, ran, rfl, stack, items⟩ := left.exists_ok
  refine ⟨final, ran, fun nothing => ?_⟩
  obtain ⟨slots, found, held⟩ := (Option.any_eq_true _ _).mp items
  exact nothing (List.isEmpty_iff.mp stack) "A" .main ⟨0, slots, found, held⟩

end N8n.Engine
