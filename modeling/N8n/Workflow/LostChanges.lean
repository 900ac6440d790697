import N8n.Workflow.ConnectionDifferences

/-! What is lost when a version of a workflow gives way to the next one by the rule for additive
changes (`mergeAdditiveChanges` in `packages/workflow/src/workflow-diff.ts`).
-/

namespace N8n.Workflow

open N8n.NodeParameters (Value INodeParameters)

mutual

/-- The next value is the one before, with characters put into its strings. -/
def Kept : Value → Value → Prop
  | .string prev, .string next =>
      (Unicode.utf16 prev.toList).Sublist (Unicode.utf16 next.toList)
  | .array prev, .array next => ItemsKept prev next
  | .object prev, .object next => EntriesKept prev next
  | prev, next => prev = next
termination_by structural prev => prev

def ItemsKept : List Value → List Value → Prop
  | [], [] => True
  | prev :: rest, next :: others => Kept prev next ∧ ItemsKept rest others
  | _, _ => False

def EntriesKept : INodeParameters → INodeParameters → Prop
  | [], [] => True
  | (key, prev) :: rest, (other, next) :: others =>
      key = other ∧ Kept prev next ∧ EntriesKept rest others
  | _, _ => False

end

mutual

/-- An array stands where an object was. -/
def BecomesArray : Value → Value → Prop
  | .object _, .array _ => True
  | .object prev, .object next => EntriesBecomeArray prev next
  | .array prev, .array next => ItemsBecomeArray prev next
  | _, _ => False
termination_by structural prev => prev

def ItemsBecomeArray : List Value → List Value → Prop
  | prev :: rest, next :: others => BecomesArray prev next ∨ ItemsBecomeArray rest others
  | _, _ => False

def EntriesBecomeArray : INodeParameters → INodeParameters → Prop
  | (_, prev) :: rest, (_, next) :: others =>
      BecomesArray prev next ∨ EntriesBecomeArray rest others
  | _, _ => False

end

mutual

/-- By induction over the value before. -/
theorem kept_iff (prev next : Value)
    : Kept prev next ↔ parametersAreSuperset prev next = true ∧ ¬ BecomesArray prev next := by
  cases prev with
  | object entries =>
      cases next <;> simp [Kept, parametersAreSuperset, BecomesArray, entriesKept_iff]
  | array items =>
      cases next <;> simp [Kept, parametersAreSuperset, BecomesArray, itemsKept_iff]
  | string text =>
      cases next <;>
        simp [Kept, parametersAreSuperset, BecomesArray, stringContainsParts_iff]
  | _ => cases next <;> simp [Kept, parametersAreSuperset, BecomesArray]

theorem itemsKept_iff (prev next : List Value)
    : ItemsKept prev next ↔ itemsAreSuperset prev next = true ∧ ¬ ItemsBecomeArray prev next := by
  match prev, next with
  | [], [] => simp [ItemsKept, itemsAreSuperset, ItemsBecomeArray]
  | [], _ :: _ => simp [ItemsKept, itemsAreSuperset]
  | _ :: _, [] => simp [ItemsKept, itemsAreSuperset]
  | prev :: rest, next :: others =>
      simp only [ItemsKept, itemsAreSuperset, ItemsBecomeArray, kept_iff prev next,
        itemsKept_iff rest others, Bool.and_eq_true]
      tauto

theorem entriesKept_iff (prev next : INodeParameters)
    : EntriesKept prev next
      ↔ entriesAreSuperset prev next = true ∧ ¬ EntriesBecomeArray prev next := by
  match prev, next with
  | [], [] => simp [EntriesKept, entriesAreSuperset, EntriesBecomeArray]
  | [], _ :: _ => simp [EntriesKept, entriesAreSuperset]
  | _ :: _, [] => simp [EntriesKept, entriesAreSuperset]
  | (key, prev) :: rest, (other, next) :: others =>
      simp only [EntriesKept, entriesAreSuperset, EntriesBecomeArray, kept_iff prev next,
        entriesKept_iff rest others, Bool.and_eq_true, decide_eq_true_eq]
      tauto

end

mutual

theorem kept_refl (value : Value) : Kept value value := by
  cases value with
  | array items => exact itemsKept_refl items
  | object entries => exact entriesKept_refl entries
  | string text => exact .refl _
  | _ => rfl

theorem itemsKept_refl (items : List Value) : ItemsKept items items := by
  match items with
  | [] => trivial
  | item :: rest => exact ⟨kept_refl item, itemsKept_refl rest⟩

theorem entriesKept_refl (entries : INodeParameters) : EntriesKept entries entries := by
  match entries with
  | [] => trivial
  | (key, value) :: rest => exact ⟨rfl, kept_refl value, entriesKept_refl rest⟩

end

/-- The next node has all that the one before has. -/
structure NodeKept (prev next : DiffableNode) : Prop where
  picked : { prev.pick with parameters := [] } = { next.pick with parameters := [] }
  parameters : Kept (.object prev.parameters) (.object next.parameters)
  position : next.position = prev.position
  others : next.others = prev.others

structure LosesNothing (prev next : DiffableWorkflow) : Prop where
  nodes : ∀ node ∈ prev.nodes, ∃ other ∈ next.nodes, other.id = node.id ∧ NodeKept node other
  connections : ∀ place connection,
    prev.connections.HasEdge place connection → next.connections.HasEdge place connection

/-- More than one node has the id, in one of the versions. -/
def IsRepeated (prev next : List DiffableNode) (id : String) : Prop :=
  1 < (prev.filter (fun node => node.id = id)).length
  ∨ 1 < (next.filter (fun node => node.id = id)).length

/-- What the rule does not look at is the same in both versions: the fields that are not
picked, whether an object has become an array, the nodes whose id is repeated, and the
connections of a node that is named like a member of `Object.prototype`.
-/
structure KeepsUnseen (prev next : DiffableWorkflow) : Prop where
  nodes : ∀ node ∈ prev.nodes, ∃ other ∈ next.nodes,
    other.id = node.id
    ∧ other.position = node.position
    ∧ other.others = node.others
    ∧ ¬ BecomesArray (.object node.parameters) (.object other.parameters)
    ∧ (IsRepeated prev.nodes next.nodes node.id → nodeIsSuperset node other = true)
  connections : ∀ place connection, place.node ∈ inheritedNames
    → prev.connections.HasEdge place connection → next.connections.HasEdge place connection

variable {prev next : DiffableNode}

theorem nodeIsSuperset_iff
    : nodeIsSuperset prev next = true
      ↔ { prev.pick with parameters := [] } = { next.pick with parameters := [] }
        ∧ parametersAreSuperset (.object prev.parameters) (.object next.parameters) = true := by
  rw [nodeIsSuperset, Bool.and_eq_true, compareNodes, decide_eq_true_eq]
  rfl

theorem nodeIsSuperset_of_compareNodes (same : compareNodes prev next = true)
    : nodeIsSuperset prev next = true := by
  have picked : prev.pick = next.pick := of_decide_eq_true same
  have parameters : prev.parameters = next.parameters := congrArg PickedNode.parameters picked
  refine nodeIsSuperset_iff.mpr ⟨by rw [picked], ?_⟩
  rw [parameters]
  exact ((kept_iff _ _).mp (kept_refl (.object next.parameters))).1

theorem nodeKept_iff
    : NodeKept prev next
      ↔ next.position = prev.position ∧ next.others = prev.others
        ∧ ¬ BecomesArray (.object prev.parameters) (.object next.parameters)
        ∧ nodeIsSuperset prev next = true := by
  rw [nodeIsSuperset_iff]
  constructor
  · rintro ⟨picked, parameters, position, others⟩
    obtain ⟨superset, noArray⟩ := (kept_iff _ _).mp parameters
    exact ⟨position, others, noArray, picked, superset⟩
  · rintro ⟨position, others, noArray, picked, superset⟩
    exact ⟨picked, (kept_iff _ _).mpr ⟨superset, noArray⟩, position, others⟩

theorem eq_toList_getLast? {α : Type} {items : List α} (once : items.length ≤ 1)
    : items = items.getLast?.toList := by
  rcases items with _ | ⟨first, _ | ⟨second, rest⟩⟩
  · rfl
  · rfl
  · simp at once

theorem filter_eq_lastNode {nodes : List DiffableNode} {id : String}
    (once : (nodes.filter (fun node => node.id = id)).length ≤ 1)
    : nodes.filter (fun node => node.id = id) = (lastNode nodes id).toList :=
  eq_toList_getLast? once

theorem lastNode_of_not_isRepeated {nodes : List DiffableNode} {node : DiffableNode}
    (once : (nodes.filter (fun other => other.id = node.id)).length ≤ 1) (member : node ∈ nodes)
    : lastNode nodes node.id = some node := by
  have inside : node ∈ nodes.filter (fun other => other.id = node.id) := by simpa using member
  rw [filter_eq_lastNode once] at inside
  exact Option.mem_toList.mp inside

section

variable {prev next : DiffableWorkflow} {metaData : DiffMetaData}
  (accepts : mergeAdditiveChanges prev next (.new prev next) metaData = true)

include accepts

/-- The rule compares the one node before with the one next node of an id. -/
theorem nodeIsSuperset_of_mergeAdditiveChanges {node other : DiffableNode}
    (inPrev : lastNode prev.nodes node.id = some node) (inNext : other ∈ next.nodes)
    (sameId : other.id = node.id)
    (once : (next.nodes.filter (fun other => other.id = node.id)).length ≤ 1)
    : nodeIsSuperset node other = true := by
  have atNext : lastNode next.nodes node.id = some other := by
    rw [← sameId] at once ⊢
    exact lastNode_of_not_isRepeated once inNext
  have present := compareWorkflowsNodes_get? prev.nodes next.nodes node.id
  rw [inPrev, atNext] at present
  have member : nodeDiff node (some other) ∈ (WorkflowChangeSet.new prev next).nodes.values :=
    Dict.mem_values_iff.mpr ⟨node.id, present⟩
  by_cases same : compareNodes node other = true
  · exact nodeIsSuperset_of_compareNodes same
  · unfold mergeAdditiveChanges at accepts
    have checked := List.all_eq_true.mp (Bool.and_eq_true_iff.mp accepts).1 _ member
    simp only [nodeDiff, same, Bool.false_eq_true, if_false] at checked
    cases found : next.nodes.find? (fun other => other.id = node.id) with
    | none =>
        rw [found] at checked
        contradiction
    | some nextNode =>
        rw [found] at checked
        have here := List.mem_of_find?_eq_some found
        have sameNext : nextNode.id = node.id := by simpa using List.find?_some found
        have again : lastNode next.nodes node.id = some nextNode := by
          rw [← sameNext] at once ⊢
          exact lastNode_of_not_isRepeated once here
        rw [atNext] at again
        rw [Option.some.inj again]
        exact checked

theorem hasEdge_of_mergeAdditiveChanges {place connection : IConnection}
    (ordinary : place.node ∉ inheritedNames) (edge : prev.connections.HasEdge place connection)
    : next.connections.HasEdge place connection := by
  unfold mergeAdditiveChanges at accepts
  have noneRemoved := List.isEmpty_iff.mp (Bool.and_eq_true_iff.mp accepts).2
  rw [WorkflowChangeSet.new, compareConnections_eq] at noneRemoved
  exact (keys_pushes_eq_nil_iff (.inl rfl)).mp noneRemoved place connection ordinary edge

end

/-- An accepted version loses nothing when it keeps what the rule does not look at. -/
theorem losesNothing_iff {prev next : DiffableWorkflow} {metaData : DiffMetaData}
    (accepts : mergeAdditiveChanges prev next (.new prev next) metaData = true)
    : LosesNothing prev next ↔ KeepsUnseen prev next := by
  constructor
  · rintro ⟨nodes, connections⟩
    refine ⟨fun node member => ?_, fun place connection _ => connections place connection⟩
    obtain ⟨other, inNext, sameId, kept⟩ := nodes node member
    obtain ⟨position, others, noArray, superset⟩ := nodeKept_iff.mp kept
    exact ⟨other, inNext, sameId, position, others, noArray, fun _ => superset⟩
  · rintro ⟨nodes, connections⟩
    refine ⟨fun node member => ?_, fun place connection edge => ?_⟩
    · obtain ⟨other, inNext, sameId, position, others, noArray, compared⟩ := nodes node member
      refine ⟨other, inNext, sameId, nodeKept_iff.mpr ⟨position, others, noArray, ?_⟩⟩
      by_cases repeated : IsRepeated prev.nodes next.nodes node.id
      · exact compared repeated
      · rw [IsRepeated, not_or, Nat.not_lt, Nat.not_lt] at repeated
        exact nodeIsSuperset_of_mergeAdditiveChanges accepts
          (lastNode_of_not_isRepeated repeated.1 member) inNext sameId repeated.2
    · by_cases ordinary : place.node ∈ inheritedNames
      · exact connections place connection ordinary edge
      · exact hasEdge_of_mergeAdditiveChanges accepts ordinary edge

/-- A workflow of one node, which has the parameter and the other fields. -/
def withNode (text : String) (others : INodeParameters) : DiffableWorkflow where
  nodes :=
    [{
      id := "1", name := "Code", type := none, typeVersion := none, webhookId := none
      credentials := none, parameters := [("jsCode", .string text)], position := (0, 0), others
    }]
  connections := .empty
  createdAt := 0
  authors := none

theorem losesNothing_iff_grownText
    : LosesNothing (withNode "a" []) (withNode "ab" [])
      ↔ KeepsUnseen (withNode "a" []) (withNode "ab" []) :=
  losesNothing_iff (show mergeAdditiveChanges (withNode "a" []) (withNode "ab" []) (.new _ _) ⟨none⟩
    = true by decide)

theorem not_losesNothing_notes
    : mergeAdditiveChanges (withNode "a" [("notes", .string "Why")]) (withNode "ab" [])
          (.new (withNode "a" [("notes", .string "Why")]) (withNode "ab" [])) ⟨none⟩ = true
      ∧ ¬ LosesNothing (withNode "a" [("notes", .string "Why")]) (withNode "ab" []) := by
  refine ⟨by decide, fun loses => ?_⟩
  obtain ⟨other, inNext, -, kept⟩ := loses.nodes _ (List.mem_singleton_self _)
  obtain rfl := List.mem_singleton.mp inNext
  exact absurd kept.others (by decide)

end N8n.Workflow
