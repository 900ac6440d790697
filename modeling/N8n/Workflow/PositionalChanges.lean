import Mathlib.Data.List.Perm.Subperm
import N8n.Workflow.LostChanges

/-! What two workflows have in common when `hasNonPositionalChanges`
(`packages/workflow/src/workflow-diff.ts`) finds no change.
-/

namespace N8n.Workflow

theorem get?_of_isEqualObject {κ α : Type} [DecidableEq κ] {isEqual : α → α → Bool}
    {value other : Dict κ α} (equal : isEqualObject isEqual value other = true) (key : κ)
    : (value.get? key = none ∧ other.get? key = none)
      ∨ ∃ item its,
          value.get? key = some item ∧ other.get? key = some its ∧ isEqual item its = true := by
  obtain ⟨sameLength, each⟩ := Bool.and_eq_true_iff.mp equal
  have met (key : κ) (item : α) (present : value.get? key = some item)
      : ∃ its, other.get? key = some its ∧ isEqual item its = true :=
    (Option.any_eq_true _ _).mp
      (List.all_eq_true.mp each (key, item) (Dict.mem_entries_iff.mpr present))
  have contained : value.keys ⊆ other.keys := by
    intro key member
    obtain ⟨item, present⟩ := Dict.exists_get?_of_mem_keys member
    obtain ⟨its, there, -⟩ := met key item present
    exact Dict.mem_keys_of_get? there
  have sameKeys : value.keys.Perm other.keys := by
    refine (List.Nodup.subperm value.nodup contained).perm_of_length_le ?_
    simpa [Dict.keys] using (beq_iff_eq.mp sameLength).ge
  cases present : value.get? key with
  | none =>
      left
      rw [Dict.get?_eq_none_iff, ← sameKeys.mem_iff, ← Dict.get?_eq_none_iff]
      exact ⟨rfl, present⟩
  | some item =>
      obtain ⟨its, there, same⟩ := met key item present
      exact .inr ⟨item, its, rfl, there, same⟩

variable {oldConnections newConnections : IConnections}

theorem ofType_of_isEqualObject
    (equal : isEqualObject (isEqualObject (· == ·)) oldConnections newConnections = true)
    (nodeName : String) (type : NodeConnectionType)
    : oldConnections.ofType nodeName type = newConnections.ofType nodeName type := by
  unfold IConnections.ofType
  rcases get?_of_isEqualObject equal nodeName with ⟨noOld, noNew⟩ | ⟨old, new, isOld, isNew, same⟩
  · rw [noOld, noNew]
  · rw [isOld, isNew, Option.bind_some, Option.bind_some]
    rcases get?_of_isEqualObject same type with ⟨noOld, noNew⟩ | ⟨_, _, isOld, isNew, same⟩
    · rw [noOld, noNew]
    · rw [isOld, isNew, eq_of_beq same]

def DiffableNode.withoutPosition (node : DiffableNode) : DiffableNode :=
  { node with position := (0, 0) }

structure SameUpToPositions (oldNodes newNodes : List DiffableNode)
    (oldConnections newConnections : IConnections)
    : Prop where
  nodes :
    (oldNodes.map DiffableNode.withoutPosition).Perm
      (newNodes.map DiffableNode.withoutPosition)
  connections : ∀ place connection,
    oldConnections.HasEdge place connection ↔ newConnections.HasEdge place connection

/-- What is not compared is the same: the fields that are not picked, of the two nodes that are
the only ones of their id, and all but the positions of nodes whose id is repeated.
-/
structure SameUnseen (oldNodes newNodes : List DiffableNode) : Prop where
  others : ∀ node ∈ oldNodes, ∀ other ∈ newNodes,
    other.id = node.id → ¬ IsRepeated oldNodes newNodes node.id → other.others = node.others
  repeated : ∀ id, IsRepeated oldNodes newNodes id
    → ((oldNodes.filter (fun node => node.id = id)).map DiffableNode.withoutPosition).Perm
        ((newNodes.filter (fun node => node.id = id)).map DiffableNode.withoutPosition)

variable {oldNodes newNodes : List DiffableNode}

/-- Lists of nodes are the same when they are for each id. -/
theorem perm_iff_filter {nodes others : List DiffableNode}
    : nodes.Perm others
      ↔ ∀ id, (nodes.filter (fun node => node.id = id)).Perm
          (others.filter (fun node => node.id = id)) := by
  constructor
  · exact fun same id => same.filter _
  · intro each
    refine List.perm_iff_count.mpr fun node => ?_
    have counted (list : List DiffableNode)
        : list.count node = (list.filter (fun other => other.id = node.id)).count node :=
      (List.count_filter (by simp)).symm
    rw [counted nodes, counted others, (each node.id).count_eq]

theorem filter_withoutPosition (nodes : List DiffableNode) (id : String)
    : (nodes.map DiffableNode.withoutPosition).filter (fun node => node.id = id)
      = (nodes.filter (fun node => node.id = id)).map DiffableNode.withoutPosition := by
  rw [List.filter_map]
  rfl

theorem withoutPosition_eq_iff {node other : DiffableNode} (sameId : other.id = node.id)
    (same : compareNodes node other = true)
    : node.withoutPosition = other.withoutPosition ↔ other.others = node.others := by
  have picked : node.pick = other.pick := of_decide_eq_true same
  obtain ⟨id, name, type, typeVersion, webhookId, credentials, parameters, position, others⟩ := node
  cases other
  simp only [DiffableNode.pick, PickedNode.mk.injEq] at picked
  obtain ⟨rfl, rfl, rfl, rfl, rfl, rfl⟩ := picked
  obtain rfl := sameId
  simp [DiffableNode.withoutPosition, eq_comm]

/-- The last nodes of an id are compared when nothing has changed. -/
theorem lastNode_of_unchanged
    (unchanged : hasNonPositionalChanges oldNodes newNodes oldConnections newConnections = false)
    (id : String)
    : (lastNode oldNodes id = none ∧ lastNode newNodes id = none)
      ∨ ∃ node other,
          lastNode oldNodes id = some node ∧ lastNode newNodes id = some other
          ∧ compareNodes node other = true := by
  have allEqual := (Bool.or_eq_false_iff.mp unchanged).1
  have equal (diff : NodeDiff)
      (present : (compareWorkflowsNodes oldNodes newNodes).get? id = some diff)
      : diff.status = .eq := by
    have here := List.any_eq_false.mp allEqual diff (Dict.mem_values_iff.mpr ⟨id, present⟩)
    simpa using here
  rw [compareWorkflowsNodes_get?] at equal
  cases old : lastNode oldNodes id with
  | none =>
      cases new : lastNode newNodes id with
      | none => exact .inl ⟨rfl, rfl⟩
      | some other =>
          have never := equal ⟨.added, other⟩ (by rw [old, new]; rfl)
          contradiction
  | some node =>
      cases new : lastNode newNodes id with
      | none =>
          have never := equal ⟨.deleted, node⟩ (by rw [old, new]; rfl)
          contradiction
      | some other =>
          refine .inr ⟨node, other, rfl, rfl, ?_⟩
          by_contra differ
          have never := equal ⟨.modified, node⟩ (by rw [old, new]; simp [nodeDiff, differ])
          contradiction

/-- When no change is found, the workflows are the same up to positions if what is not compared
is the same.
-/
theorem sameUpToPositions_iff
    (unchanged : hasNonPositionalChanges oldNodes newNodes oldConnections newConnections = false)
    : SameUpToPositions oldNodes newNodes oldConnections newConnections
      ↔ SameUnseen oldNodes newNodes := by
  have sameConnections (place connection : IConnection)
      : oldConnections.HasEdge place connection ↔ newConnections.HasEdge place connection := by
    have equal : isEqualObject (isEqualObject (· == ·)) oldConnections newConnections = true := by
      simpa using (Bool.or_eq_false_iff.mp unchanged).2
    rw [IConnections.hasEdge_iff, IConnections.hasEdge_iff, ofType_of_isEqualObject equal]
  have byId : (oldNodes.map DiffableNode.withoutPosition).Perm
        (newNodes.map DiffableNode.withoutPosition)
      ↔ ∀ id,
          ((oldNodes.filter (fun node => node.id = id)).map DiffableNode.withoutPosition).Perm
            ((newNodes.filter (fun node => node.id = id)).map DiffableNode.withoutPosition) := by
    rw [perm_iff_filter]
    simp only [filter_withoutPosition]
  constructor
  · rintro ⟨nodes, -⟩
    have each := byId.mp nodes
    refine ⟨fun node inOld other inNew sameId single => ?_, fun id _ => each id⟩
    rw [IsRepeated, not_or, Nat.not_lt, Nat.not_lt] at single
    have old := lastNode_of_not_isRepeated single.1 inOld
    have new : lastNode newNodes node.id = some other := by
      rw [← sameId]
      exact lastNode_of_not_isRepeated (sameId ▸ single.2) inNew
    have compared : compareNodes node other = true := by
      rcases lastNode_of_unchanged unchanged node.id with ⟨none, -⟩ | ⟨_, _, isOld, isNew, same⟩
      · rw [old] at none
        contradiction
      · rw [old] at isOld
        rw [new] at isNew
        cases isOld
        cases isNew
        exact same
    have one := each node.id
    rw [filter_eq_lastNode single.1, filter_eq_lastNode single.2, old, new] at one
    exact (withoutPosition_eq_iff sameId compared).mp (List.singleton_perm_singleton.mp one)
  · rintro ⟨others, repeated⟩
    refine ⟨byId.mpr fun id => ?_, sameConnections⟩
    by_cases again : IsRepeated oldNodes newNodes id
    · exact repeated id again
    · have single := again
      rw [IsRepeated, not_or, Nat.not_lt, Nat.not_lt] at single
      rw [filter_eq_lastNode single.1, filter_eq_lastNode single.2]
      rcases lastNode_of_unchanged unchanged id with ⟨noOld, noNew⟩ | ⟨node, other, old, new, same⟩
      · rw [noOld, noNew]
      · obtain ⟨inOld, rfl⟩ := mem_of_lastNode old
        obtain ⟨inNew, sameId⟩ := mem_of_lastNode new
        rw [old, new]
        have equal := (withoutPosition_eq_iff sameId same).mpr
          (others node inOld other inNew sameId again)
        simp [equal]

theorem sameUpToPositions_iff_same
    : SameUpToPositions (withNode "a" []).nodes (withNode "a" []).nodes .empty .empty
      ↔ SameUnseen (withNode "a" []).nodes (withNode "a" []).nodes :=
  sameUpToPositions_iff (show hasNonPositionalChanges (withNode "a" []).nodes
    (withNode "a" []).nodes .empty .empty = false by decide)

theorem not_sameUpToPositions_disabled
    : hasNonPositionalChanges (withNode "a" []).nodes
          (withNode "a" [("disabled", .boolean true)]).nodes .empty .empty = false
      ∧ ¬ SameUpToPositions (withNode "a" []).nodes
          (withNode "a" [("disabled", .boolean true)]).nodes .empty .empty := by
  refine ⟨by decide, fun same => ?_⟩
  have listed := same.nodes.mem_iff.mp (List.mem_singleton_self _)
  have equal := List.mem_singleton.mp listed
  exact absurd (congrArg DiffableNode.others equal) (by decide)

end N8n.Workflow
