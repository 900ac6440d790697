import N8n.Library.FrontMoves
import N8n.Library.Walks
import N8n.Workflow.ConnectedNodes

/-! The nodes that `getConnectedNodes` finds are the others that a walk along connections
leads to. Parents and children are each other's converse where the two tables of connections
are.
-/

namespace N8n

open Library

-- `packages/workflow/src/common/get-parent-nodes.ts`
def getParentNodes (connectionsByDestinationNode : IConnections) (nodeName : String)
    (type : ConnectionSelector) (depth : Option Nat)
    : List String :=
  getConnectedNodes connectionsByDestinationNode nodeName type depth

-- `packages/workflow/src/common/get-child-nodes.ts`
def getChildNodes (connectionsBySourceNode : IConnections) (nodeName : String)
    (type : ConnectionSelector) (depth : Option Nat)
    : List String :=
  getConnectedNodes connectionsBySourceNode nodeName type depth

/-- A connection of a selected type leads from the node to the other. -/
def IConnections.Leads (connections : IConnections) (selector : ConnectionSelector)
    (nodeName other : String)
    : Prop :=
  ∃ nodeConnections,
    connections.get? nodeName = some nodeConnections
    ∧ ∃ type ∈ selector.types nodeConnections, ∃ byIndex,
        nodeConnections.get? type = some byIndex
        ∧ ∃ connection ∈ byIndex.flatMap (fun atIndex => atIndex.getD []),
            connection.node = other

/-- A loop that adds elements to a list, turn by turn. -/
theorem mem_foldl_iff {α β : Type} {add : List α → β → List α} {added : β → Prop} {x : α}
    (step : ∀ acc turn, x ∈ add acc turn ↔ x ∈ acc ∨ added turn) (turns : List β)
    (acc : List α)
    : x ∈ turns.foldl add acc ↔ x ∈ acc ∨ ∃ turn ∈ turns, added turn := by
  induction turns generalizing acc with
  | nil => simp
  | cons turn rest ih =>
      rw [List.foldl_cons, ih, step, or_assoc]
      simp

variable {nodeName : String}

theorem mem_unshiftAll {addNodes returnNodes : List String}
    : nodeName ∈ unshiftAll addNodes returnNodes
      ↔ nodeName ∈ addNodes ∨ nodeName ∈ returnNodes :=
  FrontMoves.mem_moveToFront

variable {connections : IConnections} {selector : ConnectionSelector}

variable {found : String} {checkedNodes : List String}

theorem mem_followed {find : String → List String} (followed : List IConnection) (acc : List String)
    : found ∈ followed.foldl
          (fun nodes connection =>
            if connection.node ∈ checkedNodes then nodes
            else unshiftAll (find connection.node) (connection.node :: nodes))
          acc
      ↔ found ∈ acc
        ∨ ∃ connection ∈ followed,
            connection.node ∉ checkedNodes
            ∧ (found = connection.node ∨ found ∈ find connection.node) := by
  apply mem_foldl_iff
  intro acc connection
  split
  · next checked => simp [checked]
  · next unchecked =>
      rw [mem_unshiftAll, List.mem_cons]
      tauto

theorem mem_followedType (find : String → List String) (ofType : Option NodeInputConnections)
    (acc : List String)
    : found ∈
          (match ofType with
          | none => acc
          | some byIndex =>
              if nodeName ∈ checkedNodes then acc
              else
                (byIndex.flatMap (fun atIndex => atIndex.getD [])).foldl
                  (fun nodes connection =>
                    if connection.node ∈ checkedNodes ++ [nodeName] then nodes
                    else unshiftAll (find connection.node) (connection.node :: nodes))
                  acc : List String)
      ↔ found ∈ acc
        ∨ nodeName ∉ checkedNodes
          ∧ ∃ byIndex : NodeInputConnections,
              ofType = some byIndex
              ∧ ∃ connection ∈ byIndex.flatMap (fun atIndex => atIndex.getD []),
                  connection.node ∉ checkedNodes ++ [nodeName]
                  ∧ (found = connection.node ∨ found ∈ find connection.node) := by
  cases ofType with
  | none => simp
  | some byIndex =>
      simp only
      split
      · next checked => simp [checked]
      · next unchecked =>
          rw [mem_followed]
          simp [unchecked]

variable {depth : Option Nat}

/-- What one call finds: the nodes that a connection leads to, and what the calls for these
find.
-/
theorem mem_go_succ {fuel : Nat}
    : found ∈ getConnectedNodes.go connections selector (fuel + 1) nodeName depth checkedNodes
      ↔ depth ≠ some 0
        ∧ nodeName ∉ checkedNodes
        ∧ ∃ next,
            connections.Leads selector nodeName next
            ∧ next ∉ checkedNodes ++ [nodeName]
            ∧ (found = next
              ∨ found ∈ getConnectedNodes.go connections selector fuel next
                  (depth.map (fun depth => depth - 1)) (checkedNodes ++ [nodeName])) := by
  rw [getConnectedNodes.go]
  by_cases reached : depth = some 0
  · simp [reached]
  · rw [if_neg reached]
    cases present : connections.get? nodeName with
    | none => simp [IConnections.Leads, present]
    | some nodeConnections =>
        refine (mem_foldl_iff (fun acc type =>
          mem_followedType
            (fun next =>
              getConnectedNodes.go connections selector fuel next
                (depth.map (fun depth => depth - 1)) (checkedNodes ++ [nodeName]))
            (nodeConnections.get? type) acc) _ _).trans ?_
        simp only [List.not_mem_nil, false_or]
        constructor
        · intro ⟨type, selected, unchecked, byIndex, here, connection, member, fresh, finds⟩
          exact ⟨reached, unchecked, connection.node,
            ⟨nodeConnections, present, type, selected, byIndex, here, connection, member, rfl⟩,
            fresh, finds⟩
        · intro ⟨_, unchecked, next, leads, fresh, finds⟩
          obtain ⟨_, here, type, selected, byIndex, indexed, connection, member, rfl⟩ := leads
          cases present.symm.trans here
          exact ⟨type, selected, unchecked, byIndex, indexed, connection, member, fresh, finds⟩

/-- A walk of that length does not go deeper. -/
def WithinDepth (depth : Option Nat) (length : Nat) : Prop :=
  ∀ limit, depth = some limit → length ≤ limit

/-- What a call finds, by induction on the fuel: the ends of walks through nodes that are
not checked yet.
-/
theorem mem_go_iff {fuel : Nat}
    : found ∈ getConnectedNodes.go connections selector fuel nodeName depth checkedNodes
      ↔ ∃ places,
          Walk (connections.Leads selector) nodeName places found
          ∧ places ≠ []
          ∧ (nodeName :: places).Nodup
          ∧ (∀ place ∈ nodeName :: places, place ∉ checkedNodes)
          ∧ WithinDepth depth places.length
          ∧ places.length ≤ fuel := by
  induction fuel generalizing nodeName depth checkedNodes with
  | zero =>
      rw [getConnectedNodes.go]
      refine iff_of_false List.not_mem_nil ?_
      intro ⟨places, _, moves, _, _, _, short⟩
      exact moves (List.length_eq_zero_iff.mp (Nat.le_zero.mp short))
  | succ fuel ih =>
      rw [mem_go_succ]
      constructor
      · intro ⟨deeper, unchecked, next, leads, fresh, finds⟩
        have apart : next ∉ checkedNodes ∧ next ≠ nodeName := by simpa using fresh
        rcases finds with rfl | later
        · refine ⟨[found], .single leads, by simp, ?_, ?_, ?_, by simp⟩
          · simpa using apart.2.symm
          · simpa using ⟨unchecked, apart.1⟩
          · intro limit same
            have positive : limit ≠ 0 := fun zero => deeper (by rw [same, zero])
            simp only [List.length_singleton]
            omega
        · obtain ⟨places, walk, _, distinct, avoids, within, short⟩ := ih.mp later
          have apartFrom : ∀ place ∈ next :: places, place ∉ checkedNodes ∧ place ≠ nodeName :=
            fun place member => by simpa using avoids place member
          refine ⟨next :: places, .cons leads walk, by simp, ?_, ?_, ?_, ?_⟩
          · refine List.nodup_cons.mpr ⟨fun again => ?_, distinct⟩
            exact (apartFrom nodeName again).2 rfl
          · intro place member
            rcases List.mem_cons.mp member with rfl | inside
            · exact unchecked
            · exact (apartFrom place inside).1
          · intro limit same
            have positive : limit ≠ 0 := fun zero => deeper (by rw [same, zero])
            have less := within (limit - 1) (by rw [same]; rfl)
            simp only [List.length_cons]
            omega
          · simpa using short
      · intro ⟨places, walk, moves, distinct, avoids, within, short⟩
        cases walk with
        | nil _ => contradiction
        | @cons _ next _ rest leads walk =>
            obtain ⟨apart, distinctRest⟩ := List.nodup_cons.mp distinct
            have fresh : ∀ place ∈ next :: rest, place ∉ checkedNodes ++ [nodeName] := by
              intro place member
              have unchecked := avoids place (.tail _ member)
              have differ : place ≠ nodeName := fun same => apart (same ▸ member)
              simp [unchecked, differ]
            refine ⟨?_, avoids nodeName (by simp), next, leads, fresh next (by simp), ?_⟩
            · intro zero
              have less := within 0 zero
              simp at less
            · cases rest with
              | nil =>
                  cases walk
                  exact .inl rfl
              | cons second others =>
                  refine .inr (ih.mpr ⟨_, walk, by simp, distinctRest, fresh, ?_, ?_⟩)
                  · intro limit same
                    obtain ⟨whole, here, rfl⟩ := Option.map_eq_some_iff.mp same
                    have less := within whole here
                    simp only [List.length_cons] at less ⊢
                    omega
                  · simp only [List.length_cons] at short ⊢
                    omega

/-- A walk through different nodes has no more steps than there are nodes with
connections.
-/
theorem length_le_of_nodup {places : List String}
    (walk : Walk (connections.Leads selector) nodeName places found)
    (distinct : (nodeName :: places).Nodup)
    : places.length ≤ connections.entries.length := by
  have left : ((nodeName :: places).dropLast).Nodup :=
    distinct.sublist (List.dropLast_sublist _)
  have known : (nodeName :: places).dropLast ⊆ connections.keys := by
    intro place member
    obtain ⟨next, nodeConnections, present, _⟩ := walk.leaves member
    exact Dict.mem_keys_of_get? present
  have count := (List.subperm_of_subset left known).length_le
  simpa [Dict.keys] using count

/-- The connected nodes are the other nodes that a walk of no more than `depth` steps leads
to.
-/
theorem mem_getConnectedNodes_iff
    : found ∈ getConnectedNodes connections nodeName selector depth
      ↔ found ≠ nodeName
        ∧ ∃ places,
            Walk (connections.Leads selector) nodeName places found
            ∧ WithinDepth depth places.length := by
  rw [getConnectedNodes, mem_go_iff]
  constructor
  · intro ⟨places, walk, moves, distinct, _, within, _⟩
    refine ⟨fun same => ?_, places, walk, within⟩
    exact (List.nodup_cons.mp distinct).1 (same ▸ walk.last_mem moves)
  · intro ⟨differ, places, walk, within⟩
    obtain ⟨rest, further, distinct, shorter⟩ := walk.exists_nodup
    refine ⟨rest, further, ?_, distinct, by simp, ?_, ?_⟩
    · intro empty
      subst empty
      cases further
      exact differ rfl
    · intro limit same
      have fewer := List.Sublist.length_le shorter
      simp only [List.length_cons] at fewer
      exact (Nat.le_of_succ_le_succ fewer).trans (within limit same)
    · exact (length_le_of_nodup further distinct).trans (Nat.le_succ _)

/-- Parents and children are converse wherever the connections are. -/
theorem mem_getParentNodes_iff {bySource byDestination : IConnections}
    (converse
      : ∀ parent child,
          byDestination.Leads selector child parent ↔ bySource.Leads selector parent child)
    (parent child : String) (depth : Option Nat)
    : parent ∈ getParentNodes byDestination child selector depth
      ↔ child ∈ getChildNodes bySource parent selector depth := by
  rw [getParentNodes, getChildNodes, mem_getConnectedNodes_iff, mem_getConnectedNodes_iff,
    ne_comm]
  refine and_congr_right (fun _ => ?_)
  constructor
  · intro ⟨places, walk, within⟩
    obtain ⟨back, backward, same⟩ := walk.reverse
    exact ⟨back, backward.mono (fun _ _ leads => (converse _ _).mp leads), same ▸ within⟩
  · intro ⟨places, walk, within⟩
    obtain ⟨back, backward, same⟩ := walk.reverse
    exact ⟨back, backward.mono (fun _ _ leads => (converse _ _).mpr leads), same ▸ within⟩

end N8n
