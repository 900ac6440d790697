import N8n.Workflow.ParentsAndChildren

/-! The table of connections by destination
(`packages/workflow/src/common/map-connections-by-destination.ts`) has each connection of the
table by source, seen from its other end.
-/

namespace N8n

/-- The innermost loop body, for one connection of an output. No node is named like a member
of `Object.prototype`, so that `hasOwnProperty` finds the own entries.
-/
def pushConnection (sourceNode : String) (type : NodeConnectionType) (inputIndex : Nat)
    (returnConnection : IConnections) (connectionInfo : IConnection)
    : IConnections :=
  let ofNode := (returnConnection.get? connectionInfo.node).getD .empty
  let ofType := (ofNode.get? connectionInfo.type).getD []
  let filled :=
    ofType ++ List.replicate (connectionInfo.index + 1 - ofType.length) (some [])
  let pushed :=
    filled.modify connectionInfo.index
      (Option.map (fun connections => connections ++ [⟨sourceNode, type, inputIndex⟩]))
  returnConnection.set connectionInfo.node (ofNode.set connectionInfo.type pushed)

def mapConnectionsByDestination (connections : IConnections) : IConnections :=
  connections.entries.foldl
    (fun returnConnection ofSource =>
      ofSource.2.entries.foldl
        (fun returnConnection ofType =>
          ofType.2.zipIdx.foldl
            (fun returnConnection ofIndex =>
              (ofIndex.1.getD []).foldl (pushConnection ofSource.1 ofType.1 ofIndex.2)
                returnConnection)
            returnConnection)
        returnConnection)
    .empty

namespace IConnections

/-- The table has the connection at the given node, type and index. -/
def HasEdge (connections : IConnections) (place connection : IConnection) : Prop :=
  ∃ ofNode, connections.get? place.node = some ofNode
    ∧ ∃ ofType, ofNode.get? place.type = some ofType
      ∧ connection ∈ ofType.at place.index

/-- No node is named like a member of `Object.prototype`. -/
structure OrdinaryNames (connections : IConnections) : Prop where
  sources : ∀ nodeName ∈ connections.keys, nodeName ∉ inheritedNames
  targets : ∀ place connection,
    connections.HasEdge place connection → connection.node ∉ inheritedNames

/-- The connections with their places, in order. -/
def edges (connections : IConnections) : List (IConnection × IConnection) :=
  connections.entries.flatMap (fun ofNode =>
    ofNode.2.entries.flatMap (fun ofType =>
      ofType.2.zipIdx.flatMap (fun ofIndex =>
        (ofIndex.1.getD []).map (fun connection =>
          (⟨ofNode.1, ofType.1, ofIndex.2⟩, connection)))))

end IConnections

variable {connection : IConnection}

theorem NodeInputConnections.mem_at_iff {byIndex : NodeInputConnections} {index : Nat}
    : connection ∈ byIndex.at index
      ↔ ∃ connections, byIndex[index]? = some (some connections) ∧ connection ∈ connections := by
  unfold NodeInputConnections.at
  cases here : byIndex[index]? with
  | none => simp
  | some atIndex => cases atIndex <;> simp

variable {connections : IConnections} {place : IConnection}

theorem IConnections.mem_edges_iff
    : (place, connection) ∈ connections.edges ↔ connections.HasEdge place connection := by
  simp only [edges, List.mem_flatMap, List.mem_map, Prod.mk.injEq]
  constructor
  · intro ⟨ofNode, inNode, ofType, inType, ofIndex, inIndex, _, member, same, rfl⟩
    subst same
    have here := List.mem_zipIdx_iff_getElem?.mp inIndex
    refine ⟨ofNode.2, Dict.mem_entries_iff.mp inNode, ofType.2, Dict.mem_entries_iff.mp inType,
      NodeInputConnections.mem_at_iff.mpr ?_⟩
    cases atIndex : ofIndex.1 with
    | none =>
        rw [atIndex] at member
        contradiction
    | some list =>
        rw [atIndex] at member here
        exact ⟨list, here, member⟩
  · intro ⟨ofNode, inNode, ofType, inType, member⟩
    obtain ⟨list, here, inside⟩ := NodeInputConnections.mem_at_iff.mp member
    exact ⟨(place.node, ofNode), Dict.mem_entries_iff.mpr inNode, (place.type, ofType),
      Dict.mem_entries_iff.mpr inType, (some list, place.index),
      List.mem_zipIdx_iff_getElem?.mpr here, connection, inside, rfl, rfl⟩

/-- The connections of a node and type, none where the table has no entry. -/
def IConnections.ofType (connections : IConnections) (nodeName : String)
    (type : NodeConnectionType)
    : NodeInputConnections :=
  ((connections.get? nodeName).bind (fun ofNode => ofNode.get? type)).getD []

theorem IConnections.hasEdge_iff
    : connections.HasEdge place connection
      ↔ connection ∈ (connections.ofType place.node place.type).at place.index := by
  unfold HasEdge IConnections.ofType
  cases inNode : connections.get? place.node with
  | none => simp [NodeInputConnections.at]
  | some ofNode =>
      cases inType : ofNode.get? place.type with
      | none => simp [NodeInputConnections.at, inType]
      | some ofType => simp [inType]

/-- No index of the table is `null`. -/
def IConnections.NullFree (connections : IConnections) : Prop :=
  ∀ nodeName type, none ∉ connections.ofType nodeName type

namespace NodeInputConnections

/-- The array long enough for the index, and the connection added there. -/
def push (byIndex : NodeInputConnections) (index : Nat) (connection : IConnection)
    : NodeInputConnections :=
  (byIndex ++ List.replicate (index + 1 - byIndex.length) (some [])).modify index
    (Option.map (fun connections => connections ++ [connection]))

variable {byIndex : NodeInputConnections} {index other : Nat} {connection added : IConnection}

theorem not_mem_push (nullFree : none ∉ byIndex) : none ∉ byIndex.push index added := by
  intro member
  obtain ⟨position, inside, same⟩ := List.mem_iff_getElem.mp member
  have filled : none ∉ byIndex ++ List.replicate (index + 1 - byIndex.length) (some []) := by
    simp [nullFree]
  have before := List.getElem_mem (l := byIndex
    ++ List.replicate (index + 1 - byIndex.length) (some [])) (by simpa [push] using inside)
  simp only [push, List.getElem_modify] at same
  split at same
  · exact filled (Option.map_eq_none_iff.mp same ▸ before)
  · exact filled (same ▸ before)

/-- What is in the places of the longer array was there, and its new places are empty. -/
theorem at_fill (byIndex : NodeInputConnections) (index other : Nat)
    : NodeInputConnections.at
          (byIndex ++ List.replicate (index + 1 - byIndex.length) (some [])) other
      = byIndex.at other := by
  simp only [NodeInputConnections.at, List.getElem?_append, List.getElem?_replicate]
  split
  · rfl
  · next outside =>
      rw [List.getElem?_eq_none (Nat.le_of_not_lt outside)]
      split <;> rfl

theorem at_modify {slots : NodeInputConnections} (inside : index < slots.length)
    (nullFree : none ∉ slots)
    : NodeInputConnections.at
          (slots.modify index (Option.map (fun connections => connections ++ [added]))) other
      = slots.at other ++ if other = index then [added] else [] := by
  unfold NodeInputConnections.at
  by_cases same : other = index
  · subst same
    cases here : slots[other] with
    | none => exact absurd (here ▸ List.getElem_mem inside) nullFree
    | some connections =>
        have there : slots[other]? = some (some connections) := by
          rw [List.getElem?_eq_getElem inside, here]
        simp [List.getElem?_modify_eq, there]
  · simp [List.getElem?_modify_ne _ _ (Ne.symm same), same]

theorem at_push (nullFree : none ∉ byIndex)
    : (byIndex.push index added).at other
      = byIndex.at other ++ if other = index then [added] else [] := by
  rw [← at_fill byIndex index other, push]
  apply at_modify
  · simp only [List.length_append, List.length_replicate]
    omega
  · simp [nullFree]

end NodeInputConnections

variable {returnConnection connections : IConnections}
  {sourceNode : String} {type : NodeConnectionType} {inputIndex : Nat}
  {connectionInfo place connection : IConnection}

theorem ofType_push (nodeName : String) (ofType : NodeConnectionType)
    : (pushConnection sourceNode type inputIndex returnConnection connectionInfo).ofType nodeName
          ofType
      = if nodeName = connectionInfo.node ∧ ofType = connectionInfo.type then
          (returnConnection.ofType nodeName ofType).push connectionInfo.index
            ⟨sourceNode, type, inputIndex⟩
        else returnConnection.ofType nodeName ofType := by
  simp only [pushConnection, IConnections.ofType, Dict.get?_set]
  by_cases sameNode : nodeName = connectionInfo.node
  · subst sameNode
    by_cases sameType : ofType = connectionInfo.type
    · subst sameType
      cases returnConnection.get? connectionInfo.node <;> simp [NodeInputConnections.push]
    · cases returnConnection.get? connectionInfo.node <;>
        simp [Dict.get?_set, sameType]
  · simp [sameNode]

theorem nullFree_push (nullFree : returnConnection.NullFree)
    : (pushConnection sourceNode type inputIndex returnConnection connectionInfo).NullFree := by
  intro nodeName ofType
  rw [ofType_push]
  split
  · exact NodeInputConnections.not_mem_push (nullFree nodeName ofType)
  · exact nullFree nodeName ofType

theorem hasEdge_push (nullFree : returnConnection.NullFree)
    : (pushConnection sourceNode type inputIndex returnConnection connectionInfo).HasEdge place
          connection
      ↔ returnConnection.HasEdge place connection
        ∨ place = connectionInfo ∧ connection = ⟨sourceNode, type, inputIndex⟩ := by
  rw [IConnections.hasEdge_iff, IConnections.hasEdge_iff, ofType_push]
  obtain ⟨node, placeType, index⟩ := place
  obtain ⟨infoNode, infoType, infoIndex⟩ := connectionInfo
  simp only [IConnection.mk.injEq]
  split
  · next same =>
      rw [NodeInputConnections.at_push (nullFree node placeType), List.mem_append]
      by_cases sameIndex : index = infoIndex <;> simp [same, sameIndex]
  · next differ =>
      refine (or_iff_left ?_).symm
      intro ⟨⟨sameNode, sameType, _⟩, _⟩
      exact differ ⟨sameNode, sameType⟩

/-- The loops over the table are one loop over its connections. -/
theorem mapConnectionsByDestination_eq (connections : IConnections)
    : mapConnectionsByDestination connections
      = connections.edges.foldl
          (fun returnConnection edge =>
            pushConnection edge.1.node edge.1.type edge.1.index returnConnection edge.2)
          .empty := by
  simp only [mapConnectionsByDestination, IConnections.edges, List.foldl_flatMap,
    List.foldl_map]

theorem hasEdge_foldl_push (edges : List (IConnection × IConnection))
    (nullFree : returnConnection.NullFree)
    : (edges.foldl
          (fun returnConnection edge =>
            pushConnection edge.1.node edge.1.type edge.1.index returnConnection edge.2)
          returnConnection).HasEdge place connection
      ↔ returnConnection.HasEdge place connection ∨ (connection, place) ∈ edges := by
  induction edges generalizing returnConnection with
  | nil => simp
  | cons edge rest ih =>
      rw [List.foldl_cons, ih (nullFree_push nullFree), hasEdge_push nullFree, or_assoc,
        List.mem_cons]
      obtain ⟨source, target⟩ := edge
      simp only [Prod.mk.injEq]
      exact or_congr_right (or_congr_left and_comm)

/-- The edges of the table by destination are those of the table by source, turned round. -/
theorem mapConnectionsByDestination_hasEdge
    : (mapConnectionsByDestination connections).HasEdge place connection
      ↔ connections.HasEdge connection place := by
  have empty : IConnections.NullFree .empty := by
    intro nodeName ofType
    simp [IConnections.ofType]
  rw [mapConnectionsByDestination_eq, hasEdge_foldl_push _ empty, IConnections.mem_edges_iff,
    IConnections.hasEdge_iff]
  simp [IConnections.ofType, NodeInputConnections.at]

variable {α β : Type} {items : List α} {gives : α → List β}

/-- What one item alone gives is found there, by induction over the items. -/
theorem filter_flatMap_of_unique [DecidableEq α] {keep : β → Bool} (item : α)
    (distinct : items.Nodup)
    (others : ∀ other ∈ items, other ≠ item → (gives other).filter keep = [])
    : (items.flatMap gives).filter keep
      = if item ∈ items then (gives item).filter keep else [] := by
  induction items with
  | nil => simp
  | cons first rest ih =>
      obtain ⟨notLater, distinctRest⟩ := List.nodup_cons.mp distinct
      have ofRest := ih distinctRest (fun other inRest =>
        others other (.tail _ inRest))
      rw [List.flatMap_cons, List.filter_append, ofRest]
      by_cases same : item = first
      · subst same
        simp [notLater]
      · rw [others first (.head _) (Ne.symm same)]
        simp [same]

theorem count_flatMap_of_unique [DecidableEq α] [BEq β] [LawfulBEq β] {item : α} {given : β}
    (member : item ∈ items) (distinct : items.Nodup)
    (only : ∀ other ∈ items, given ∈ gives other → other = item)
    : (items.flatMap gives).count given = (gives item).count given := by
  rw [List.count_eq_length_filter, List.count_eq_length_filter,
    filter_flatMap_of_unique item distinct, if_pos member]
  intro other inside different
  refine List.filter_eq_nil_iff.mpr fun element gave same => ?_
  exact different (only other inside (eq_of_beq same ▸ gave))

theorem count_edges (connections : IConnections) (place connection : IConnection)
    : connections.edges.count (place, connection)
      = ((connections.ofType place.node place.type).at place.index).count connection := by
  by_cases edge : connections.HasEdge place connection
  · obtain ⟨ofNode, inNode, ofType, inType, member⟩ := edge
    obtain ⟨list, here, -⟩ := NodeInputConnections.mem_at_iff.mp member
    have inNodes : (place.node, ofNode) ∈ connections.entries := Dict.mem_entries_iff.mpr inNode
    have inTypes : (place.type, ofType) ∈ ofNode.entries := Dict.mem_entries_iff.mpr inType
    have inIndexes : (some list, place.index) ∈ ofType.zipIdx :=
      List.mem_zipIdx_iff_getElem?.mpr here
    have distinctIndexes : (ofType.zipIdx.map Prod.snd).Nodup := by
      rw [List.zipIdx_map_snd]
      exact List.nodup_range'
    have there : (connections.ofType place.node place.type).at place.index = list := by
      simp [IConnections.ofType, NodeInputConnections.at, inNode, inType, here]
    have placed : Function.Injective (fun connection : IConnection => (place, connection)) :=
      fun _ _ same => congrArg Prod.snd same
    rw [there, IConnections.edges]
    rw [count_flatMap_of_unique inNodes (List.Nodup.of_map Prod.fst connections.nodup),
      count_flatMap_of_unique inTypes (List.Nodup.of_map Prod.fst ofNode.nodup),
      count_flatMap_of_unique inIndexes (List.Nodup.of_map Prod.snd distinctIndexes)]
    · exact List.count_map_of_injective list _ placed connection
    · intro other inOther gave
      simp only [List.mem_map, Prod.mk.injEq] at gave
      obtain ⟨_, -, same, -⟩ := gave
      have sameIndex : other.2 = place.index := congrArg IConnection.index same
      have again := List.mem_zipIdx_iff_getElem?.mp inOther
      rw [sameIndex, here] at again
      exact Prod.ext (Option.some.inj again).symm sameIndex
    · intro other inOther gave
      simp only [List.mem_flatMap, List.mem_map, Prod.mk.injEq] at gave
      obtain ⟨_, -, _, -, same, -⟩ := gave
      exact Dict.eq_of_mem_entries inOther inTypes (congrArg IConnection.type same)
    · intro other inOther gave
      simp only [List.mem_flatMap, List.mem_map, Prod.mk.injEq] at gave
      obtain ⟨_, -, _, -, _, -, same, -⟩ := gave
      exact Dict.eq_of_mem_entries inOther inNodes (congrArg IConnection.node same)
  · rw [List.count_eq_zero_of_not_mem (mt IConnections.mem_edges_iff.mp edge),
      List.count_eq_zero_of_not_mem (mt IConnections.hasEdge_iff.mpr edge)]

theorem count_push (nullFree : returnConnection.NullFree)
    : (((pushConnection sourceNode type inputIndex returnConnection connectionInfo).ofType
          place.node place.type).at place.index).count connection
      = ((returnConnection.ofType place.node place.type).at place.index).count connection
        + if (⟨sourceNode, type, inputIndex⟩, connectionInfo) = (connection, place) then 1
          else 0 := by
  rw [ofType_push]
  obtain ⟨node, placeType, index⟩ := place
  obtain ⟨infoNode, infoType, infoIndex⟩ := connectionInfo
  simp only [Prod.mk.injEq, IConnection.mk.injEq]
  split
  · next same =>
      obtain ⟨rfl, rfl⟩ := same
      rw [NodeInputConnections.at_push (nullFree node placeType), List.count_append]
      by_cases sameIndex : index = infoIndex
      · simp [sameIndex, List.count_singleton]
      · simp [sameIndex, Ne.symm sameIndex]
  · next differ =>
      rw [if_neg, Nat.add_zero]
      rintro ⟨-, sameNode, sameType, -⟩
      exact differ ⟨sameNode.symm, sameType.symm⟩

/-- The counted edges of the table by destination, by induction over the loop. -/
theorem count_foldl_push (edges : List (IConnection × IConnection))
    (nullFree : returnConnection.NullFree)
    : (((edges.foldl
          (fun returnConnection edge =>
            pushConnection edge.1.node edge.1.type edge.1.index returnConnection edge.2)
          returnConnection).ofType place.node place.type).at place.index).count connection
      = ((returnConnection.ofType place.node place.type).at place.index).count connection
        + edges.count (connection, place) := by
  induction edges generalizing returnConnection with
  | nil => simp
  | cons edge rest ih =>
      rw [List.foldl_cons, ih (nullFree_push nullFree), count_push nullFree, List.count_cons,
        Nat.add_assoc, Nat.add_comm (rest.count _)]
      simp only [beq_iff_eq]

theorem mapConnectionsByDestination_count (connections : IConnections)
    (place connection : IConnection)
    : (mapConnectionsByDestination connections).edges.count (place, connection)
      = connections.edges.count (connection, place) := by
  have empty : IConnections.NullFree .empty := by
    intro nodeName ofType
    simp [IConnections.ofType]
  rw [count_edges, mapConnectionsByDestination_eq, count_foldl_push _ empty]
  simp [IConnections.ofType, NodeInputConnections.at]

theorem mapConnectionsByDestination_twice (connections : IConnections)
    : (mapConnectionsByDestination (mapConnectionsByDestination connections)).edges.Perm
        connections.edges := by
  refine List.perm_iff_count.mpr fun (place, connection) => ?_
  rw [mapConnectionsByDestination_count, mapConnectionsByDestination_count]

end N8n
