import N8n.Library.Runs
import N8n.Workflow.MapConnectionsByDestination

/-! The two tables of connections that a workflow keeps, under the calls that change them
(`packages/workflow/src/workflow.ts`). Renaming a node changes the table by source alone.
-/

namespace N8n

open Runs

def restrictedKeys : List String :=
  [
    "hasOwnProperty", "isPrototypeOf", "propertyIsEnumerable", "toLocaleString", "toString",
    "valueOf", "constructor", "prototype", "__proto__", "__defineGetter__",
    "__defineSetter__", "__lookupGetter__", "__lookupSetter__"
  ]

/-- `toLowerCase`, as far as it makes letters of ASCII: the Kelvin sign is one more `K`. -/
def toLowerCase (text : String) : String :=
  text.map (fun char => if char.toNat = 0x212A then 'k' else char.toLower)

def isRestricted (newName : String) : Bool :=
  (restrictedKeys.map toLowerCase).contains (toLowerCase newName)

def renameSource (connections : IConnections) (currentName newName : String) : IConnections :=
  match connections.get? currentName with
  | some ofSource => (connections.set newName ofSource).delete currentName
  | none => connections

/-- A connection after its destination has been renamed. -/
def IConnection.renamed (currentName newName : String) (connectionData : IConnection)
    : IConnection :=
  if connectionData.node = currentName then { connectionData with node := newName }
  else connectionData

/-- The loops over all source connections. -/
def renameDestinations (connections : IConnections) (currentName newName : String)
    : IConnections :=
  connections.mapValues (fun ofSource =>
    ofSource.mapValues (fun ofType =>
      ofType.map (Option.map (List.map (IConnection.renamed currentName newName)))))

namespace Workflow

def setNodes (nodes : List INode) : Dict String INode := Dict.empty.insertAll INode.name nodes

def setConnections (self : Workflow) (connections : IConnections) : Workflow :=
  {
    self with
    connectionsBySourceNode := connections
    connectionsByDestinationNode := mapConnectionsByDestination connections
  }

/-- The constructor, as far as nodes and connections are concerned. -/
def new (nodes : List INode) (connections : IConnections) (settings : IWorkflowSettings)
    : Workflow :=
  setConnections
    {
      nodes := setNodes nodes
      connectionsBySourceNode := .empty
      connectionsByDestinationNode := .empty
      settings
    }
    connections

/-- The node and its connections under the new name. No connection depends on the
references in the parameters, which are renamed too.
-/
def renameNode (self : Workflow) (currentName newName : String) : Except JsError Workflow :=
  if isRestricted newName then
    throw
      (.error "UserError" ("Node name \"" ++ newName ++ "\" is a restricted name.")
        (some ("Node names cannot be any of the following: "
          ++ ", ".intercalate restrictedKeys)))
  else
    let nodes :=
      match self.nodes.get? currentName with
      | some node => (self.nodes.set newName { node with name := newName }).delete currentName
      | none => self.nodes
    return {
      self with
      nodes
      connectionsBySourceNode :=
        renameDestinations (renameSource self.connectionsBySourceNode currentName newName)
          currentName newName
    }

inductive Change where
  | setConnections (connections : IConnections)
  | renameNode (currentName newName : String)

/-- A call that throws changes nothing. -/
def step (self : Workflow) : Change → Option Workflow
  | .setConnections connections => some (self.setConnections connections)
  | .renameNode currentName newName =>
      some (match self.renameNode currentName newName with
        | .ok renamed => renamed
        | .error _ => self)

end Workflow

/-- The selector selects the type. -/
def ConnectionSelector.Selects : ConnectionSelector → NodeConnectionType → Prop
  | .all, _ => True
  | .allNonMain, type => type ≠ .main
  | .single selected, type => type = selected

theorem IConnections.leads_iff {connections : IConnections} {selector : ConnectionSelector}
    {nodeName other : String}
    : connections.Leads selector nodeName other
      ↔ ∃ place connection,
          connections.HasEdge place connection
          ∧ place.node = nodeName
          ∧ connection.node = other
          ∧ selector.Selects place.type := by
  constructor
  · intro ⟨ofNode, inNode, type, selected, ofType, inType, connection, member, same⟩
    obtain ⟨atIndex, inside, listed⟩ := List.mem_flatMap.mp member
    obtain ⟨index, bound, here⟩ := List.mem_iff_getElem.mp inside
    refine ⟨⟨nodeName, type, index⟩, connection, ⟨ofNode, inNode, ofType, inType, ?_⟩, rfl,
      same, ?_⟩
    · cases atIndex with
      | none => contradiction
      | some list =>
          exact NodeInputConnections.mem_at_iff.mpr
            ⟨list, by rw [List.getElem?_eq_getElem bound, here], listed⟩
    · cases selector with
      | all => trivial
      | allNonMain => simpa [ConnectionSelector.types, ConnectionSelector.Selects] using
          (List.mem_filter.mp selected).2
      | single wanted => exact List.mem_singleton.mp selected
  · intro ⟨place, connection, edge, sameNode, same, selects⟩
    subst sameNode
    obtain ⟨ofNode, inNode, ofType, inType, member⟩ := edge
    obtain ⟨list, here, listed⟩ := NodeInputConnections.mem_at_iff.mp member
    refine ⟨ofNode, inNode, place.type, ?_, ofType, inType, connection, ?_, same⟩
    · have known := Dict.mem_keys_of_get? inType
      cases selector with
      | all => exact known
      | allNonMain =>
          exact List.mem_filter.mpr
            ⟨known, by simpa [ConnectionSelector.Selects] using selects⟩
      | single wanted => exact List.mem_singleton.mpr selects
    · exact List.mem_flatMap.mpr ⟨some list, List.mem_of_getElem? here, listed⟩

/-- Parents and children of the selected types are each other's converse. -/
def Workflow.ParentsConverseChildren (self : Workflow) (selector : ConnectionSelector)
    : Prop :=
  ∀ parent child depth,
    parent ∈ N8n.getParentNodes self.connectionsByDestinationNode child selector depth
      ↔ child ∈ getChildNodes self.connectionsBySourceNode parent selector depth

/-- The tables have the same edges, so that parents and children are converse, also for
single types where no connection leads from one type to another.
-/
structure Workflow.TablesAgree (w : Workflow) : Prop where
  edges
    : ∀ place connection,
        w.connectionsByDestinationNode.HasEdge place connection
          ↔ (mapConnectionsByDestination w.connectionsBySourceNode).HasEdge place connection
  converse : w.ParentsConverseChildren .all
  converseOfType
    : (∀ place connection, w.connectionsBySourceNode.HasEdge place connection
        → place.type = connection.type)
      → ∀ selector, w.ParentsConverseChildren selector

variable {w : Workflow} {currentName newName : String}

/-- Equal edges are enough. -/
theorem Workflow.tablesAgree_of_edges
    (edges
      : ∀ place connection,
          w.connectionsByDestinationNode.HasEdge place connection
            ↔ w.connectionsBySourceNode.HasEdge connection place)
    : w.TablesAgree := by
  have converse (selector : ConnectionSelector)
      (selects
        : ∀ place connection, w.connectionsBySourceNode.HasEdge place connection
            → (selector.Selects place.type ↔ selector.Selects connection.type))
      : w.ParentsConverseChildren selector := by
    intro parent child depth
    apply mem_getParentNodes_iff
    intro parent child
    rw [IConnections.leads_iff, IConnections.leads_iff]
    constructor
    · intro ⟨place, connection, edge, here, there, selected⟩
      have turned := (edges place connection).mp edge
      exact ⟨connection, place, turned, there, here, (selects _ _ turned).mpr selected⟩
    · intro ⟨place, connection, edge, here, there, selected⟩
      exact ⟨connection, place, (edges connection place).mpr edge, there, here,
        (selects _ _ edge).mp selected⟩
  refine ⟨?_, converse .all (fun _ _ _ => Iff.rfl), ?_⟩
  · intro place connection
    rw [edges, mapConnectionsByDestination_hasEdge]
  · intro sameTypes selector
    exact converse selector (fun place connection edge => by rw [sameTypes _ _ edge])

variable {connections : IConnections} {place connection : IConnection}

theorem NodeInputConnections.mem_at_map_iff {byIndex : NodeInputConnections}
    {change : IConnection → IConnection} {index : Nat}
    : connection ∈ NodeInputConnections.at (byIndex.map (Option.map (List.map change))) index
      ↔ ∃ before ∈ byIndex.at index, change before = connection := by
  simp only [NodeInputConnections.at, List.getElem?_map]
  cases byIndex[index]? with
  | none => simp
  | some atIndex => cases atIndex <;> simp

theorem ofType_renameDestinations (nodeName : String) (type : NodeConnectionType)
    : (renameDestinations connections currentName newName).ofType nodeName type
      = (connections.ofType nodeName type).map
          (Option.map (List.map (IConnection.renamed currentName newName))) := by
  simp only [IConnections.ofType, renameDestinations, Dict.get?_mapValues]
  cases connections.get? nodeName with
  | none => rfl
  | some ofNode => cases inType : ofNode.get? type <;> simp [inType]

theorem hasEdge_renameDestinations
    : (renameDestinations connections currentName newName).HasEdge place connection
      ↔ ∃ before,
          connections.HasEdge place before
          ∧ before.renamed currentName newName = connection := by
  simp only [IConnections.hasEdge_iff, ofType_renameDestinations,
    NodeInputConnections.mem_at_map_iff]

theorem hasEdge_renameSource (known : currentName ∈ connections.keys)
    : (renameSource connections currentName newName).HasEdge place connection
      ↔ place.node ≠ currentName
        ∧ if place.node = newName then
            connections.HasEdge { place with node := currentName } connection
          else connections.HasEdge place connection := by
  obtain ⟨ofSource, present⟩ := Dict.exists_get?_of_mem_keys known
  simp only [IConnections.HasEdge, renameSource, present, Dict.get?_delete, Dict.get?_set]
  by_cases same : place.node = currentName
  · simp [same]
  · by_cases moved : place.node = newName <;> simp [same, moved]

/-- No edge changes: none begins at the node or ends at it under its current name, and none
is replaced by its connections, should there be an entry for it.
-/
def Workflow.Unaffected (w : Workflow) (currentName newName : String) : Prop :=
  ∀ place connection,
    w.connectionsBySourceNode.HasEdge place connection
    → place.node ≠ currentName
      ∧ (connection.node = currentName → newName = currentName)
      ∧ (currentName ∈ w.connectionsBySourceNode.keys → place.node ≠ newName)

theorem hasEdge_of_known (edge : connections.HasEdge place connection)
    : place.node ∈ connections.keys := by
  obtain ⟨ofNode, inNode, _⟩ := edge
  exact Dict.mem_keys_of_get? inNode

theorem IConnection.renamed_node (connection : IConnection)
    : (connection.renamed currentName newName).node = currentName → newName = currentName := by
  unfold renamed
  split
  · exact id
  · next differ => exact fun same => absurd same differ

theorem IConnection.renamed_of_kept
    (kept : connection.node = currentName → newName = currentName)
    : connection.renamed currentName newName = connection := by
  unfold renamed
  split
  · next same => rw [kept same, ← same]
  · rfl

/-- Renaming leaves the edges as they are exactly if none of them is affected. -/
theorem renamed_edges_iff (w : Workflow) (currentName newName : String)
    : (∀ place connection,
        (renameDestinations (renameSource w.connectionsBySourceNode currentName newName)
            currentName newName).HasEdge place connection
          ↔ w.connectionsBySourceNode.HasEdge place connection)
      ↔ w.Unaffected currentName newName := by
  constructor
  · intro unchanged
    have noSource : ∀ place connection,
        w.connectionsBySourceNode.HasEdge place connection → place.node ≠ currentName := by
      intro place connection edge same
      obtain ⟨before, moved, _⟩ :=
        hasEdge_renameDestinations.mp ((unchanged place connection).mpr edge)
      have known : currentName ∈ w.connectionsBySourceNode.keys :=
        same ▸ hasEdge_of_known edge
      exact ((hasEdge_renameSource known).mp moved).1 same
    intro place connection edge
    obtain ⟨before, moved, renamed⟩ :=
      hasEdge_renameDestinations.mp ((unchanged place connection).mpr edge)
    refine ⟨noSource place connection edge, ?_, ?_⟩
    · intro same
      rw [← renamed] at same
      exact before.renamed_node same
    · intro known same
      have replaced := ((hasEdge_renameSource known).mp moved).2
      rw [if_pos same] at replaced
      exact noSource _ _ replaced rfl
  · intro unaffected place connection
    rw [hasEdge_renameDestinations]
    have moved (connection : IConnection)
        : (renameSource w.connectionsBySourceNode currentName newName).HasEdge place connection
          ↔ w.connectionsBySourceNode.HasEdge place connection := by
      by_cases known : currentName ∈ w.connectionsBySourceNode.keys
      · rw [hasEdge_renameSource known]
        constructor
        · intro ⟨differ, edge⟩
          split at edge
          · exact absurd rfl (unaffected _ _ edge).1
          · exact edge
        · intro edge
          obtain ⟨differ, _, apart⟩ := unaffected place connection edge
          rw [if_neg (apart known)]
          exact ⟨differ, edge⟩
      · rw [renameSource, Dict.get?_eq_none_iff.mpr known]
    constructor
    · intro ⟨before, edge, renamed⟩
      have here := (moved before).mp edge
      rw [IConnection.renamed_of_kept (unaffected _ _ here).2.1] at renamed
      exact renamed ▸ here
    · intro edge
      exact ⟨connection, (moved connection).mpr edge,
        IConnection.renamed_of_kept (unaffected _ _ edge).2.1⟩

namespace Workflow

theorem tablesAgree_setConnections (w : Workflow) (connections : IConnections)
    : (w.setConnections connections).TablesAgree :=
  tablesAgree_of_edges (fun _ _ => mapConnectionsByDestination_hasEdge)

/-- The change throws, or leaves all edges as they are, unless it sets new connections. -/
def Keeps (w : Workflow) : Change → Prop
  | .setConnections _ => True
  | .renameNode currentName newName =>
      isRestricted newName = true ∨ w.Unaffected currentName newName

/-- From tables that agree, a change leads to tables that agree exactly if it keeps the
edges.
-/
theorem TablesAgree.step_iff (agree : w.TablesAgree) {change : Change} {next : Workflow}
    (taken : w.step change = some next)
    : next.TablesAgree ↔ w.Keeps change := by
  cases change with
  | setConnections connections =>
      cases taken
      exact iff_of_true (tablesAgree_setConnections w _) trivial
  | renameNode currentName newName =>
      cases taken
      by_cases restricted : isRestricted newName = true
      · have same : w.renameNode currentName newName
            = throw
                (.error "UserError" ("Node name \"" ++ newName ++ "\" is a restricted name.")
                  (some ("Node names cannot be any of the following: "
                    ++ ", ".intercalate restrictedKeys))) := if_pos restricted
        rw [same]
        exact iff_of_true agree (.inl restricted)
      · have edges := renamed_edges_iff w currentName newName
        simp only [renameNode, restricted, Bool.false_eq_true, if_false, Keeps, false_or]
        rw [← edges]
        constructor
        · intro after place connection
          have turned := after.edges connection place
          have before := agree.edges connection place
          rw [mapConnectionsByDestination_hasEdge] at turned before
          exact turned.symm.trans before
        · intro unchanged
          apply tablesAgree_of_edges
          intro place connection
          have before := agree.edges place connection
          rw [mapConnectionsByDestination_hasEdge] at before
          exact before.trans (unchanged connection place).symm

/-- Through a run of changes from a new workflow the tables agree in every state exactly if
each renaming throws or leaves all edges as they are.
-/
theorem tablesAgree_throughout_iff (nodes : List INode) (connections : IConnections)
    (settings : IWorkflowSettings) (changes : List Change)
    : Throughout step TablesAgree (new nodes connections settings) changes
      ↔ Along step Keeps (new nodes connections settings) changes := by
  have start : (new nodes connections settings).TablesAgree := tablesAgree_setConnections _ _
  constructor
  · intro throughout
    apply along_of_throughout (fun _ => True) (fun _ _ _ _ _ => trivial) ?_ trivial throughout
    intro state change next _ agree taken agreeNext
    exact (agree.step_iff taken).mp agreeNext
  · intro along
    apply throughout_of_preserved ?_ start along
    intro state change next agree keeps taken
    exact (agree.step_iff taken).mpr keeps

/-- `a` is connected to `b`, which is renamed to `c`. -/
theorem renamedDestination_disagrees
    : ¬Throughout step TablesAgree
        (new [⟨"1", "a", "set", false⟩, ⟨"2", "b", "set", false⟩]
          (Dict.empty.set "a" (Dict.empty.set .main [some [⟨"b", .main, 0⟩]])) ⟨none⟩)
        [.renameNode "b" "c"] := by
  intro throughout
  have agree := (throughout.2 _ rfl).here
  have edge := (agree.edges ⟨"b", .main, 0⟩ ⟨"a", .main, 0⟩).mp
    (IConnections.mem_edges_iff.mp (by decide +kernel))
  have absent := mt IConnections.mem_edges_iff.mpr (by decide +kernel) edge
  exact absent

end Workflow

end N8n
