import N8n.Library.Rewiring
import N8n.PartialExecution.DirectedGraph

/-! Bypassing disabled nodes
(`packages/core/src/execution-engine/partial-execution-utils/filter-disabled-nodes.ts`).
Removing a node with reconnection rewires the main connections, so the result has a
connection wherever a path over disabled nodes was. A cycle of disabled nodes leaves a
connection that no removal deletes.
-/

namespace N8n.PartialExecution

open Rewiring

variable {graph : DirectedGraph} {connection : GraphConnection} {x y : INode} {o i : Nat}

namespace DirectedGraph

/-- The options of the call in `filterDisabledNodes`. -/
def reconnectMain : RemoveNodeBaseOptions where
  reconnectConnections := true
  skipConnectionFn := fun connection => connection.type ≠ .main

def filterDisabledNodes (graph : DirectedGraph) : Except JsError DirectedGraph := do
  let filteredGraph ← graph.clone
  filteredGraph.nodes.values.foldlM
    (fun filteredGraph node => do
      if node.disabled then
        let (_, next) ← filteredGraph.removeNode node reconnectMain
        return next
      else
        return filteredGraph)
    filteredGraph

def mainLinks (graph : DirectedGraph) : Links INode Nat :=
  fun fromNode outputIndex inputIndex toNode =>
    ⟨fromNode, toNode, .main, outputIndex, inputIndex⟩ ∈ graph.connections.values

def Disabled (node : INode) : Prop := node.disabled = true

/-- What the result of bypassing the disabled nodes of `graph` has to be. -/
structure BypassesDisabledNodes (graph result : DirectedGraph) : Prop where
  noneDisabled : ∀ node ∈ result.nodes.values, ¬ Disabled node
  fromRemains : ∀ connection ∈ result.connections.values,
    connection.fromNode ∈ result.nodes.values
  toRemains : ∀ connection ∈ result.connections.values,
    connection.toNode ∈ result.nodes.values
  bypassed : ∀ x ∈ graph.nodes.values, ∀ y ∈ graph.nodes.values,
    ¬ Disabled x → ¬ Disabled y → ∀ outputIndex inputIndex,
      result.mainLinks x outputIndex inputIndex y
        ↔ Through graph.mainLinks Disabled x outputIndex inputIndex y

/-- A connection of the graph, or one that a path over disabled nodes may be replaced by. -/
def Arising (graph : DirectedGraph) (connection : GraphConnection) : Prop :=
  connection ∈ graph.connections.values
  ∨ (connection.type = .main
      ∧ Through graph.mainLinks Disabled connection.fromNode connection.outputIndex
          connection.inputIndex connection.toNode)

/-- No two of these connections have the same key. Keys join names with dashes, so names
that contain dashes can break this.
-/
def KeysTellApart (graph : DirectedGraph) : Prop :=
  ∀ first second, graph.Arising first → graph.Arising second
    → makeKey first = makeKey second → first = second

section

variable (wellFormed : graph.WellFormed)

include wellFormed

theorem WellFormed.source_mem (linked : graph.mainLinks x o i y)
    : x ∈ graph.nodes.values :=
  wellFormed.fromExists _ linked

theorem WellFormed.target_mem (linked : graph.mainLinks x o i y)
    : y ∈ graph.nodes.values :=
  wellFormed.toExists _ linked

theorem WellFormed.ends_of_arising (arising : graph.Arising connection)
    : connection.fromNode ∈ graph.nodes.values ∧ connection.toNode ∈ graph.nodes.values := by
  rcases arising with original | ⟨_, path⟩
  · exact ⟨wellFormed.fromExists _ original, wellFormed.toExists _ original⟩
  · obtain ⟨_, _, leaving⟩ := path.leaves
    obtain ⟨_, _, entering⟩ := path.enters
    exact ⟨wellFormed.source_mem leaving, wellFormed.target_mem entering⟩

/-- Names without dashes keep all keys apart: the key gives the two names back, and a
well-formed graph has one node of each name.
-/
theorem WellFormed.keysTellApart (clean : ∀ node ∈ graph.nodes.values, '-' ∉ node.name.toList)
    : graph.KeysTellApart := by
  intro first second firstArises secondArises same
  obtain ⟨firstFrom, firstTo⟩ := wellFormed.ends_of_arising firstArises
  obtain ⟨secondFrom, secondTo⟩ := wellFormed.ends_of_arising secondArises
  obtain ⟨fromName, type, outputIndex, inputIndex, toName⟩ :=
    makeKey_injective (clean _ firstFrom) (clean _ secondFrom) same
  have fromNode : first.fromNode = second.fromNode :=
    wellFormed.nodesKeyed.eq_of_key firstFrom secondFrom fromName
  have toNode : first.toNode = second.toNode :=
    wellFormed.nodesKeyed.eq_of_key firstTo secondTo toName
  cases first
  cases second
  simp_all

end

theorem addConnection_ok (fromExists : graph.nodeExists connection.fromNode = true)
    (toExists : graph.nodeExists connection.toNode = true)
    : graph.addConnection
          {
            fromNode := connection.fromNode
            toNode := connection.toNode
            type := some connection.type
            outputIndex := some connection.outputIndex
            inputIndex := some connection.inputIndex
          }
        = .ok { graph with
            connections := graph.connections.set (makeKey connection) connection } := by
  simp [addConnection, ok, fromExists, toExists]
  rfl

/-- A well-formed graph is its own clone: both dictionaries are rebuilt in order, and the
assertions on the ends of connections hold.
-/
theorem WellFormed.clone (wellFormed : graph.WellFormed)
    : graph.clone = .ok graph := by
  have rebuilt (items : List GraphConnection) (start : DirectedGraph)
      (ends : ∀ connection ∈ items, start.nodeExists connection.fromNode = true
        ∧ start.nodeExists connection.toNode = true)
      : start.addConnections (items.map (fun connection =>
          {
            fromNode := connection.fromNode
            toNode := connection.toNode
            type := some connection.type
            outputIndex := some connection.outputIndex
            inputIndex := some connection.inputIndex
          }))
        = .ok { start with connections := start.connections.insertAll makeKey items } := by
    induction items generalizing start with
    | nil => rfl
    | cons connection rest ih =>
        obtain ⟨fromExists, toExists⟩ := ends connection (by simp)
        rw [List.map_cons, addConnections, List.foldlM_cons,
          addConnection_ok fromExists toExists]
        exact ih _ (fun other member => ends other (.tail _ member))
  have nodes : empty.addNodes graph.nodes.values = { empty with nodes := graph.nodes } := by
    rw [addNodes_eq]
    simp only [empty, wellFormed.nodesKeyed.insertAll_values]
  have all : graph.getConnections none = graph.connections.values := by
    simp [getConnections]
  rw [DirectedGraph.clone, nodes, all, rebuilt]
  · simp only [empty, wellFormed.connectionsKeyed.insertAll_values]
  · intro connection member
    exact ⟨wellFormed.nodeExists_iff.mpr (wellFormed.fromExists connection member),
      wellFormed.nodeExists_iff.mpr (wellFormed.toExists connection member)⟩

/-- A graph that is built from a workflow is well formed, and cloning it gives it back. -/
theorem clone_of_built {nodes : List INode} {connections : IConnections}
    (built : fromNodesAndConnections nodes connections = .ok graph)
    : graph.WellFormed ∧ graph.clone = .ok graph :=
  have wellFormed := wellFormed_fromNodesAndConnections built
  ⟨wellFormed, wellFormed.clone⟩

/-- A node with a connection to itself. -/
theorem exists_clone_of_built
    : let built := fromNodesAndConnections [⟨"1", "Set", "set", false⟩]
        ⟨[("Set", ⟨[(.main, [some [⟨"Set", .main, 0⟩]])], by decide⟩)], by decide⟩
      ∃ graph, built = .ok graph ∧ graph.WellFormed ∧ graph.clone = .ok graph := by
  intro built
  exact ⟨_, rfl, clone_of_built (rfl : built = _)⟩

theorem mem_deleteConnectionsOf {connections : Dict String GraphConnection} {node : INode}
    : connection ∈ (deleteConnectionsOf connections node).values
      ↔ connection ∈ connections.values ∧ connection.fromNode ≠ node
        ∧ connection.toNode ≠ node := by
  rw [deleteConnectionsOf, Dict.mem_values_filter]
  simp [and_comm]

theorem mem_reconnected {incoming outgoing : List GraphConnection}
    : connection ∈ reconnected reconnectMain.skipConnectionFn incoming outgoing
      ↔ ∃ before ∈ incoming, ∃ after ∈ outgoing, before.type = .main ∧ after.type = .main
          ∧ connection
              = ⟨before.fromNode, after.toNode, .main, before.outputIndex,
                  after.inputIndex⟩ := by
  simp only [reconnected, reconnectMain, List.mem_flatMap, List.mem_filter, List.mem_map]
  constructor
  · rintro ⟨before, ⟨beforeMember, beforeMain⟩, after, ⟨afterMember, afterMain⟩, rfl⟩
    have beforeType : before.type = .main := by simpa using beforeMain
    have afterType : after.type = .main := by simpa using afterMain
    exact ⟨before, beforeMember, after, afterMember, beforeType, afterType,
      by rw [← beforeType]⟩
  · rintro ⟨before, beforeMember, after, afterMember, beforeType, afterType, rfl⟩
    exact ⟨before, ⟨beforeMember, by simp [beforeType]⟩, after,
      ⟨afterMember, by simp [afterType]⟩, by rw [← beforeType]⟩

/-- The connections that are left and those that are new, after one node was removed. -/
def removeReconnected (graph : DirectedGraph) (node : INode) : DirectedGraph where
  nodes := graph.nodes.delete node.name
  connections :=
    (deleteConnectionsOf graph.connections node).insertAll makeKey
      (reconnected reconnectMain.skipConnectionFn
        (graph.connections.values.filter (fun connection => connection.toNode = node))
        (graph.connections.values.filter (fun connection => connection.fromNode = node)))

theorem removeNode_reconnectMain {node : INode} (present : graph.nodeExists node = true)
    : (graph.removeNode node reconnectMain).map Prod.snd
      = .ok (graph.removeReconnected node) := by
  simp [removeNode, getDirectParentConnections, getDirectChildConnections, ok, present,
    reconnectMain, removeReconnected]
  rfl

/-- Where the loop stands once the nodes in `removed` are gone from `graph`. -/
structure Stage (graph : DirectedGraph) (removed : List INode) (now : DirectedGraph)
    : Prop where
  nodesKeyed : now.nodes.KeyedBy INode.name
  connectionsKeyed : now.connections.KeyedBy makeKey
  nodes : ∀ node, node ∈ now.nodes.values ↔ node ∈ graph.nodes.values ∧ node ∉ removed
  main : ∀ x o i y, now.mainLinks x o i y ↔ rewireAll graph.mainLinks removed x o i y
  others
    : ∀ connection ∈ now.connections.values,
        connection.type ≠ .main
        → connection ∈ graph.connections.values
          ∧ connection.fromNode ∉ removed
          ∧ connection.toNode ∉ removed

theorem WellFormed.stage {graph : DirectedGraph} (wellFormed : graph.WellFormed)
    : Stage graph [] graph where
  nodesKeyed := wellFormed.nodesKeyed
  connectionsKeyed := wellFormed.connectionsKeyed
  nodes := by simp
  main := by
    intro x o i y
    rfl
  others := by
    intro connection member _
    simp [member]

variable {graph now : DirectedGraph} {removed : List INode} {node : INode}

section

variable (stage : Stage graph removed now) (disabled : ∀ node ∈ removed, Disabled node)

include stage disabled

/-- A main connection of a stage stands for a path over the disabled nodes removed. -/
theorem Stage.through (linked : now.mainLinks x o i y)
    : Through graph.mainLinks Disabled x o i y :=
  (rewireAll_through ((stage.main x o i y).mp linked)).mono disabled

theorem Stage.arising (member : connection ∈ now.connections.values)
    : graph.Arising connection := by
  by_cases type : connection.type = .main
  · refine .inr ⟨type, stage.through disabled ?_⟩
    rw [mainLinks, ← type]
    exact member
  · exact .inl (stage.others connection member type).1

end

section

variable (stage : Stage graph removed now) (keys : graph.KeysTellApart)
  (disabled : ∀ node ∈ removed, Disabled node) (nodeDisabled : Disabled node)

include stage keys disabled nodeDisabled

/-- The main connections after a removal are those of the rewired links: keys that tell
connections apart keep a new connection from displacing another one.
-/
theorem Stage.mem_removeReconnected
    : connection ∈ (now.removeReconnected node).connections.values
      ↔ (connection ∈ now.connections.values ∧ connection.fromNode ≠ node
          ∧ connection.toNode ≠ node)
        ∨ ∃ x o j p i y, now.mainLinks x o j node ∧ now.mainLinks node p i y
            ∧ connection = ⟨x, y, .main, o, i⟩ := by
  have joined : ∀ connection,
      connection ∈ reconnected reconnectMain.skipConnectionFn
        (now.connections.values.filter (fun connection => connection.toNode = node))
        (now.connections.values.filter (fun connection => connection.fromNode = node))
      ↔ ∃ x o j p i y, now.mainLinks x o j node ∧ now.mainLinks node p i y
          ∧ connection = ⟨x, y, .main, o, i⟩ := by
    intro connection
    rw [mem_reconnected]
    simp only [List.mem_filter, decide_eq_true_eq]
    constructor
    · rintro ⟨⟨x, _, _, o, j⟩, ⟨beforeMember, rfl⟩, ⟨_, y, _, p, i⟩, ⟨afterMember, same⟩,
        rfl, rfl, rfl⟩
      simp only at same
      subst same
      exact ⟨x, o, j, p, i, y, beforeMember, afterMember, rfl⟩
    · rintro ⟨x, o, j, p, i, y, before, after, rfl⟩
      exact ⟨_, ⟨before, rfl⟩, _, ⟨after, rfl⟩, rfl, rfl, rfl⟩
  have arising : ∀ connection,
      connection ∈ (deleteConnectionsOf now.connections node).values
          ++ reconnected reconnectMain.skipConnectionFn
            (now.connections.values.filter (fun connection => connection.toNode = node))
            (now.connections.values.filter (fun connection => connection.fromNode = node))
      → graph.Arising connection := by
    intro connection member
    rcases List.mem_append.mp member with kept | new
    · exact stage.arising disabled (mem_deleteConnectionsOf.mp kept).1
    · obtain ⟨x, o, j, p, i, y, before, after, rfl⟩ := (joined connection).mp new
      exact .inr ⟨rfl, (stage.through disabled before).trans nodeDisabled
        (stage.through disabled after)⟩
  have keyed : (deleteConnectionsOf now.connections node).KeyedBy makeKey :=
    stage.connectionsKeyed.filter _
  have kept : connection ∈ (now.removeReconnected node).connections.values ↔ _ :=
    keyed.mem_insertAll (fun first here second there same =>
      keys first second (arising first here) (arising second there) same)
  rw [kept, joined, mem_deleteConnectionsOf, or_comm]

/-- Removing a further disabled node rewires the links at it. -/
theorem Stage.remove (present : node ∈ now.nodes.values)
    : Stage graph (removed ++ [node]) (now.removeReconnected node) where
  nodesKeyed := stage.nodesKeyed.delete node.name
  connectionsKeyed := (stage.connectionsKeyed.filter _).insertAll _
  nodes := by
    intro other
    rw [removeReconnected, stage.nodesKeyed.mem_values_delete, stage.nodes, List.mem_append,
      List.mem_singleton, not_or, and_assoc, and_congr_right_iff, and_congr_right_iff]
    intro original kept
    constructor
    · rintro differ rfl
      exact differ rfl
    · intro differ same
      have still : other ∈ now.nodes.values := (stage.nodes other).mpr ⟨original, kept⟩
      exact differ (stage.nodesKeyed.eq_of_key still present same)
  main := by
    intro x o i y
    rw [mainLinks, stage.mem_removeReconnected keys disabled nodeDisabled, rewireAll,
      List.foldl_append]
    change _ ↔ rewire (rewireAll graph.mainLinks removed) node x o i y
    constructor
    · rintro (⟨kept, source, target⟩ | ⟨x', o', j, p, i', y', before, after, same⟩)
      · exact .inl ⟨source, target, (stage.main x o i y).mp kept⟩
      · cases same
        exact .inr ⟨j, p, (stage.main _ _ _ _).mp before, (stage.main _ _ _ _).mp after⟩
    · rintro (⟨source, target, kept⟩ | ⟨j, p, before, after⟩)
      · exact .inl ⟨(stage.main x o i y).mpr kept, source, target⟩
      · exact .inr ⟨x, o, j, p, i, y, (stage.main _ _ _ _).mpr before,
          (stage.main _ _ _ _).mpr after, rfl⟩
  others := by
    intro connection member type
    rcases (stage.mem_removeReconnected keys disabled nodeDisabled).mp member with
      ⟨kept, source, target⟩ | ⟨x, o, j, p, i, y, _, _, rfl⟩
    · obtain ⟨original, sourceKept, targetKept⟩ := stage.others connection kept type
      exact ⟨original, by simp [sourceKept, source], by simp [targetKept, target]⟩
    · exact absurd rfl type

end

/-- A turn of the loop in `filterDisabledNodes`. -/
def filterStep (filteredGraph : DirectedGraph) (node : INode)
    : Except JsError DirectedGraph := do
  if node.disabled then
    let (_, next) ← filteredGraph.removeNode node reconnectMain
    return next
  else
    return filteredGraph

theorem filterStep_eq (present : now.nodeExists node = true)
    : now.filterStep node
      = .ok (if node.disabled then now.removeReconnected node else now) := by
  unfold filterStep
  cases disabled : node.disabled with
  | true =>
      have removal := removeNode_reconnectMain present
      simp only [if_true]
      cases result : now.removeNode node reconnectMain with
      | error error => simp [result, Except.map] at removal
      | ok answer =>
          obtain ⟨connections, next⟩ := answer
          simp only [result, Except.map, Except.ok.injEq] at removal
          subst removal
          rfl
  | false => rfl

/-- The loop over nodes that are still there ends in the stage where the disabled ones
among them are gone, by induction on the nodes.
-/
theorem Stage.run {nodes : List INode} (stage : Stage graph removed now)
    (keys : graph.KeysTellApart) (disabled : ∀ node ∈ removed, Disabled node)
    (distinct : nodes.Nodup) (present : ∀ node ∈ nodes, node ∈ now.nodes.values)
    : ∃ final,
        nodes.foldlM filterStep now = .ok final
        ∧ Stage graph (removed ++ nodes.filter (fun node => node.disabled)) final := by
  induction nodes generalizing removed now with
  | nil => exact ⟨now, rfl, by simpa using stage⟩
  | cons node rest ih =>
      obtain ⟨fresh, restDistinct⟩ := List.nodup_cons.mp distinct
      have here : node ∈ now.nodes.values := present node (by simp)
      have exists_ : now.nodeExists node = true := by
        simpa [nodeExists] using stage.nodesKeyed.mem_values.mp here
      rw [List.foldlM_cons, filterStep_eq exists_]
      cases type : node.disabled with
      | true =>
          have next := stage.remove keys disabled type here
          obtain ⟨final, returned, last⟩ := ih next
            (by
              intro other member
              rcases List.mem_append.mp member with earlier | same
              · exact disabled other earlier
              · exact List.mem_singleton.mp same ▸ type)
            restDistinct
            (by
              intro other member
              obtain ⟨original, kept⟩ := (stage.nodes other).mp
                (present other (.tail _ member))
              refine (next.nodes other).mpr ⟨original, ?_⟩
              simp only [List.mem_append, List.mem_singleton, not_or]
              exact ⟨kept, fun same => fresh (same ▸ member)⟩)
          exact ⟨final, returned, by simpa [type] using last⟩
      | false =>
          obtain ⟨final, returned, last⟩ := ih stage disabled restDistinct
            (fun other member => present other (.tail _ member))
          exact ⟨final, returned, by simpa [type] using last⟩

section

variable (wellFormed : graph.WellFormed)

include wellFormed

/-- On a well-formed graph the whole function ends in the stage where all disabled nodes
are gone.
-/
theorem WellFormed.filterDisabledNodes (keys : graph.KeysTellApart)
    : ∃ result,
        graph.filterDisabledNodes = .ok result
        ∧ Stage graph (graph.nodes.values.filter (fun node => node.disabled)) result := by
  obtain ⟨result, returned, last⟩ := wellFormed.stage.run keys (by simp)
    wellFormed.nodesKeyed.values_nodup (fun node member => member)
  refine ⟨result, ?_, by simpa using last⟩
  rw [DirectedGraph.filterDisabledNodes, wellFormed.clone]
  exact returned

/-- Inner nodes of a path are ends of connections, hence nodes of the graph. -/
theorem WellFormed.through_iff
    : Through graph.mainLinks (· ∈ graph.nodes.values.filter (fun node => node.disabled))
          x o i y
      ↔ Through graph.mainLinks Disabled x o i y := by
  constructor
  · intro path
    refine path.mono ?_
    intro node member
    exact (List.mem_filter.mp member).2
  · intro path
    induction path with
    | link direct => exact .link direct
    | step first between _ ih =>
        exact .step first (List.mem_filter.mpr ⟨wellFormed.toExists _ first, between⟩) ih

theorem WellFormed.cyclic_iff
    : Cyclic graph.mainLinks (· ∈ graph.nodes.values.filter (fun node => node.disabled))
      ↔ Cyclic graph.mainLinks Disabled := by
  constructor
  · rintro ⟨node, o, i, member, path⟩
    exact ⟨node, o, i, (List.mem_filter.mp member).2, wellFormed.through_iff.mp path⟩
  · rintro ⟨node, o, i, disabled, path⟩
    obtain ⟨_, _, leaving⟩ := path.leaves
    exact ⟨node, o, i, List.mem_filter.mpr ⟨wellFormed.fromExists _ leaving, disabled⟩,
      wellFormed.through_iff.mpr path⟩

/-- Without a cycle of disabled nodes the last stage bypasses them. -/
theorem Stage.bypasses {result : DirectedGraph}
    (stage : Stage graph (graph.nodes.values.filter (fun node => node.disabled)) result)
    (acyclic : ¬ Cyclic graph.mainLinks Disabled)
    : graph.BypassesDisabledNodes result := by
  have ends : ∀ connection ∈ result.connections.values,
      (connection.fromNode ∈ graph.nodes.values ∧ connection.toNode ∈ graph.nodes.values)
      ∧ connection.fromNode ∉ graph.nodes.values.filter (fun node => node.disabled)
      ∧ connection.toNode ∉ graph.nodes.values.filter (fun node => node.disabled) := by
    intro connection member
    by_cases type : connection.type = .main
    · have linked : result.mainLinks connection.fromNode connection.outputIndex
          connection.inputIndex connection.toNode := by
        rw [mainLinks, ← type]
        exact member
      have rewired := (stage.main _ _ _ _).mp linked
      obtain ⟨_, _, leaving⟩ := (rewireAll_through rewired).leaves
      obtain ⟨_, _, entering⟩ := (rewireAll_through rewired).enters
      have source : connection.fromNode ∈ graph.nodes.values :=
        wellFormed.source_mem leaving
      have target : connection.toNode ∈ graph.nodes.values := wellFormed.target_mem entering
      exact ⟨⟨source, target⟩,
        ends_of_rewireAll (mt wellFormed.cyclic_iff.mp acyclic) rewired⟩
    · obtain ⟨original, apart⟩ := stage.others connection member type
      exact ⟨⟨wellFormed.fromExists _ original, wellFormed.toExists _ original⟩, apart⟩
  refine {
    noneDisabled := ?_
    fromRemains := fun connection member =>
      (stage.nodes _).mpr ⟨(ends connection member).1.1, (ends connection member).2.1⟩
    toRemains := fun connection member =>
      (stage.nodes _).mpr ⟨(ends connection member).1.2, (ends connection member).2.2⟩
    bypassed := ?_
  }
  · intro node member disabled
    obtain ⟨original, kept⟩ := (stage.nodes node).mp member
    exact kept (List.mem_filter.mpr ⟨original, disabled⟩)
  · intro x _ y _ xEnabled yEnabled outputIndex inputIndex
    rw [stage.main, ← wellFormed.through_iff]
    refine ⟨rewireAll_through, fun path => path.rewireAll ?_ ?_⟩
    · exact fun member => xEnabled (List.mem_filter.mp member).2
    · exact fun member => yEnabled (List.mem_filter.mp member).2

end

/-- Disabled nodes that no connection joins with each other form no cycle. -/
theorem not_cyclic_of_apart
    (apart : ∀ connection ∈ graph.connections.values,
      ¬ (Disabled connection.fromNode ∧ Disabled connection.toNode))
    : ¬ Cyclic graph.mainLinks Disabled := by
  rintro ⟨node, o, i, disabled, path⟩
  cases path with
  | link direct => exact apart _ direct ⟨disabled, disabled⟩
  | step first between _ => exact apart _ first ⟨disabled, between⟩

/-- A disabled node between a trigger and a further node. -/
def disabledChain : DirectedGraph where
  nodes := Dict.empty.insertAll INode.name
    [
      ⟨"1", "Trigger", "set", false⟩, ⟨"2", "Edit Fields", "set", true⟩,
      ⟨"3", "Wait", "set", false⟩
    ]
  connections := Dict.empty.insertAll makeKey
    [
      ⟨⟨"1", "Trigger", "set", false⟩, ⟨"2", "Edit Fields", "set", true⟩, .main, 0, 0⟩,
      ⟨⟨"2", "Edit Fields", "set", true⟩, ⟨"3", "Wait", "set", false⟩, .main, 0, 0⟩
    ]

/-- A trigger before a loop of two disabled nodes. -/
def disabledLoop : DirectedGraph where
  nodes := Dict.empty.insertAll INode.name
    [⟨"1", "Trigger", "set", false⟩, ⟨"2", "Loop", "set", true⟩, ⟨"3", "Wait", "set", true⟩]
  connections := Dict.empty.insertAll makeKey
    [
      ⟨⟨"1", "Trigger", "set", false⟩, ⟨"2", "Loop", "set", true⟩, .main, 0, 0⟩,
      ⟨⟨"2", "Loop", "set", true⟩, ⟨"3", "Wait", "set", true⟩, .main, 1, 0⟩,
      ⟨⟨"3", "Wait", "set", true⟩, ⟨"2", "Loop", "set", true⟩, .main, 0, 0⟩
    ]

end DirectedGraph

end N8n.PartialExecution
